/-
# Heartbeats

`src/service/HeartbeatService.cpp`.
-/

import GameServer.Server

namespace GameServer
namespace HeartbeatService

def handleHeartbeat (s : Server) (sid : SessionId) (req : HeartbeatReq) (now : Instant) : Server :=
  let s := { s with metrics := s.metrics.incrHeartbeatReq }
  let rtt := req.lastRttMs
  let s := if rtt > 0 then { s with metrics := s.metrics.recordHeartbeat rtt } else s
  let s := s.updateLastActiveTime sid now.steady
  s.send sid (.heartbeatResp
    { clientTimeMs := req.clientTimeMs, serverTimeMs := now.steady.tdiv (10 ^ 6) })

end HeartbeatService
end GameServer
