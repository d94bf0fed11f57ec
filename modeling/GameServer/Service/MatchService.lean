/-
# Matching

`src/service/MatchService.cpp`.  The player who is queued is the one the request
names; neither its session nor the rooms are looked at.  A request that makes the
queue two long creates a room for the two players it pops.  `handle_cancel_match` is
not registered with the dispatcher.
-/

import GameServer.Server

namespace GameServer
namespace MatchService

def sendMatchSuccess (s : Server) (sid : SessionId) : Server :=
  s.send sid (.matchResp { code := 0, message := ascii "match success" })

def sendMatchFailure (s : Server) (sid : SessionId) (reason : Bytes) : Server :=
  s.send sid (.matchResp { code := 1, message := reason })

/-- What follows the joining: pop two players if there are two, and give them a room. -/
def matchPlayers (s : Server) : Outcome Server :=
  let popped := s.matchQueue.tryPopMatchedPlayers 2
  let s := { s with matchQueue := popped.2 }
  if popped.1.isEmpty then .ok s else s.createRoom popped.1

def handleMatch (s : Server) (sid : SessionId) (req : MatchReq) : Outcome Server :=
  let s := { s with metrics := s.metrics.incrMatchReq }
  let playerId := toInt req.playerId
  if playerId ≤ 0 then .ok (sendMatchFailure s sid (ascii "player_id must be non-negative"))
  else if s.matchQueue.contains playerId then
    .ok (sendMatchFailure s sid (ascii "player_id already in match_queue"))
  else
    matchPlayers (sendMatchSuccess { s with matchQueue := s.matchQueue.join playerId } sid)

end MatchService
end GameServer
