/-
# Reconnecting

`src/service/ReconnectService.cpp`.  A request is accepted when the runtime state
held for the player it names has the token it carries and is `Offline`.  The room id
of the reply is the one in that state.
-/

import GameServer.Server

namespace GameServer
namespace ReconnectService

def sendReconnectSuccess (s : Server) (sid : SessionId) (playerId : PlayerId) (roomId : RoomId) :
    Server :=
  s.send sid (.reconnectResp
    { code := 0, message := ascii "reconnect_success", playerId := playerId, roomId := roomId })

def sendReconnectFailed (s : Server) (sid : SessionId) (reason : Bytes) : Server :=
  s.send sid (.reconnectResp
    { message := reason, code := 1, playerId := (s.session sid).playerId })

/-- What an accepted request does before it replies. -/
def resume (s : Server) (sid : SessionId) (playerId : PlayerId) (token : Bytes) : Outcome Server :=
  let s := { s with
    sessions := s.sessions.modify sid fun session =>
      { session with playerId := playerId, token := token }
    playerManager := s.playerManager.addPlayer playerId sid
    connectionManager := s.connectionManager.addSession sid }
  match s.roomManager.markPlayerReconnected playerId with
  | .error f => s.crash f
  | .ok roomManager => .ok { s with
      roomManager := roomManager
      playerStateManager := s.playerStateManager.markOnline playerId }

def handleReconnect (s : Server) (sid : SessionId) (req : ReconnectReq) : Outcome Server :=
  let s := { s with metrics := s.metrics.incrReconnectReq }
  let playerId := toInt req.playerId
  match s.playerStateManager.getState playerId with
  | none => .ok (sendReconnectFailed s sid (ascii "player state not found"))
  | some state =>
    if state.token ≠ req.token then
      .ok (sendReconnectFailed s sid (ascii "token is not match"))
    else if state.connState ≠ .offline then
      .ok (sendReconnectFailed s sid (ascii "connection state is not offline"))
    else
      match resume s sid playerId req.token with
      | .ok s' => .ok (sendReconnectSuccess s' sid playerId state.roomId)
      | .error c => .error c

end ReconnectService
end GameServer
