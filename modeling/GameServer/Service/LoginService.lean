/-
# Login

`src/service/LoginService.cpp`.  A login with a user name always succeeds, whatever
the session is already bound to: it draws the next player id and binds the session
to it.
-/

import GameServer.Server

namespace GameServer
namespace LoginService

/-- `std::to_string`. -/
def toString (n : ℤ) : Bytes := ascii (ToString.toString n)

def generateToken (playerId : PlayerId) : Bytes := ascii "token_" ++ toString playerId

def sendLoginSuccess (s : Server) (sid : SessionId) (playerId : PlayerId) (token : Bytes) : Server :=
  s.send sid (.loginResp
    { code := 0, playerId := playerId, token := token, message := ascii "login_success" })

/-- The reason it is given is not sent. -/
def sendLoginFailed (s : Server) (sid : SessionId) (_reason : Bytes) : Server :=
  s.send sid (.loginResp { code := 1, message := ascii "login_failed" })

/-- What a successful login does before it replies. -/
def bind (s : Server) (sid : SessionId) (username : Bytes) (now : Instant) : Server :=
  let playerId := s.nextPlayerId
  let token := generateToken playerId
  { s with
    nextPlayerId := toInt (playerId + 1)
    sessions := s.sessions.modify sid fun session =>
      { session with playerId := playerId, token := token }
    playerManager := s.playerManager.addPlayer playerId sid
    connectionManager := s.connectionManager.addSession sid
    playerStateRepository := s.playerStateRepository.savePlayerState
      { playerId := playerId
        name := username
        score := 0
        online := true
        roomId := -1
        lastLoginTimeMs := now.system.tdiv (10 ^ 6) } }

def handleLogin (s : Server) (sid : SessionId) (req : LoginReq) (now : Instant) : Server :=
  let s := { s with metrics := s.metrics.incrLoginReq }
  if req.username.isEmpty then sendLoginFailed s sid (ascii "username is empty")
  else sendLoginSuccess (bind s sid req.username now) sid s.nextPlayerId
    (generateToken s.nextPlayerId)

end LoginService
end GameServer
