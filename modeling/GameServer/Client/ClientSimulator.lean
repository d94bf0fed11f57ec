/-
# The simulated client

`src/client/ClientSimulator.cpp`, as far as a client answers what it receives: it logs
in when it starts, asks to be matched when the login is confirmed, and chats once when it
is told of its room.  The other messages are printed, or feed the heartbeat timer, and
are answered by nothing.  The constructor leaves `player_id_` and `room_id_`
uninitialised; a client writes each of them before it reads it.
-/

import GameServer.EventLoop

namespace GameServer

/-- The part of `class ClientSimulator` that its requests are made from. -/
structure ClientSimulator where
  playerId : ℤ := 0
  roomId : ℤ := 0
  token : Bytes := []
  deriving DecidableEq

namespace ClientSimulator

def login : Request := .login { username := ascii "player" }

/-- The request to be matched, for a client with a positive id. -/
def «match» (c : ClientSimulator) : List Request :=
  if c.playerId ≤ 0 then [] else [.match { playerId := c.playerId }]

def chat (c : ClientSimulator) (text : Bytes) : Request :=
  .chat { roomId := c.roomId, text := text }

/-- The client after a message, and the requests it writes. -/
def handleMessage (c : ClientSimulator) : Response → ClientSimulator × List Request
  | .loginResp resp =>
    if resp.code = 0 then
      let c := { c with playerId := toInt resp.playerId, token := resp.token }
      (c, c.match)
    else (c, [])
  | .roomCreatedNotify resp =>
    let c := { c with roomId := toInt resp.roomId }
    (c, [c.chat (ascii "hello from " ++ LoginService.toString c.playerId)])
  | .matchResp _ | .chatNotify _ | .chatResp _ | .heartbeatResp _ | .reconnectResp _
  | .rankingResp _ => (c, [])

end ClientSimulator
end GameServer
