/-
# The client as a process

`client/ClientSimulator.cpp` with its connections and its timers.  `start` is what `main` runs in
each of its threads, and `test_reconnect` is the other entry point.  From then on a process waits
for the ends of its timers and for what it reads; `ClientSimulator.handleMessage` is what it writes
in answer to a message.

The constructor connects, so the two entry points come with a connection, and with what the
constructor leaves in `player_id_` and `room_id_`.  A handler runs at one time, and a write takes the
whole packet, which `write_some` in `send_heartbeat` does not promise.
-/

import GameServer.Client.ClientConnection

namespace GameServer

/-- `class ClientSimulator`, with the connections it has made, oldest first, of which `socket_` is
the last, and for each timer the time at which the wait on it ends, if there is one. -/
structure ClientProcess where
  client : ClientSimulator := {}
  connections : List SessionId := []
  heartBeatEnable : Bool := true
  enableChat : Bool := false
  rttMs : ℤ := -1
  timer : Option Time := none
  chatTimer : Option Time := none
  rankTimer : Option Time := none
  stopHeartbeatTimer : Option Time := none
  reconnectTimer : Option Time := none

/-- `duration_cast<milliseconds>`. -/
def millis (t : Time) : ℤ := t.tdiv (10 ^ 6)

/-- What makes a client go on. -/
inductive ClientEvent
  /-- The client is constructed, with a connection and what is in `player_id_` and `room_id_`. -/
  | start (sid : SessionId) (playerId roomId : ℤ) (chat : Bool)
  | testReconnect (sid : SessionId) (playerId roomId : ℤ) (chat : Bool)
  /-- The handlers of the timers. -/
  | heartbeat
  | chat
  | rank
  | stopHeartbeat
  | reconnect (sid : SessionId)
  /-- A message from one of its connections. -/
  | read (sid : SessionId) (msg : Response)

namespace ClientProcess

/-- A new object. -/
def new (sid : SessionId) (playerId roomId : ℤ) (chat : Bool) : ClientProcess where
  client := { playerId := playerId, roomId := roomId }
  connections := [sid]
  enableChat := chat

def socket (c : ClientProcess) : Option SessionId := c.connections.getLast?

def login : ClientRequest := .login { username := ascii "player" }

def chat (c : ClientProcess) (text : Bytes) : ClientRequest :=
  .chat { roomId := c.client.roomId, text := text }

def rank : ClientRequest := .ranking { topN := 10 }

def sendHeartbeat (c : ClientProcess) (now : Time) : ClientRequest :=
  .heartbeat { clientTimeMs := millis now, lastRttMs := c.rttMs }

/-- `expires_after` ends the wait there is. -/
def durationSend (c : ClientProcess) (now : Time) : ClientProcess :=
  { c with timer := if c.heartBeatEnable then some (now + 5 * 10 ^ 9) else none }

def durationChat (c : ClientProcess) (now : Time) : ClientProcess :=
  if c.enableChat then { c with chatTimer := some (now + 2 * 10 ^ 9) } else c

def stopHeartbeat (c : ClientProcess) : ClientProcess :=
  { c with heartBeatEnable := false, timer := none }

def start (c : ClientProcess) (now : Time) : ClientProcess × List ClientRequest :=
  (({ c.durationSend now with rankTimer := some (now + 20 * 10 ^ 9) }).durationChat now, [login])

def testReconnect (c : ClientProcess) (now : Time) : ClientProcess × List ClientRequest :=
  ({ ({ c with heartBeatEnable := false } : ClientProcess).durationSend now with
      stopHeartbeatTimer := some (now + 5 * 10 ^ 9)
      reconnectTimer := some (now + 80 * 10 ^ 9) }, [login])

/-- `reconnect`, which goes on with a new connection if there is somebody to come back as. -/
def reconnect (c : ClientProcess) (sid : SessionId) : ClientProcess × List ClientRequest :=
  if c.client.playerId = 0 ∨ c.client.token = [] then (c, [])
  else ({ c with connections := c.connections ++ [sid] },
    [.reconnect { playerId := c.client.playerId, token := c.client.token }])

/-- `handle_message`. -/
def handleMessage (c : ClientProcess) (now : Time) (msg : Response) :
    ClientProcess × List ClientRequest :=
  match msg with
  | .heartbeatResp resp => ({ c with rttMs := millis now - resp.clientTimeMs }, [])
  | .reconnectResp resp =>
    if resp.code = 0 then (({ c with heartBeatEnable := true } : ClientProcess).durationSend now, [])
    else (c, [])
  | msg =>
    let answer := c.client.handleMessage msg
    ({ c with client := answer.1 }, answer.2.filterMap Request.written)

/-- The process after an event, and the requests it writes to `socket_`. -/
def step (c : ClientProcess) (now : Time) : ClientEvent → ClientProcess × List ClientRequest
  | .start sid playerId roomId chat => (new sid playerId roomId chat).start now
  | .testReconnect sid playerId roomId chat => (new sid playerId roomId chat).testReconnect now
  | .heartbeat => (({ c with timer := none } : ClientProcess).durationSend now, [c.sendHeartbeat now])
  | .chat => (({ c with chatTimer := none } : ClientProcess).durationChat now,
      [c.chat (ascii "this is a chat")])
  | .rank => ({ c with rankTimer := none }, [rank])
  | .stopHeartbeat => ({ c with stopHeartbeatTimer := none }.stopHeartbeat, [])
  | .reconnect sid => ({ c with reconnectTimer := none } : ClientProcess).reconnect sid
  | .read _ msg => c.handleMessage now msg

/-- The events that can come next: a process is started once, a handler runs when the wait has
ended, and a message comes from a connection. -/
def Enabled (c : ClientProcess) (now : Time) : ClientEvent → Prop
  | .start .. | .testReconnect .. => c.connections = []
  | .heartbeat => ∃ time ∈ c.timer, time ≤ now
  | .chat => ∃ time ∈ c.chatTimer, time ≤ now
  | .rank => ∃ time ∈ c.rankTimer, time ≤ now
  | .stopHeartbeat => ∃ time ∈ c.stopHeartbeatTimer, time ≤ now
  | .reconnect _ => ∃ time ∈ c.reconnectTimer, time ≤ now
  | .read sid _ => sid ∈ c.connections

instance (c : ClientProcess) (now : Time) : (e : ClientEvent) → Decidable (c.Enabled now e)
  | .start .. | .testReconnect .. => inferInstanceAs (Decidable (c.connections = []))
  | .heartbeat => inferInstanceAs (Decidable (∃ time ∈ c.timer, time ≤ now))
  | .chat => inferInstanceAs (Decidable (∃ time ∈ c.chatTimer, time ≤ now))
  | .rank => inferInstanceAs (Decidable (∃ time ∈ c.rankTimer, time ≤ now))
  | .stopHeartbeat => inferInstanceAs (Decidable (∃ time ∈ c.stopHeartbeatTimer, time ≤ now))
  | .reconnect _ => inferInstanceAs (Decidable (∃ time ∈ c.reconnectTimer, time ≤ now))
  | .read sid _ => inferInstanceAs (Decidable (sid ∈ c.connections))

end ClientProcess

/-- The connection that an event makes, if it does. -/
def ClientEvent.connects (c : ClientProcess) : ClientEvent → Option SessionId
  | .start sid .. | .testReconnect sid .. => some sid
  | .reconnect sid => if c.client.playerId = 0 ∨ c.client.token = [] then none else some sid
  | _ => none

end GameServer
