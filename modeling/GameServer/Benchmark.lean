/-
# The benchmark: `n` clients and the server

`client/main.cpp` starts a number of simulated clients, each with a connection of its own.
`bench n` is the server together with `n` of them and with what is in flight between them.
A connection delivers, in order and without loss, the requests its client wrote (`up`) and
the messages the server handed to the session; `received` are those of the latter the
client has read, so the others are on their way.  Nobody disconnects.  The steps, taken in
any order:

* `start`: a client connects and writes its LoginReq;
* `accept`: the server accepts the connection;
* `serve`: the server handles the next request of a client;
* `receive`: a client reads the next message and writes what it answers;
* `sweep`: the server's reconnect check.
-/

import GameServer.Client.ClientSimulator

namespace GameServer

/-- A client and its end of the connection. -/
structure Endpoint where
  client : ClientSimulator := {}
  started : Bool := false
  /-- The requests written and not handled yet. -/
  up : List Request := []
  /-- The messages read so far. -/
  received : List Response := []
  deriving DecidableEq

/-- The client connects and calls `login`. -/
def Endpoint.start (c : Endpoint) : Endpoint :=
  { c with started := true, up := c.up ++ [ClientSimulator.login] }

/-- The client reads a message. -/
def Endpoint.read (c : Endpoint) (msg : Response) : Endpoint :=
  let answer := c.client.handleMessage msg
  { c with
    client := answer.1
    up := c.up ++ answer.2
    received := c.received ++ [msg] }

/-- The server and the clients.  The session of client `i` is named `i`. -/
structure Bench where
  server : Server := {}
  client : SessionId → Endpoint := fun _ => {}

inductive BenchEvent
  | start (i : SessionId)
  | accept (i : SessionId) (now : Instant)
  | serve (i : SessionId) (now : Instant)
  | receive (i : SessionId)
  | sweep (order : List PlayerId) (now : Instant)

namespace Bench

def setClient (s : Bench) (i : SessionId) (c : Endpoint) : Bench :=
  { s with client := Function.update s.client i c }

/-- The steps of `n` clients and the server. -/
inductive Step (n : ℕ) : Bench → BenchEvent → Bench → Prop
  | start {s : Bench} {i : SessionId} (hi : i < n) (hnew : (s.client i).started = false) :
      Step n s (.start i) (s.setClient i (s.client i).start)
  | accept {s : Bench} {i : SessionId} {now : Instant} {server' : Server}
      (hstarted : (s.client i).started) (hs : GameServer.server.step s.server (.accept i now) server') :
      Step n s (.accept i now) { s with server := server' }
  | serve {s : Bench} {i : SessionId} {now : Instant} {req : Request} {rest : List Request}
      {server' : Server} (hup : (s.client i).up = req :: rest)
      (hs : GameServer.server.step s.server (.request i req now) server') :
      Step n s (.serve i now)
        { s.setClient i { s.client i with up := rest } with server := server' }
  | receive {s : Bench} {i : SessionId} {msg : Response}
      (hmsg : (s.server.sentTo i)[(s.client i).received.length]? = some msg) :
      Step n s (.receive i) (s.setClient i ((s.client i).read msg))
  | sweep {s : Bench} {order : List PlayerId} {now : Instant} {server' : Server}
      (hs : GameServer.server.step s.server (.sweep order now) server') :
      Step n s (.sweep order now) { s with server := server' }

/-- The player named by the MatchReq that the event handles, if it handles one. -/
def matchOf (s : Bench) : BenchEvent → Option PlayerId
  | .serve i _ =>
    match (s.client i).up with
    | .match req :: _ => some (toInt req.playerId)
    | _ => none
  | _ => none

/-- No message is in flight: every client has started, and everything that was written has
been handled or read. -/
def Quiet (s : Bench) (n : ℕ) : Prop :=
  ∀ i < n, (s.client i).started ∧ (s.client i).up = [] ∧
    (s.client i).received.length = (s.server.sentTo i).length

instance (s : Bench) (n : ℕ) : Decidable (s.Quiet n) :=
  inferInstanceAs (Decidable (∀ i, i < n → _))

end Bench

/-- `n` clients and the server as a transition system. -/
def bench (n : ℕ) : Transition.System Bench BenchEvent where
  init := {}
  step := Bench.Step n

/-- The players whose MatchReq was handled, in the order in which that happened. -/
def matched (tr : List (Bench × BenchEvent)) : List PlayerId :=
  (tr.filterMap fun x => x.1.matchOf x.2).reverse

end GameServer
