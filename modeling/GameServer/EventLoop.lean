/-
# The event loop

`src/GameServer.cpp` and the parts of `src/net/Session.cpp` and
`src/net/ConnectionManager.cpp` that it drives.  One thread runs the handlers one
after the other, so a run of the server is a sequence of events, each handled to
its end:

* `accept`: `do_accept` creates a session, gives it the close callback and starts it;
* `request`: `parse_packet` hands one message to the dispatcher, which calls the
  handler registered for it, if there is one;
* `close`: `Session::close`, from a read or write error, the end of the stream or
  the idle check;
* `release`: the last `shared_ptr` to a closed session goes away, after which the
  weak pointers to it have expired;
* `sweep`: `check_reconnect_timeout`.

What the standard library leaves open is part of the event: the order in which a
sweep meets the entries of a hash map, and the order in which `std::sort` leaves
players of equal score.  A message may be handled on a session that is closed, as
happens when its bytes were read before the close; `Event.onOpen` marks the events
where this is not so.  Each event reads the clocks once.

`check_timeout` closes sessions one after the other; as nothing else happens in
between, it is a run of `close` events (`Server.closes_run`), and is not an event
of its own.  The room tick and the metrics report change nothing that
a handler reads and are left out.
-/

import GameServer.Lib.Transition
import GameServer.Service.ChatService
import GameServer.Service.HeartbeatService
import GameServer.Service.LoginService
import GameServer.Service.MatchService
import GameServer.Service.ReconnectService

namespace GameServer

/-- A message for one of the six registered handlers, as its handler reads it, or
one that no handler is registered for. -/
inductive Request
  | login (req : LoginReq)
  | match (req : MatchReq)
  | chat (req : ChatReq)
  | heartbeat (req : HeartbeatReq)
  | reconnect (req : ReconnectReq)
  /-- `players` is the list that `std::sort` leaves. -/
  | ranking (req : RankingReq) (players : List PlayerState)
  | unregistered (msgId : UInt16)
  deriving DecidableEq

inductive Event
  | accept (sid : SessionId) (now : Instant)
  | request (sid : SessionId) (req : Request) (now : Instant)
  | close (sid : SessionId) (now : Instant)
  | release (sid : SessionId)
  /-- `order` is the order in which the entries of `states_` are met. -/
  | sweep (order : List PlayerId) (now : Instant)
  deriving DecidableEq

namespace Server

/-- The handlers registered by `GameServer::start`. -/
def dispatch (s : Server) (sid : SessionId) (now : Instant) : Request → Outcome Server
  | .login req => .ok (LoginService.handleLogin s sid req now)
  | .match req => MatchService.handleMatch s sid req
  | .chat req => ChatService.handleChat s sid req
  | .heartbeat req => .ok (HeartbeatService.handleHeartbeat s sid req now)
  | .reconnect req => ReconnectService.handleReconnect s sid req
  | .ranking req players => .ok (RankingService.handleRankingReq s sid req players)
  | .unregistered _ => .ok s

/-- What `parse_packet` does with a complete message before it dispatches it. -/
def received (s : Server) (sid : SessionId) (now : Instant) : Server :=
  { s.updateLastActiveTime sid now.steady with metrics := s.metrics.incrRecvPacket }

/-- A turn of the loop in `parse_packet` with a complete message. -/
def handlePacket (s : Server) (sid : SessionId) (req : Request) (now : Instant) : Outcome Server :=
  (s.received sid now).dispatch sid now req

/-- The callback `do_accept` gives to each session. -/
def closeCallback (s : Server) (sid : SessionId) (now : Instant) : Outcome Server :=
  let playerId := (s.session sid).playerId
  let token := (s.session sid).token
  let s := { s with
    matchQueue := s.matchQueue.leave playerId
    playerManager := s.playerManager.removePlayer playerId
    connectionManager := s.connectionManager.removeSession sid
    playerStateManager :=
      (s.playerStateManager.saveOnline playerId (s.roomManager.getRoomIdByPlayer playerId)
        token).markDisconnected playerId now.steady }
  match s.roomManager.markPlayerDisconnected playerId with
  | .error f => s.crash f
  | .ok roomManager => .ok { s with roomManager := roomManager }

/-- `Session::close`. -/
def close (s : Server) (sid : SessionId) (now : Instant) : Outcome Server :=
  if (s.session sid).closed then .ok s
  else (s.setSession sid fun session => { session with closed := true }).closeCallback sid now

/-- `Session::check_timeout`. -/
def idle (s : Server) (now : Time) (timeout : ℤ) (sid : SessionId) : Bool :=
  elapsedSeconds now ((s.lastActive.lookup sid).getD 0) > timeout

/-- The loop of `ConnectionManager::check_timeout` over the sessions it found. -/
def closeAll (s : Server) (now : Instant) : List SessionId → Outcome Server
  | [] => .ok s
  | sid :: sids =>
    match s.close sid now with
    | .ok s' => s'.closeAll now sids
    | .error c => .error c

/-- `check_timeout`, with its limit of 15 seconds, meeting the entries of `sessions_` in
`order`. -/
def checkTimeout (s : Server) (order : List SessionId) (now : Instant) : Outcome Server :=
  s.closeAll now (order.filter (s.idle now.steady 15))

/-- The loop of `check_reconnect_timeout` over the players it found. -/
def removePlayers (s : Server) : List PlayerId → Outcome Server
  | [] => .ok s
  | playerId :: playerIds =>
    match s.roomManager.removePlayer playerId with
    | .error f => s.crash f
    | .ok roomManager =>
      { s with
        roomManager := roomManager
        playerStateManager := s.playerStateManager.removePlayer playerId }.removePlayers playerIds

/-- `check_reconnect_timeout`, with its limit of 30 seconds. -/
def checkReconnectTimeout (s : Server) (order : List PlayerId) (now : Instant) : Outcome Server :=
  s.removePlayers (s.playerStateManager.getReconnectTimeoutPlayers order now.steady 30)

/-- `do_accept` with the new session object. -/
def accept (s : Server) (sid : SessionId) (now : Instant) : Server :=
  { s with sessions := s.sessions.insert sid {} }.updateLastActiveTime sid now.steady

/-- One event, handled to its end. -/
def step (s : Server) : Event → Outcome Server
  | .accept sid now => .ok (s.accept sid now)
  | .request sid req now => s.handlePacket sid req now
  | .close sid now => s.close sid now
  | .release sid => .ok (s.setSession sid fun session => { session with alive := false })
  | .sweep order now => s.checkReconnectTimeout order now

/-- The events that can come next: a session object is new when it is accepted and
exists when it is used; it goes away only when it is closed and nothing holds it; and
the orders chosen by the library are admissible. -/
def Enabled (s : Server) : Event → Prop
  | .accept sid _ => sid ∉ s.sessions
  | .request sid req _ => s.alive sid ∧
      match req with
      | .ranking _ players => RankingService.Ranks s players
      | _ => True
  | .close sid _ => s.alive sid
  | .release sid => s.alive sid ∧ (s.session sid).closed ∧ sid ∉ s.connectionManager.sessions
  | .sweep order _ => s.playerStateManager.states.Enumerates order

end Server

/-- The server as a transition system, from the state it starts in.  A handler that
fails ends the run, as it ends the process. -/
def server : Transition.System Server Event where
  init := {}
  step s e s' := s.Enabled e ∧ s.step e = .ok s'

/-- A history of the server: the events handled, latest first, each with the state it
was handled in. -/
abbrev History := List (Server × Event)

/-- The event is not a message on a closed session. -/
def Event.onOpen (s : Server) : Event → Prop
  | .request sid _ _ => (s.session sid).closed = false
  | _ => True

instance (s : Server) : (e : Event) → Decidable (e.onOpen s)
  | .request sid _ _ => inferInstanceAs (Decidable ((s.session sid).closed = false))
  | .accept .. | .close .. | .release _ | .sweep .. => inferInstanceAs (Decidable True)

end GameServer
