/-
# The dispatcher

`src/net/MessageDispatcher.cpp` and the handlers that `GameServer::start` registers with it.  A
handler is given the session and the message, and begins by `ParseFromString` of the body; it
does not look at the result, and works on what is in the request then.

`Server.dispatch` starts from a request.  `dispatch_start` says that it is the dispatcher with
its handlers, for the request that `readRequest` reads from the message.
-/

import GameServer.EventLoop
import GameServer.Proto.Messages

namespace GameServer

/-- A handler, with what it reads beside the message: the clocks, and the order in which
`std::sort` leaves the players. -/
abbrev Handler := Server → SessionId → Message → Instant → List PlayerState → Outcome Server

/-- `class MessageDispatcher`. -/
structure MessageDispatcher where
  handlers : Table UInt16 Handler := ∅

namespace MessageDispatcher

def registerHandler (d : MessageDispatcher) (msgId : UInt16) (handler : Handler) :
    MessageDispatcher :=
  { d with handlers := d.handlers.insert msgId handler }

/-- A message that no handler is registered for changes nothing. -/
def dispatch (d : MessageDispatcher) : Handler := fun s sid message now players =>
  match d.handlers.lookup message.msgId with
  | some handler => handler s sid message now players
  | none => .ok s

/-! ### The handlers of `start` -/

variable (R : Runtime)

def handleLogin : Handler := fun s sid message now _ =>
  .ok (LoginService.handleLogin s sid (LoginReq.descriptor.parseFromString R message.body).1 now)

def handleMatch : Handler := fun s sid message _ _ =>
  MatchService.handleMatch s sid (MatchReq.descriptor.parseFromString R message.body).1

def handleChat : Handler := fun s sid message _ _ =>
  ChatService.handleChat s sid (ChatReq.descriptor.parseFromString R message.body).1

def handleHeartbeat : Handler := fun s sid message now _ =>
  .ok (HeartbeatService.handleHeartbeat s sid
    (HeartbeatReq.descriptor.parseFromString R message.body).1 now)

def handleReconnect : Handler := fun s sid message _ _ =>
  ReconnectService.handleReconnect s sid (ReconnectReq.descriptor.parseFromString R message.body).1

def handleRankingReq : Handler := fun s sid message _ players =>
  .ok (RankingService.handleRankingReq s sid
    (RankingReq.descriptor.parseFromString R message.body).1 players)

/-- The dispatcher as `GameServer::start` fills it. -/
def start : MessageDispatcher :=
  (((((({} : MessageDispatcher).registerHandler MessageId.LoginReq (handleLogin R)).registerHandler
    MessageId.MatchReq (handleMatch R)).registerHandler
    MessageId.ChatReq (handleChat R)).registerHandler
    MessageId.HeartbeatReq (handleHeartbeat R)).registerHandler
    MessageId.ReconnectReq (handleReconnect R)).registerHandler
    MessageId.RankingReq (handleRankingReq R)

end MessageDispatcher

/-- The request that a message is, as its handler reads it. -/
def readRequest (R : Runtime) (players : List PlayerState) (m : Message) : Request :=
  if m.msgId = MessageId.LoginReq then .login (LoginReq.descriptor.parseFromString R m.body).1
  else if m.msgId = MessageId.MatchReq then .match (MatchReq.descriptor.parseFromString R m.body).1
  else if m.msgId = MessageId.ChatReq then .chat (ChatReq.descriptor.parseFromString R m.body).1
  else if m.msgId = MessageId.HeartbeatReq then
    .heartbeat (HeartbeatReq.descriptor.parseFromString R m.body).1
  else if m.msgId = MessageId.ReconnectReq then
    .reconnect (ReconnectReq.descriptor.parseFromString R m.body).1
  else if m.msgId = MessageId.RankingReq then
    .ranking (RankingReq.descriptor.parseFromString R m.body).1 players
  else .unregistered m.msgId

namespace MessageDispatcher

/-- The handler that was registered last for an id. -/
theorem lookup_registerHandler (d : MessageDispatcher) (id id' : UInt16) (handler : Handler) :
    (d.registerHandler id handler).handlers.lookup id' =
      if id' = id then some handler else d.handlers.lookup id' :=
  Table.lookup_insert' ..

/-- **The dispatcher of `start`** hands a message to the handler of the request that is read from
it. -/
theorem dispatch_start (R : Runtime) (s : Server) (sid : SessionId) (m : Message) (now : Instant)
    (players : List PlayerState) :
    (start R).dispatch s sid m now players = s.dispatch sid now (readRequest R players m) := by
  have hempty : ({} : MessageDispatcher).handlers.lookup m.msgId = none := Finmap.lookup_empty _
  have hlookup : (start R).handlers.lookup m.msgId =
      if m.msgId = MessageId.RankingReq then some (handleRankingReq R)
      else if m.msgId = MessageId.ReconnectReq then some (handleReconnect R)
      else if m.msgId = MessageId.HeartbeatReq then some (handleHeartbeat R)
      else if m.msgId = MessageId.ChatReq then some (handleChat R)
      else if m.msgId = MessageId.MatchReq then some (handleMatch R)
      else if m.msgId = MessageId.LoginReq then some (handleLogin R)
      else none := by
    simp only [start, lookup_registerHandler, hempty]
  rw [dispatch, hlookup]
  -- The ids differ, so that the order of the registrations does not matter.
  by_cases h₁ : m.msgId = MessageId.LoginReq
  · rw [readRequest, h₁]
    rfl
  by_cases h₂ : m.msgId = MessageId.MatchReq
  · rw [readRequest, h₂]
    rfl
  by_cases h₃ : m.msgId = MessageId.ChatReq
  · rw [readRequest, h₃]
    rfl
  by_cases h₄ : m.msgId = MessageId.HeartbeatReq
  · rw [readRequest, h₄]
    rfl
  by_cases h₅ : m.msgId = MessageId.ReconnectReq
  · rw [readRequest, h₅]
    rfl
  by_cases h₆ : m.msgId = MessageId.RankingReq
  · rw [readRequest, h₆]
    rfl
  · simp only [readRequest, h₁, h₂, h₃, h₄, h₅, h₆, if_false]
    rfl

end MessageDispatcher
end GameServer
