/-
# Requests that cannot be parsed

A handler reads its request with `ParseFromString`, which returns false on a body that is no
message of the type and leaves in the message the fields it has read until then.  The handlers
do not look at what it returns and go on with those fields, where `docs/protocol.md`, section
19, reports an error and goes no further.  The parser is a parameter here (`ParseFromString`),
and nothing is assumed of what it returns and leaves; `ParseFromString.generated` is the one that is
generated from `proto/message.proto`.

So a malformed request changes nothing exactly when the contents happen to be ones that the
handler turns down for another reason (`malformed_rejected_iff`): a user name that was not
read, an id that was not.  A malformed chat, heartbeat or ranking request is always acted on.
-/

import GameServer.Dispatcher
import GameServer.Refusals

namespace GameServer

/-- `ParseFromString` of the six requests: what it returns, and what is in the message then. -/
structure ParseFromString where
  loginReq : Bytes → Bool × LoginReq
  matchReq : Bytes → Bool × MatchReq
  chatReq : Bytes → Bool × ChatReq
  heartbeatReq : Bytes → Bool × HeartbeatReq
  reconnectReq : Bytes → Bool × ReconnectReq
  rankingReq : Bytes → Bool × RankingReq

/-- The request that the handler registered for the message works on, and whether the body was
one.  `players` is the list that a ranking is sorted into. -/
def ParseFromString.request (parse : ParseFromString) (players : List PlayerState) (msg : Message) :
    Bool × Request :=
  if msg.msgId = MessageId.LoginReq then (parse.loginReq msg.body).map id .login
  else if msg.msgId = MessageId.MatchReq then (parse.matchReq msg.body).map id .match
  else if msg.msgId = MessageId.ChatReq then (parse.chatReq msg.body).map id .chat
  else if msg.msgId = MessageId.HeartbeatReq then (parse.heartbeatReq msg.body).map id .heartbeat
  else if msg.msgId = MessageId.ReconnectReq then (parse.reconnectReq msg.body).map id .reconnect
  else if msg.msgId = MessageId.RankingReq then
    (parse.rankingReq msg.body).map id fun req => .ranking req players
  else (true, .unregistered msg.msgId)

namespace ParseFromString

/-- The generated parsers, over the protobuf library. -/
def generated (R : Runtime) : ParseFromString where
  loginReq body := (LoginReq.descriptor.parseFromString R body).swap
  matchReq body := (MatchReq.descriptor.parseFromString R body).swap
  chatReq body := (ChatReq.descriptor.parseFromString R body).swap
  heartbeatReq body := (HeartbeatReq.descriptor.parseFromString R body).swap
  reconnectReq body := (ReconnectReq.descriptor.parseFromString R body).swap
  rankingReq body := (RankingReq.descriptor.parseFromString R body).swap

/-- With the generated parsers the request is the one that the dispatcher's handlers read. -/
theorem request_generated (R : Runtime) (players : List PlayerState) (msg : Message) :
    ((generated R).request players msg).2 = readRequest R players msg := by
  unfold request readRequest
  split_ifs <;> rfl

end ParseFromString

namespace Server

/-- A turn of the loop in `parse_packet`, from the bytes of the message on. -/
def handleMessage (parse : ParseFromString) (s : Server) (sid : SessionId) (msg : Message)
    (players : List PlayerState) (now : Instant) : Outcome Server :=
  s.handlePacket sid (parse.request players msg).2 now

/-- A message that cannot be parsed has no effect but a reply that it failed, if that, and those
on the counters and on the activity time of the session. -/
def RejectsMalformed (parse : ParseFromString) (s : Server) (sid : SessionId) (msg : Message)
    (players : List PlayerState) (now : Instant) : Prop :=
  (parse.request players msg).1 = false →
    ∃ s', s.handleMessage parse sid msg players now = .ok s' ∧ s.OnlyFails sid s'

end Server

/-- **When a malformed request changes nothing.**  In every reachable state, a message whose
body `ParseFromString` returns false on is rejected exactly when the handler's checks turn down
the contents it has left.  What the handler leaves of the state, whatever it replies, is
unchanged exactly when there is nothing to write for these contents. -/
theorem malformed_rejected_iff (parse : ParseFromString) {tr : History} {s : Server}
    (h : server.Run tr s) {sid : SessionId} {msg : Message} {players : List PlayerState}
    {now : Instant} (hbad : (parse.request players msg).1 = false) :
    (s.RejectsMalformed parse sid msg players now ↔ s.Declines (parse.request players msg).2) ∧
      ∀ s', s.handleMessage parse sid msg players now = .ok s' →
        (s.Keeps s' ↔ s.WritesNothing sid (parse.request players msg).2) :=
  ⟨(forall_prop_of_true hbad).trans (Server.onlyFails_iff (Formed.of_run h)),
    fun _ hs => Server.keeps_iff hs⟩

/-- A login of which nothing could be read: `0f` is a tag of wire type 7, which there is not. -/
theorem malformed_rejected_iff_login : ∃ s : Server,
    s.RejectsMalformed (.generated .reference) 0 { msgId := MessageId.LoginReq, body := [0x0f] } []
      {} := by
  obtain ⟨tr, s, h, -⟩ := Server.exists_run (Q := fun _ _ => True) [.accept 0 {}] (by decide +kernel)
  exact ⟨s, (malformed_rejected_iff (.generated .reference) h (by decide)).1.2 rfl⟩

/-- **A malformed login logs in.**  The generated parser rejects the body after the user name, at
the same tag; the session gets player 10000, who is then online and has a record. -/
theorem malformed_login : ∃ tr s s' msg, server.Run tr s ∧ s.alive 0 = true ∧
    msg = { msgId := MessageId.LoginReq, body := [0x0a, 0x01, 0x61, 0x0f] } ∧
    ((ParseFromString.generated .reference).request [] msg).1 = false ∧
    s.handleMessage (.generated .reference) 0 msg [] {} = .ok s' ∧
    s.playerManager.onlineCount = 0 ∧ s'.playerManager.isOnline 10000 = true ∧
    (s'.session 0).playerId = 10000 ∧ 10000 ∈ s'.playerStateRepository.states ∧
    ¬ s.RejectsMalformed (.generated .reference) 0 msg [] {} := by
  obtain ⟨tr, s, s', h, hs, halive, hcount, honline, hid, hrec⟩ := Server.exists_step
    (Q := fun _ s s' => s.alive 0 = true ∧ s.playerManager.onlineCount = 0 ∧
      s'.playerManager.isOnline 10000 = true ∧ (s'.session 0).playerId = 10000 ∧
      10000 ∈ s'.playerStateRepository.states)
    [.accept 0 {}] (.request 0 (.login { username := [0x61] }) {}) (by decide +kernel)
  refine ⟨tr, s, s', _, h, halive, rfl, by decide, hs.2, hcount, honline, hid, hrec, fun hrej => ?_⟩
  obtain ⟨s₁, hs₁, hfails⟩ := hrej (by decide)
  have hs₁ : s.handlePacket 0 (.login { username := [0x61] }) {} = .ok s₁ := hs₁
  have hdeclined : ([0x61] : Bytes) = [] := Server.declines_login hs₁ hfails.keeps.core
  cases hdeclined

end GameServer
