/-
# The client's end of a connection

`client/ClientSimulator.cpp` on the bytes of its socket.  `do_read` appends what was read to
`recv_buffer_` and runs `try_parse`, whose loop is that of `Session::parse_packet` but for the
close: it stops where `try_decode` does not return `Success`.  `handle_message` parses the body by
the id of the message, and `ClientSimulator.handleMessage` is what it does then.  A request is
written as the packet of its id and its serialisation.

What the other end makes of the bytes is `readRequest` for a request and `Response.read` for a
message of the server.  `readRequest_message` and `read_message` say that they are what was
written; the requests, and all messages but a LoginResp, end with their only string, so this does
not depend on what the library takes for UTF-8.
-/

import GameServer.Client.ClientSimulator
import GameServer.Dispatcher
import GameServer.IntRange
import GameServer.Net.Receive

namespace GameServer

open MessageCodec Wire

/-- A request as a client writes it. -/
inductive ClientRequest
  | login (req : LoginReq)
  | match (req : MatchReq)
  | chat (req : ChatReq)
  | heartbeat (req : HeartbeatReq)
  | reconnect (req : ReconnectReq)
  | ranking (req : RankingReq)
  deriving DecidableEq

/-- What the client wrote of a request that is handled. -/
def Request.written : Request → Option ClientRequest
  | .login req => some (.login req)
  | .match req => some (.match req)
  | .chat req => some (.chat req)
  | .heartbeat req => some (.heartbeat req)
  | .reconnect req => some (.reconnect req)
  | .ranking req _ => some (.ranking req)
  | .unregistered _ => none

namespace ClientRequest

def message : ClientRequest → Message
  | login req => ⟨MessageId.LoginReq, LoginReq.descriptor.serialize req⟩
  | .match req => ⟨MessageId.MatchReq, MatchReq.descriptor.serialize req⟩
  | chat req => ⟨MessageId.ChatReq, ChatReq.descriptor.serialize req⟩
  | heartbeat req => ⟨MessageId.HeartbeatReq, HeartbeatReq.descriptor.serialize req⟩
  | reconnect req => ⟨MessageId.ReconnectReq, ReconnectReq.descriptor.serialize req⟩
  | ranking req => ⟨MessageId.RankingReq, RankingReq.descriptor.serialize req⟩

/-- A request that is answered. -/
def isAnswered : ClientRequest → Bool
  | chat _ => false
  | _ => true

/-- The numbers are values of `int64`. -/
def InRange : ClientRequest → Prop
  | login _ => True
  | .match req => IsInt64 req.playerId
  | chat req => IsInt64 req.roomId
  | heartbeat req => IsInt64 req.clientTimeMs ∧ IsInt64 req.lastRttMs
  | reconnect req => IsInt64 req.playerId
  | ranking req => IsInt64 req.topN

instance : (q : ClientRequest) → Decidable q.InRange
  | login _ => inferInstanceAs (Decidable True)
  | .match req => inferInstanceAs (Decidable (IsInt64 req.playerId))
  | chat req => inferInstanceAs (Decidable (IsInt64 req.roomId))
  | heartbeat req => inferInstanceAs (Decidable (IsInt64 req.clientTimeMs ∧ IsInt64 req.lastRttMs))
  | reconnect req => inferInstanceAs (Decidable (IsInt64 req.playerId))
  | ranking req => inferInstanceAs (Decidable (IsInt64 req.topN))

/-- A request that arrives: its numbers are in range, and the body is within the limit of the
codec. -/
structure Fits (q : ClientRequest) : Prop where
  inRange : q.InRange
  size : q.message.body.length ≤ MAX_BODY_SIZE

instance (q : ClientRequest) : Decidable q.Fits :=
  decidable_of_iff (q.InRange ∧ q.message.body.length ≤ MAX_BODY_SIZE)
    ⟨fun h => ⟨h.1, h.2⟩, fun h => ⟨h.1, h.2⟩⟩

end ClientRequest

/-- **The contents of a body within the limit arrive**, if its strings are UTF-8, the last field
aside. -/
theorem MessageType.read_serialize (R : Runtime) (t : MessageType) {m : t.Contents}
    (hlen : (t.descriptor.serialize m).length ≤ MAX_BODY_SIZE)
    (hrange : ∀ f ∈ t.descriptor.fields, f.InRange m)
    (hutf8 : ∀ f ∈ t.descriptor.fields.dropLast, f.verified R m = true) :
    (t.descriptor.parseFromString R (t.descriptor.serialize m)).1 = m := by
  have hlimit : MAX_BODY_SIZE < SIZE_LIMIT := by decide
  have hfits := t.descriptor.fits_of_length hrange (hlen.trans_lt hlimit)
  exact t.wellFormed.contents_serialize R hfits hutf8

/-- **The server reads the request that the client wrote.** -/
theorem readRequest_message (R : Runtime) (players : List PlayerState) {q : ClientRequest}
    (h : q.Fits) : (readRequest R players q.message).written = some q := by
  obtain ⟨hrange, hsize⟩ := h
  cases q with
  | login req =>
    have hread := MessageType.read_serialize R .loginReq hsize
      (by simp [MessageType.descriptor, LoginReq.descriptor, Field.InRange])
      (by simp [MessageType.descriptor, LoginReq.descriptor])
    exact congrArg (fun m => some (ClientRequest.login m)) hread
  | «match» req =>
    have hread := MessageType.read_serialize R .matchReq hsize
      (by simpa [MessageType.descriptor, MatchReq.descriptor, Field.InRange, ClientRequest.InRange] using hrange)
      (by simp [MessageType.descriptor, MatchReq.descriptor])
    exact congrArg (fun m => some (ClientRequest.match m)) hread
  | chat req =>
    have hread := MessageType.read_serialize R .chatReq hsize
      (by simpa [MessageType.descriptor, ChatReq.descriptor, Field.InRange, ClientRequest.InRange] using hrange)
      (by simp [MessageType.descriptor, ChatReq.descriptor, Field.verified])
    exact congrArg (fun m => some (ClientRequest.chat m)) hread
  | heartbeat req =>
    have hread := MessageType.read_serialize R .heartbeatReq hsize
      (by simpa [MessageType.descriptor, HeartbeatReq.descriptor, Field.InRange, ClientRequest.InRange] using hrange)
      (by simp [MessageType.descriptor, HeartbeatReq.descriptor, Field.verified])
    exact congrArg (fun m => some (ClientRequest.heartbeat m)) hread
  | reconnect req =>
    have hread := MessageType.read_serialize R .reconnectReq hsize
      (by simpa [MessageType.descriptor, ReconnectReq.descriptor, Field.InRange, ClientRequest.InRange] using hrange)
      (by simp [MessageType.descriptor, ReconnectReq.descriptor, Field.verified])
    exact congrArg (fun m => some (ClientRequest.reconnect m)) hread
  | ranking req =>
    have hread := MessageType.read_serialize R .rankingReq hsize
      (by simpa [MessageType.descriptor, RankingReq.descriptor, Field.InRange, ClientRequest.InRange] using hrange)
      (by simp [MessageType.descriptor, RankingReq.descriptor])
    exact congrArg (fun m => some (ClientRequest.ranking m)) hread

/-! ### The messages of the server -/

namespace Response

/-- The body of a message that the server sends. -/
def serialize : Response → Bytes
  | loginResp r => LoginResp.descriptor.serialize r
  | matchResp r => MatchResp.descriptor.serialize r
  | roomCreatedNotify r => RoomCreatedNotify.descriptor.serialize r
  | chatNotify r => ChatNotify.descriptor.serialize r
  | chatResp r => ChatResp.descriptor.serialize r
  | heartbeatResp r => HeartbeatResp.descriptor.serialize r
  | reconnectResp r => ReconnectResp.descriptor.serialize r
  | rankingResp r => RankingResp.descriptor.serialize r

/-- What the cases of `handle_message` parse.  There is none for a ChatResp. -/
def read (R : Runtime) (m : Message) : Option Response :=
  if m.msgId = MessageId.LoginResp then
    some (loginResp (LoginResp.descriptor.parseFromString R m.body).1)
  else if m.msgId = MessageId.MatchResp then
    some (matchResp (MatchResp.descriptor.parseFromString R m.body).1)
  else if m.msgId = MessageId.RoomCreatedNotify then
    some (roomCreatedNotify (RoomCreatedNotify.descriptor.parseFromString R m.body).1)
  else if m.msgId = MessageId.ChatNotify then
    some (chatNotify (ChatNotify.descriptor.parseFromString R m.body).1)
  else if m.msgId = MessageId.HeartbeatResp then
    some (heartbeatResp (HeartbeatResp.descriptor.parseFromString R m.body).1)
  else if m.msgId = MessageId.ReconnectResp then
    some (reconnectResp (ReconnectResp.descriptor.parseFromString R m.body).1)
  else if m.msgId = MessageId.RankingResp then
    some (rankingResp (RankingResp.descriptor.parseFromString R m.body).1)
  else none

/-- **The client reads the message that the server sent.** -/
theorem read_message (R : Runtime) {r : Response} (h : r.WellFormed)
    (hlen : r.serialize.length ≤ MAX_BODY_SIZE) : read R ⟨r.msgId, r.serialize⟩ = some r := by
  cases r with
  | loginResp r =>
    have hread := MessageType.read_serialize R .loginResp hlen
      (by simpa [MessageType.descriptor, LoginResp.descriptor, Field.InRange] using ⟨h.1, h.2.1⟩)
      (by simp [MessageType.descriptor, LoginResp.descriptor, Field.verified,
        R.verifyUTF8_ascii h.2.2])
    exact congrArg (fun m => some (loginResp m)) hread
  | matchResp r =>
    have hread := MessageType.read_serialize R .matchResp hlen
      (by simpa [MessageType.descriptor, MatchResp.descriptor, Field.InRange, WellFormed] using h)
      (by simp [MessageType.descriptor, MatchResp.descriptor, Field.verified])
    exact congrArg (fun m => some (matchResp m)) hread
  | roomCreatedNotify r =>
    have hread := MessageType.read_serialize R .roomCreatedNotify hlen
      (by simpa [MessageType.descriptor, RoomCreatedNotify.descriptor, Field.InRange, WellFormed] using h)
      (by simp [MessageType.descriptor, RoomCreatedNotify.descriptor, Field.verified])
    exact congrArg (fun m => some (roomCreatedNotify m)) hread
  | chatNotify r =>
    have hread := MessageType.read_serialize R .chatNotify hlen
      (by simpa [MessageType.descriptor, ChatNotify.descriptor, Field.InRange, WellFormed] using h)
      (by simp [MessageType.descriptor, ChatNotify.descriptor, Field.verified])
    exact congrArg (fun m => some (chatNotify m)) hread
  | chatResp r => exact h.elim
  | heartbeatResp r =>
    have hread := MessageType.read_serialize R .heartbeatResp hlen
      (by simpa [MessageType.descriptor, HeartbeatResp.descriptor, Field.InRange, WellFormed] using h)
      (by simp [MessageType.descriptor, HeartbeatResp.descriptor, Field.verified])
    exact congrArg (fun m => some (heartbeatResp m)) hread
  | reconnectResp r =>
    have hread := MessageType.read_serialize R .reconnectResp hlen
      (by simpa [MessageType.descriptor, ReconnectResp.descriptor, Field.InRange, WellFormed] using h)
      (by simp [MessageType.descriptor, ReconnectResp.descriptor, Field.verified])
    exact congrArg (fun m => some (reconnectResp m)) hread
  | rankingResp r =>
    have hread := MessageType.read_serialize R .rankingResp hlen
      (by simpa [MessageType.descriptor, RankingResp.descriptor, RankingItem.descriptor,
        Descriptor.Fits, Field.Fits, Field.InRange, WellFormed] using h)
      (by simp [MessageType.descriptor, RankingResp.descriptor])
    exact congrArg (fun m => some (rankingResp m)) hread

end Response

/-! ### The connection -/

/-- A client with what it read and wrote on a connection. -/
structure ClientConnection where
  client : ClientSimulator := {}
  /-- The messages that `handle_message` has a case for, oldest first. -/
  read : List Response := []
  /-- The requests it answered them with, oldest first. -/
  wrote : List ClientRequest := []

namespace ClientConnection

/-- `handle_message`.  A message of another id is printed. -/
def handleMessage (R : Runtime) (c : ClientConnection) (m : Message) : ClientConnection :=
  match Response.read R m with
  | some msg =>
    let answer := c.client.handleMessage msg
    { client := answer.1
      read := c.read ++ [msg]
      wrote := c.wrote ++ answer.2.filterMap Request.written }
  | none => c

/-- The client as the host of its receive path; the loop of `try_parse` ends by itself. -/
def host (R : Runtime) : Host ClientConnection Empty where
  dispatch c m := .ok (c.handleMessage R m)
  close c := c

/-- Messages that are well formed are all read. -/
theorem read_foldl (R : Runtime) {msgs : List Response} (h : ∀ r ∈ msgs, r.WellFormed)
    (hlen : ∀ r ∈ msgs, r.serialize.length ≤ MAX_BODY_SIZE) (c : ClientConnection) :
    ((msgs.map fun r => (⟨r.msgId, r.serialize⟩ : Message)).foldl (handleMessage R) c).read =
      c.read ++ msgs := by
  induction msgs generalizing c with
  | nil => exact (List.append_nil _).symm
  | cons r msgs ih =>
    rw [List.forall_mem_cons] at h hlen
    have hread : (c.handleMessage R ⟨r.msgId, r.serialize⟩).read = c.read ++ [r] := by
      rw [handleMessage, Response.read_message R h.1 hlen.1]
    rw [List.map_cons, List.foldl_cons, ih h.2 hlen.2, hread, List.append_assoc]
    rfl

end ClientConnection
end GameServer
