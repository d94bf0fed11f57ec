/-
# The messages of the protocol

`proto/message.proto`, as `generated/proto/message.pb.cc` reads and writes it: the fields of
each of the 17 messages.  `MessageType.parse_fields` says what `ParseFromString` makes of any
fields in any order; that it gives back what `SerializeToString` wrote, that it merges two
serialisations that follow one another as `MergeFrom` does, and that the loop of a repeated
message changes nothing, are `parse_serialize`, `parse_concatenation` and `parse_turns`.
-/

import GameServer.Proto.Parse

namespace GameServer

structure MatchCancelResp where
  code : ℤ := 0
  message : Bytes := []
  deriving DecidableEq

/-! ### The fields -/

def LoginReq.descriptor : Descriptor LoginReq where
  default := {}
  fields := [.string 1 { get := username, set := fun m x => { m with username := x } }]

def LoginResp.descriptor : Descriptor LoginResp where
  default := {}
  fields := [
    .int64 1 { get := code, set := fun m x => { m with code := x } },
    .int64 2 { get := playerId, set := fun m x => { m with playerId := x } },
    .string 3 { get := message, set := fun m x => { m with message := x } },
    .string 4 { get := token, set := fun m x => { m with token := x } }]

def MatchReq.descriptor : Descriptor MatchReq where
  default := {}
  fields := [.int64 1 { get := playerId, set := fun m x => { m with playerId := x } }]

def MatchResp.descriptor : Descriptor MatchResp where
  default := {}
  fields := [
    .int64 1 { get := code, set := fun m x => { m with code := x } },
    .string 2 { get := message, set := fun m x => { m with message := x } }]

def MatchCancelReq.descriptor : Descriptor MatchCancelReq where
  default := {}
  fields := [.int64 1 { get := playerId, set := fun m x => { m with playerId := x } }]

def MatchCancelResp.descriptor : Descriptor MatchCancelResp where
  default := {}
  fields := [
    .int64 1 { get := code, set := fun m x => { m with code := x } },
    .string 2 { get := message, set := fun m x => { m with message := x } }]

def RoomCreatedNotify.descriptor : Descriptor RoomCreatedNotify where
  default := {}
  fields := [
    .int64 1 { get := roomId, set := fun m x => { m with roomId := x } },
    .packedInt64 2 { get := players, set := fun m x => { m with players := x } }]

def ChatReq.descriptor : Descriptor ChatReq where
  default := {}
  fields := [
    .int64 1 { get := roomId, set := fun m x => { m with roomId := x } },
    .string 2 { get := text, set := fun m x => { m with text := x } }]

def ChatNotify.descriptor : Descriptor ChatNotify where
  default := {}
  fields := [
    .int64 1 { get := roomId, set := fun m x => { m with roomId := x } },
    .int64 2 { get := playerId, set := fun m x => { m with playerId := x } },
    .string 3 { get := text, set := fun m x => { m with text := x } }]

/-- The messages of a chat are written as `ChatReq.serialize` and `ChatNotify.serialize` say. -/
theorem serialize_chat : (∀ m : ChatReq, ChatReq.descriptor.serialize m = m.serialize) ∧
    ∀ m : ChatNotify, ChatNotify.descriptor.serialize m = m.serialize := by
  refine ⟨fun m => ?_, fun m => ?_⟩
  · show Wire.int64Field 1 m.roomId ++ (Wire.stringField 2 m.text ++ []) = _
    rw [List.append_nil, ChatReq.serialize]
  · show Wire.int64Field 1 m.roomId ++ (Wire.int64Field 2 m.playerId ++
      (Wire.stringField 3 m.text ++ [])) = _
    rw [List.append_nil, ← List.append_assoc, ChatNotify.serialize]

def ChatResp.descriptor : Descriptor ChatResp where
  default := {}
  fields := [
    .int64 1 { get := code, set := fun m x => { m with code := x } },
    .string 2 { get := message, set := fun m x => { m with message := x } }]

def HeartbeatReq.descriptor : Descriptor HeartbeatReq where
  default := {}
  fields := [
    .int64 1 { get := clientTimeMs, set := fun m x => { m with clientTimeMs := x } },
    .int64 2 { get := lastRttMs, set := fun m x => { m with lastRttMs := x } }]

def HeartbeatResp.descriptor : Descriptor HeartbeatResp where
  default := {}
  fields := [
    .int64 1 { get := clientTimeMs, set := fun m x => { m with clientTimeMs := x } },
    .int64 2 { get := serverTimeMs, set := fun m x => { m with serverTimeMs := x } }]

def ReconnectReq.descriptor : Descriptor ReconnectReq where
  default := {}
  fields := [
    .int64 1 { get := playerId, set := fun m x => { m with playerId := x } },
    .string 2 { get := token, set := fun m x => { m with token := x } }]

def ReconnectResp.descriptor : Descriptor ReconnectResp where
  default := {}
  fields := [
    .int64 1 { get := code, set := fun m x => { m with code := x } },
    .int32 2 { get := playerId, set := fun m x => { m with playerId := x } },
    .int32 3 { get := roomId, set := fun m x => { m with roomId := x } },
    .string 4 { get := message, set := fun m x => { m with message := x } }]

def RankingReq.descriptor : Descriptor RankingReq where
  default := {}
  fields := [.int64 1 { get := topN, set := fun m x => { m with topN := x } }]

def RankingItem.descriptor : Descriptor RankingItem where
  default := {}
  fields := [
    .int64 1 { get := playerId, set := fun m x => { m with playerId := x } },
    .int64 2 { get := score, set := fun m x => { m with score := x } }]

theorem RankingItem.wellFormed : RankingItem.descriptor.WellFormed where
  nodup := by decide
  number_pos := by decide
  number_lt := by decide
  merge_default m := by
    have hdefault : Field.AllDefault m RankingItem.descriptor.fields {} := ⟨rfl, rfl, trivial⟩
    exact (Field.foldl_merge hdefault).trans rfl

theorem RankingItem.parseFromString_serialize (R : Runtime) (m : RankingItem)
    (hm : RankingItem.descriptor.Fits m) :
    RankingItem.descriptor.parseFromString R (RankingItem.descriptor.serialize m) = (m, true) := by
  refine RankingItem.wellFormed.parseFromString_serialize R hm fun f hf => ?_
  simp only [RankingItem.descriptor, List.mem_cons, List.not_mem_nil, or_false] at hf
  rcases hf with rfl | rfl <;> rfl

def RankingResp.descriptor : Descriptor RankingResp where
  default := {}
  fields := [.messages 1 (fun R => RankingItem.descriptor.parseFromString R)
    RankingItem.descriptor.serialize RankingItem.descriptor.Fits RankingItem.parseFromString_serialize
    { get := items, set := fun m x => { m with items := x } }]

/-- The message types of the file. -/
inductive MessageType
  | loginReq | loginResp | matchReq | matchResp | matchCancelReq | matchCancelResp
  | roomCreatedNotify | chatReq | chatNotify | chatResp | heartbeatReq | heartbeatResp
  | reconnectReq | reconnectResp | rankingReq | rankingItem | rankingResp
  deriving DecidableEq

namespace MessageType

/-- The contents of a message. -/
abbrev Contents : MessageType → Type
  | loginReq => LoginReq
  | loginResp => LoginResp
  | matchReq => MatchReq
  | matchResp => MatchResp
  | matchCancelReq => MatchCancelReq
  | matchCancelResp => MatchCancelResp
  | roomCreatedNotify => RoomCreatedNotify
  | chatReq => ChatReq
  | chatNotify => ChatNotify
  | chatResp => ChatResp
  | heartbeatReq => HeartbeatReq
  | heartbeatResp => HeartbeatResp
  | reconnectReq => ReconnectReq
  | reconnectResp => ReconnectResp
  | rankingReq => RankingReq
  | rankingItem => RankingItem
  | rankingResp => RankingResp

def descriptor : (t : MessageType) → Descriptor t.Contents
  | loginReq => LoginReq.descriptor
  | loginResp => LoginResp.descriptor
  | matchReq => MatchReq.descriptor
  | matchResp => MatchResp.descriptor
  | matchCancelReq => MatchCancelReq.descriptor
  | matchCancelResp => MatchCancelResp.descriptor
  | roomCreatedNotify => RoomCreatedNotify.descriptor
  | chatReq => ChatReq.descriptor
  | chatNotify => ChatNotify.descriptor
  | chatResp => ChatResp.descriptor
  | heartbeatReq => HeartbeatReq.descriptor
  | heartbeatResp => HeartbeatResp.descriptor
  | reconnectReq => ReconnectReq.descriptor
  | reconnectResp => ReconnectResp.descriptor
  | rankingReq => RankingReq.descriptor
  | rankingItem => RankingItem.descriptor
  | rankingResp => RankingResp.descriptor

/-- Merging into an empty message copies each member. -/
theorem merge_default (t : MessageType) (m : t.Contents) :
    t.descriptor.mergeFrom t.descriptor.default m = m := by
  have hdefault : Field.AllDefault m t.descriptor.fields t.descriptor.default := by
    cases t
    all_goals
      repeat refine And.intro rfl ?_
      trivial
  refine (Field.foldl_merge hdefault).trans ?_
  cases t <;> rfl

theorem wellFormed (t : MessageType) : t.descriptor.WellFormed where
  nodup := by cases t <;> decide
  number_pos := by cases t <;> decide
  number_lt := by cases t <;> decide
  merge_default := t.merge_default

/-- Every string of the message is UTF-8. -/
def Verified (R : Runtime) (t : MessageType) (m : t.Contents) : Prop :=
  ∀ f ∈ t.descriptor.fields, f.verified R m = true

instance (R : Runtime) (t : MessageType) (m : t.Contents) : Decidable (t.Verified R m) :=
  inferInstanceAs (Decidable (∀ f ∈ t.descriptor.fields, f.verified R m = true))

/-- **Round trip** of every message. -/
theorem parse_serialize (R : Runtime) (t : MessageType) {m : t.Contents}
    (hm : t.descriptor.Fits m) (hutf8 : t.Verified R m) :
    t.descriptor.parseFromString R (t.descriptor.serialize m) = (m, true) :=
  t.wellFormed.parseFromString_serialize R hm hutf8

/-- A ranking of two players. -/
theorem parse_serialize_rankingResp :
    rankingResp.descriptor.parseFromString Runtime.reference (rankingResp.descriptor.serialize
      { items := [⟨10001, 5⟩, ⟨10000, -1⟩] }) = ({ items := [⟨10001, 5⟩, ⟨10000, -1⟩] }, true) := by
  refine parse_serialize Runtime.reference rankingResp ?_ (by decide)
  simp only [descriptor, Descriptor.Fits, RankingResp.descriptor, List.mem_singleton, forall_eq,
    Field.Fits]
  simp only [RankingItem.descriptor, List.forall_mem_cons, List.not_mem_nil, false_implies,
    implies_true]
  decide +kernel

/-- **Two serialisations after one another** are parsed as the two messages merged: what the
second has is kept, and repeated members are joined. -/
theorem parse_concatenation (R : Runtime) (t : MessageType) {m m' : t.Contents}
    (hm : t.descriptor.Fits m) (hm' : t.descriptor.Fits m') (hutf8 : t.Verified R m)
    (hutf8' : t.Verified R m') :
    t.descriptor.parseFromString R (t.descriptor.serialize m ++ t.descriptor.serialize m') =
      (t.descriptor.mergeFrom m m', true) := by
  have hmerge := t.wellFormed.merge_serialize R hm' hutf8' (t.descriptor.mergeFrom
    t.descriptor.default m) []
  rw [List.append_nil, t.merge_default] at hmerge
  rw [Descriptor.parseFromString, t.wellFormed.merge_serialize R hm hutf8, t.merge_default, hmerge]
  rfl

/-- Two notifications of rooms. -/
theorem parse_concatenation_roomCreatedNotify :
    roomCreatedNotify.descriptor.parseFromString Runtime.reference
      (roomCreatedNotify.descriptor.serialize { roomId := 1, players := [10000] } ++
        roomCreatedNotify.descriptor.serialize { roomId := 0, players := [-1, 10001] }) =
      ({ roomId := 1, players := [10000, -1, 10001] }, true) := by
  refine (parse_concatenation Runtime.reference roomCreatedNotify ?_ ?_ (by decide)
    (by decide)).trans (by rfl)
  all_goals
    simp only [descriptor, Descriptor.Fits, RoomCreatedNotify.descriptor, List.forall_mem_cons,
      List.not_mem_nil, false_implies, implies_true, Field.Fits]
    decide +kernel

/-- **The loop of a repeated message changes nothing**, whatever the input: taking one message at
a time gives the same contents and the same result. -/
theorem parse_turns (R : Runtime) (t : MessageType) (turns : Bytes → ℕ) (body : Bytes) :
    t.descriptor.parseFromString R body =
      (t.descriptor.internalParse R turns).run t.descriptor.default body :=
  (t.wellFormed.run_turns R _ _ body).trans (t.wellFormed.run_turns R turns _ body).symm

end MessageType
end GameServer
