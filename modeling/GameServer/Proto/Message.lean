/-
# The protocol messages

`proto/message.proto`.  An `int64` or `int32` field is an integer and a `string`
field a byte string.  A handler reads its request through protobuf's
`ParseFromString`, which it calls without looking at the result, so what it works
on is some contents of the request's fields; the services are given these
contents, and a statement about a request is about all of them.

`Response` gathers what the server sends.  The session's `send` takes a message id
and a serialised body; `Response.msgId` is the id that goes with each kind.
-/

import GameServer.Net.Message

namespace GameServer

/-- Conversion to `int`: the value modulo `2 ^ 32`, in `[-2 ^ 31, 2 ^ 31)`. -/
def toInt (x : ℤ) : ℤ := x.bmod (2 ^ 32)

theorem toInt_of_lt {x : ℤ} (h₀ : -2 ^ 31 ≤ x) (h₁ : x < 2 ^ 31) : toInt x = x :=
  Int.bmod_eq_of_le (by omega) (by omega)

theorem toInt_mem (x : ℤ) : -2 ^ 31 ≤ toInt x ∧ toInt x < 2 ^ 31 := by
  rw [toInt, Int.bmod_def]
  omega

theorem toInt_emod (x : ℤ) : toInt x % 2 ^ 32 = x % 2 ^ 32 := Int.bmod_emod ..

theorem toInt_toInt (x : ℤ) : toInt (toInt x) = toInt x := Int.bmod_bmod

theorem toInt_toInt_add (x y : ℤ) : toInt (toInt x + y) = toInt (x + y) := Int.bmod_add_bmod

/-- Conversion to `int64_t`. -/
def toInt64 (x : ℤ) : ℤ := x.bmod (2 ^ 64)

theorem toInt64_of_lt {x : ℤ} (h₀ : -2 ^ 63 ≤ x) (h₁ : x < 2 ^ 63) : toInt64 x = x :=
  Int.bmod_eq_of_le (by omega) (by omega)

theorem toInt64_toInt64_add (x y : ℤ) : toInt64 (toInt64 x + y) = toInt64 (x + y) :=
  Int.bmod_add_bmod

/-! ### Requests -/

structure LoginReq where
  username : Bytes := []
  deriving DecidableEq

structure MatchReq where
  playerId : ℤ := 0
  deriving DecidableEq

structure MatchCancelReq where
  playerId : ℤ := 0
  deriving DecidableEq

structure ChatReq where
  roomId : ℤ := 0
  text : Bytes := []
  deriving DecidableEq

structure HeartbeatReq where
  clientTimeMs : ℤ := 0
  lastRttMs : ℤ := 0
  deriving DecidableEq

structure ReconnectReq where
  playerId : ℤ := 0
  token : Bytes := []
  deriving DecidableEq

structure RankingReq where
  topN : ℤ := 0
  deriving DecidableEq

/-! ### Responses and notifications -/

structure LoginResp where
  code : ℤ := 0
  playerId : ℤ := 0
  message : Bytes := []
  token : Bytes := []
  deriving DecidableEq

structure MatchResp where
  code : ℤ := 0
  message : Bytes := []
  deriving DecidableEq

structure RoomCreatedNotify where
  roomId : ℤ := 0
  players : List ℤ := []
  deriving DecidableEq

structure ChatNotify where
  roomId : ℤ := 0
  playerId : ℤ := 0
  text : Bytes := []
  deriving DecidableEq

structure ChatResp where
  code : ℤ := 0
  message : Bytes := []
  deriving DecidableEq

structure HeartbeatResp where
  clientTimeMs : ℤ := 0
  serverTimeMs : ℤ := 0
  deriving DecidableEq

structure ReconnectResp where
  code : ℤ := 0
  playerId : ℤ := 0
  roomId : ℤ := 0
  message : Bytes := []
  deriving DecidableEq

structure RankingItem where
  playerId : ℤ := 0
  score : ℤ := 0
  deriving DecidableEq

structure RankingResp where
  items : List RankingItem := []
  deriving DecidableEq

/-- A message the server sends. -/
inductive Response
  | loginResp (r : LoginResp)
  | matchResp (r : MatchResp)
  | roomCreatedNotify (r : RoomCreatedNotify)
  | chatNotify (r : ChatNotify)
  | chatResp (r : ChatResp)
  | heartbeatResp (r : HeartbeatResp)
  | reconnectResp (r : ReconnectResp)
  | rankingResp (r : RankingResp)
  deriving DecidableEq

/-- The `msg_id` a response is sent under. -/
def Response.msgId : Response → UInt16
  | .loginResp _ => MessageId.LoginResp
  | .matchResp _ => MessageId.MatchResp
  | .roomCreatedNotify _ => MessageId.RoomCreatedNotify
  | .chatNotify _ => MessageId.ChatNotify
  | .chatResp _ => MessageId.ChatResp
  | .heartbeatResp _ => MessageId.HeartbeatResp
  | .reconnectResp _ => MessageId.ReconnectResp
  | .rankingResp _ => MessageId.RankingResp

end GameServer
