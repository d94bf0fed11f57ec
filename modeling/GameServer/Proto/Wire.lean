/-
# Chat messages on the wire

`SerializeToString` writes the fields of a message in the order of their numbers, each
after a tag of its number and wire type: an `int64` as a varint of its value modulo
`2 ^ 64`, a `string` as a varint of its length and then its bytes.  A field that has its
default value, 0 or the empty string, is left out.  The two messages of a chat differ by
one field, the id of the sender, and `length_serialize_chatNotify` says by how many bytes.
-/

import GameServer.Lib.Varint
import GameServer.Net.MessageCodec
import GameServer.Proto.Message

namespace GameServer

namespace Wire

open Varint

/-- `enum WireType`, the two that occur. -/
def WIRETYPE_VARINT : ℕ := 0
def WIRETYPE_LENGTH_DELIMITED : ℕ := 2

def varint (n : ℕ) : Bytes := (toVarint n).map UInt8.toInt8

def tag (fieldNumber wireType : ℕ) : Bytes := varint (8 * fieldNumber + wireType)

def int64Field (fieldNumber : ℕ) (value : ℤ) : Bytes :=
  if value = 0 then [] else tag fieldNumber WIRETYPE_VARINT ++ varint (value % 2 ^ 64).toNat

def stringField (fieldNumber : ℕ) (value : Bytes) : Bytes :=
  if value.isEmpty then []
  else tag fieldNumber WIRETYPE_LENGTH_DELIMITED ++ varint value.length ++ value

end Wire

open Wire

def ChatReq.serialize (m : ChatReq) : Bytes := int64Field 1 m.roomId ++ stringField 2 m.text

def ChatNotify.serialize (m : ChatNotify) : Bytes :=
  int64Field 1 m.roomId ++ int64Field 2 m.playerId ++ stringField 3 m.text

/-- The message a client sends. -/
def ChatReq.message (m : ChatReq) : Message := { msgId := MessageId.ChatReq, body := m.serialize }

/-- The message `Room::handle_chat` broadcasts. -/
def ChatNotify.message (m : ChatNotify) : Message :=
  { msgId := MessageId.ChatNotify, body := m.serialize }

namespace Wire

open Varint

/-- The number and the type of the fields here fit into one byte. -/
theorem length_tag {fieldNumber wireType : ℕ} (h : 8 * fieldNumber + wireType < 128) :
    (tag fieldNumber wireType).length = 1 := by
  rw [tag, varint, toVarint_of_lt h, List.length_map, List.length_singleton]

theorem length_stringField {m n : ℕ} (hm : m < 15) (hn : n < 15) (text : Bytes) :
    (stringField m text).length = (stringField n text).length := by
  unfold stringField WIRETYPE_LENGTH_DELIMITED
  split_ifs
  · rfl
  · simp only [List.length_append, length_tag (show 8 * m + 2 < 128 by omega),
      length_tag (show 8 * n + 2 < 128 by omega)]

/-- The bytes of a player's id in a message, with the tag. -/
def playerIdSize (p : ℤ) : ℕ :=
  if p < 2 ^ 14 then 3 else if p < 2 ^ 21 then 4 else if p < 2 ^ 28 then 5 else 6

theorem length_playerIdField {p : ℤ} (hlo : 10000 ≤ p) (hhi : p < 2 ^ 31) :
    (int64Field 2 p).length = playerIdSize p := by
  have hp : (p % 2 ^ 64).toNat = p.toNat := by
    rw [Int.emod_eq_of_lt (by omega) (by omega)]
  have h₀ := length_toVarint_le_iff 0 p.toNat
  have h₁ := length_toVarint_le_iff 1 p.toNat
  have h₂ := length_toVarint_le_iff 2 p.toNat
  have h₃ := length_toVarint_le_iff 3 p.toNat
  have h₄ := length_toVarint_le_iff 4 p.toNat
  rw [int64Field, if_neg (by omega), List.length_append, length_tag (by decide), varint, hp,
    List.length_map, playerIdSize]
  split_ifs <;> omega

/-- **A notification is longer than the request** by the sender's id. -/
theorem length_serialize_chatNotify {p : ℤ} (hlo : 10000 ≤ p) (hhi : p < 2 ^ 31)
    (r : ℤ) (text : Bytes) :
    (ChatNotify.serialize { roomId := r, playerId := p, text := text }).length =
      (ChatReq.serialize { roomId := r, text := text }).length + playerIdSize p := by
  have htext := length_stringField (show 3 < 15 by omega) (show 2 < 15 by omega) text
  simp only [ChatNotify.serialize, ChatReq.serialize, List.length_append, htext,
    length_playerIdField hlo hhi]
  omega

end Wire
end GameServer
