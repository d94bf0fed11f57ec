/-
# The message codec

`src/net/MessageCodec.cpp`.  A packet is a header of six bytes, the length of
the body in four and the message id in two, both least significant byte first,
and then the body.  `read_uint32` assembles its value in a 32-bit `int`, shifting
the fourth byte into the sign bit, and converts to `uint32_t` at the end; the
buffer holds signed `char`s, which are cast to `uint8_t` before they are shifted
(`octet`).  `tryDecode` reads and updates the buffer, the output message and the
error text it is given, so its result has all three.

`tryDecode_success` says what the decoder takes off the front of a buffer: the
raw frame of the message it returns.  With `tryDecode_rawFrame`, its converse,
the codec is a `Framing` (`codec`), and everything about streams of packets
follows from `GameServer.Lib.Framing`.
-/

import GameServer.Lib.Framing
import GameServer.Lib.LittleEndian
import GameServer.Net.Message
import Mathlib.Tactic

namespace GameServer
namespace MessageCodec

open LittleEndian

def HEADER_SIZE : ℕ := 6

def MAX_BODY_SIZE : ℕ := 1024 * 1024

/-- `enum class DecodeStatus`. -/
inductive DecodeStatus
  | success | needMore | error
  deriving DecidableEq

/-- `static_cast<uint8_t>(data[i])`, promoted to `int`. -/
def octet (data : Bytes) (i : ℕ) : Int32 := (data.getD i 0).toUInt8.toUInt32.toInt32

def readUint16 (data : Bytes) : UInt16 :=
  (octet data 0 ||| octet data 1 <<< 8).toUInt32.toUInt16

def readUint32 (data : Bytes) : UInt32 :=
  (octet data 0 ||| octet data 1 <<< 8 ||| octet data 2 <<< 16 ||| octet data 3 <<< 24).toUInt32

def writeUint16 (value : UInt16) : Bytes :=
  [(value &&& 0xff).toUInt8.toInt8, (value >>> 8).toUInt8.toInt8]

def writeUint32 (value : UInt32) : Bytes :=
  [(value &&& 0xff).toUInt8.toInt8, (value >>> 8 &&& 0xff).toUInt8.toInt8,
    (value >>> 16 &&& 0xff).toUInt8.toInt8, (value >>> 24 &&& 0xff).toUInt8.toInt8]

/-- `encode(msg_id, body)`: an oversized body gives an empty packet. -/
def encodeBody (msgId : UInt16) (body : Bytes) : Bytes :=
  if body.length > MAX_BODY_SIZE then []
  else writeUint32 (UInt32.ofNat body.length) ++ writeUint16 msgId ++ body

def encode (message : Message) : Bytes := encodeBody message.msgId message.body

/-- What `try_decode` returns and leaves in its three reference parameters. -/
structure Decoded where
  status : DecodeStatus
  buffer : Bytes
  outMessage : Message
  errorMessage : Bytes
  deriving DecidableEq

def tryDecode (buffer : Bytes) (outMessage : Message) (errorMessage : Bytes) : Decoded :=
  if buffer.length < HEADER_SIZE then
    ⟨.needMore, buffer, outMessage, ascii "Message too short"⟩
  else
    let bodySize := readUint32 buffer
    let msgId := readUint16 (buffer.drop 4)
    if buffer.length < bodySize.toNat + HEADER_SIZE then
      ⟨.needMore, buffer, outMessage, ascii "Message too short"⟩
    else
      let packetSize := HEADER_SIZE + bodySize.toNat
      ⟨.success, buffer.drop packetSize,
        { msgId := msgId, body := (buffer.take packetSize).drop HEADER_SIZE }, errorMessage⟩

/-! ### Reading and writing header fields -/

/-- Or-ing a byte in above the bits in use adds it. -/
theorem toNat_or_shiftLeft {a b s : UInt32} (hs : s.toNat ≤ 24) (ha : a.toNat < 2 ^ s.toNat)
    (hb : b.toNat < 256) : (a ||| b <<< s).toNat = a.toNat + b.toNat * 2 ^ s.toNat := by
  have hlt : b.toNat * 2 ^ s.toNat < 2 ^ 32 :=
    calc b.toNat * 2 ^ s.toNat < 2 ^ 8 * 2 ^ s.toNat :=
          Nat.mul_lt_mul_of_pos_right hb (Nat.two_pow_pos _)
      _ = 2 ^ (8 + s.toNat) := (Nat.pow_add ..).symm
      _ ≤ 2 ^ 32 := Nat.pow_le_pow_right (by omega) (by omega)
  rw [UInt32.toNat_or, UInt32.toNat_shiftLeft, Nat.mod_eq_of_lt (show s.toNat < 32 by omega),
    Nat.mod_eq_of_lt (by rwa [Nat.shiftLeft_eq]), Nat.or_comm,
    ← Nat.shiftLeft_add_eq_or_of_lt ha, Nat.shiftLeft_eq, Nat.add_comm]

theorem toNat_octet (data : Bytes) (i : ℕ) :
    (octet data i).toUInt32.toNat = (data.getD i 0).toUInt8.toNat := UInt8.toNat_toUInt32 _

theorem octet_lt (data : Bytes) (i : ℕ) : (octet data i).toUInt32.toNat < 256 := by
  rw [toNat_octet]
  exact UInt8.toNat_lt _

theorem toNat_readUint32 (a b c d : Int8) (rest : Bytes) :
    (readUint32 (a :: b :: c :: d :: rest)).toNat =
      ofBytes [a.toUInt8, b.toUInt8, c.toUInt8, d.toUInt8] := by
  set data := a :: b :: c :: d :: rest
  have h₀ := octet_lt data 0
  have h₁ := octet_lt data 1
  have h₂ := octet_lt data 2
  have e₁ := toNat_or_shiftLeft (s := 8) (by decide) h₀ h₁
  have e₂ := toNat_or_shiftLeft (s := 16) (by decide)
    (lt_of_eq_of_lt e₁ (show _ < 2 ^ 16 by simp only [UInt32.reduceToNat]; omega)) h₂
  have e₃ := toNat_or_shiftLeft (s := 24) (by decide)
    (lt_of_eq_of_lt e₂ (show _ < 2 ^ 24 by simp only [UInt32.reduceToNat] at e₁ ⊢; omega))
    (octet_lt data 3)
  refine e₃.trans ?_
  simp only [e₂, e₁, toNat_octet, UInt32.reduceToNat]
  simp only [data, List.getD_cons_zero, List.getD_cons_succ, ofBytes]
  omega

theorem toNat_readUint16 (a b : Int8) (rest : Bytes) :
    (readUint16 (a :: b :: rest)).toNat = ofBytes [a.toUInt8, b.toUInt8] := by
  set data := a :: b :: rest
  have h₀ := octet_lt data 0
  have h₁ := octet_lt data 1
  have e := toNat_or_shiftLeft (s := 8) (by decide) h₀ h₁
  have hr : (readUint16 data).toNat =
      ((octet data 0).toUInt32 ||| (octet data 1).toUInt32 <<< 8).toNat % 2 ^ 16 :=
    UInt32.toNat_toUInt16 _
  rw [hr, e]
  simp only [toNat_octet, UInt32.reduceToNat] at h₀ h₁ ⊢
  simp only [data, List.getD_cons_zero, List.getD_cons_succ, ofBytes] at h₀ h₁ ⊢
  omega

theorem writeUint32_eq (v : UInt32) : writeUint32 v = (toBytes 4 v.toNat).map UInt8.toInt8 := by
  have h (w : UInt32) : (w &&& 0xff).toUInt8 = UInt8.ofNat w.toNat := by
    rw [← UInt8.toNat_inj, UInt32.toNat_toUInt8, UInt32.toNat_and, UInt8.toNat_ofNat',
      show (0xff : UInt32).toNat = 2 ^ 8 - 1 from rfl, Nat.and_two_pow_sub_one_eq_mod]
    omega
  have hs (s : UInt32) (hs : s.toNat < 32) : (v >>> s).toNat = v.toNat / 2 ^ s.toNat := by
    rw [UInt32.toNat_shiftRight, Nat.mod_eq_of_lt hs, Nat.shiftRight_eq_div_pow]
  simp only [writeUint32, toBytes, List.map_cons, List.map_nil, h, hs 8 (by decide),
    hs 16 (by decide), hs 24 (by decide), UInt32.reduceToNat, Nat.div_div_eq_div_mul]
  rfl

theorem writeUint16_eq (v : UInt16) : writeUint16 v = (toBytes 2 v.toNat).map UInt8.toInt8 := by
  have h₀ : (v &&& 0xff).toUInt8 = UInt8.ofNat v.toNat := by
    rw [← UInt8.toNat_inj, UInt16.toNat_toUInt8, UInt16.toNat_and, UInt8.toNat_ofNat',
      show (0xff : UInt16).toNat = 2 ^ 8 - 1 from rfl, Nat.and_two_pow_sub_one_eq_mod]
    omega
  have h₁ : (v >>> 8).toUInt8 = UInt8.ofNat (v.toNat / 256) := by
    rw [← UInt8.toNat_inj, UInt16.toNat_toUInt8, UInt16.toNat_shiftRight, UInt8.toNat_ofNat',
      Nat.shiftRight_eq_div_pow]
    rfl
  rw [writeUint16, h₀, h₁]
  rfl

/-! ### What the decoder takes off a buffer -/

/-- The raw frame of a message: four bytes of body length and two of message id,
least significant first, and the body.  It is what `encode` writes, without the
limit on the body (`encode_eq`). -/
def rawFrame (m : Message) : Bytes :=
  (toBytes 4 m.body.length).map UInt8.toInt8 ++ (toBytes 2 m.msgId.toNat).map UInt8.toInt8 ++ m.body

theorem length_rawFrame (m : Message) : (rawFrame m).length = HEADER_SIZE + m.body.length := by
  simp [rawFrame, HEADER_SIZE]
  omega

theorem encode_eq {m : Message} (h : m.body.length ≤ MAX_BODY_SIZE) : encode m = rawFrame m := by
  have hmax : MAX_BODY_SIZE < 2 ^ 32 := by decide
  have hlt : m.body.length < 2 ^ 32 := by omega
  rw [encode, encodeBody, if_neg (by omega), writeUint32_eq, writeUint16_eq,
    UInt32.toNat_ofNat_of_lt' hlt, rawFrame]

/-- The length a header declares. -/
def declaredLength (buffer : Bytes) : ℕ := (readUint32 buffer).toNat

theorem header_cases {b : Bytes} (h : HEADER_SIZE ≤ b.length) :
    ∃ a₀ a₁ a₂ a₃ a₄ a₅ rest, b = a₀ :: a₁ :: a₂ :: a₃ :: a₄ :: a₅ :: rest := by
  match b, h with
  | a₀ :: a₁ :: a₂ :: a₃ :: a₄ :: a₅ :: rest, _ => exact ⟨a₀, a₁, a₂, a₃, a₄, a₅, rest, rfl⟩

/-- The six header bytes are determined by the length and the id read from them. -/
theorem header_eq {a₀ a₁ a₂ a₃ a₄ a₅ : Int8} {rest : Bytes} :
    (toBytes 4 (declaredLength (a₀ :: a₁ :: a₂ :: a₃ :: a₄ :: a₅ :: rest))).map UInt8.toInt8 ++
        (toBytes 2 (readUint16 (a₄ :: a₅ :: rest)).toNat).map UInt8.toInt8 =
      [a₀, a₁, a₂, a₃, a₄, a₅] := by
  rw [declaredLength, toNat_readUint32, toNat_readUint16]
  have h₄ := toBytes_ofBytes [a₀.toUInt8, a₁.toUInt8, a₂.toUInt8, a₃.toUInt8]
  have h₂ := toBytes_ofBytes [a₄.toUInt8, a₅.toUInt8]
  simp only [List.length_cons, List.length_nil] at h₄ h₂
  rw [h₄, h₂]
  rfl

theorem readUint32_append {n : ℕ} (hn : n < 2 ^ 32) (rest : Bytes) :
    (readUint32 ((toBytes 4 n).map UInt8.toInt8 ++ rest)).toNat = n := by
  refine (toNat_readUint32 ..).trans ?_
  exact ofBytes_toBytes (k := 4) hn

theorem readUint16_append (v : UInt16) (rest : Bytes) :
    readUint16 ((toBytes 2 v.toNat).map UInt8.toInt8 ++ rest) = v := by
  rw [← UInt16.toNat_inj]
  refine (toNat_readUint16 ..).trans ?_
  exact ofBytes_toBytes (k := 2) v.toNat_lt

/-- A buffer too short for a header, or for the body its header declares. -/
def Incomplete (buffer : Bytes) : Prop :=
  buffer.length < HEADER_SIZE ∨ buffer.length < HEADER_SIZE + declaredLength buffer

instance (buffer : Bytes) : Decidable (Incomplete buffer) := inferInstanceAs (Decidable (_ ∨ _))

/-- **`NeedMore` changes nothing:** the buffer and the output message are left as
they were. -/
theorem tryDecode_needMore {b : Bytes} (h : Incomplete b) (out : Message) (err : Bytes) :
    tryDecode b out err = ⟨.needMore, b, out, ascii "Message too short"⟩ := by
  rw [Incomplete, declaredLength] at h
  by_cases h₁ : b.length < HEADER_SIZE
  · rw [tryDecode, if_pos h₁]
  · rw [tryDecode, if_neg h₁]
    exact if_pos (by omega)

/-- **`Success` takes one frame off the front**: the buffer was the raw frame of
the message, followed by what is left. -/
theorem tryDecode_success {b : Bytes} (h : ¬ Incomplete b) (out : Message) (err : Bytes) :
    ∃ m r, tryDecode b out err = ⟨.success, r, m, err⟩ ∧ b = rawFrame m ++ r ∧
      m.body.length = declaredLength b := by
  have h₁ : ¬ b.length < HEADER_SIZE := fun h' => h (.inl h')
  have h₂ : ¬ b.length < (readUint32 b).toNat + HEADER_SIZE := fun h' =>
    h (.inr (by rw [declaredLength]; omega))
  rw [not_lt] at h₁ h₂
  have hlen : ((b.take (HEADER_SIZE + declaredLength b)).drop HEADER_SIZE).length =
      declaredLength b := by
    rw [List.length_drop, List.length_take, declaredLength]
    omega
  refine ⟨⟨readUint16 (b.drop 4), (b.take (HEADER_SIZE + declaredLength b)).drop HEADER_SIZE⟩,
    b.drop (HEADER_SIZE + declaredLength b), ?_, ?_, hlen⟩
  · rw [tryDecode, if_neg (by omega)]
    exact if_neg (by omega)
  · obtain ⟨a₀, a₁, a₂, a₃, a₄, a₅, rest, rfl⟩ := header_cases h₁
    rw [rawFrame, hlen]
    have hb : ((a₀ :: a₁ :: a₂ :: a₃ :: a₄ :: a₅ :: rest).drop 4) = a₄ :: a₅ :: rest := rfl
    rw [hb, header_eq, declaredLength, HEADER_SIZE, Nat.add_comm 6]
    simp

/-- The header of a raw frame declares the length of its body. -/
theorem declaredLength_rawFrame {m : Message} (hm : m.body.length < 2 ^ 32) (rest : Bytes) :
    declaredLength (rawFrame m ++ rest) = m.body.length := by
  rw [declaredLength, rawFrame, List.append_assoc, List.append_assoc, readUint32_append hm]

/-- Bytes that follow a header do not change what it declares. -/
theorem declaredLength_append {b : Bytes} (h : HEADER_SIZE ≤ b.length) (rest : Bytes) :
    declaredLength (b ++ rest) = declaredLength b := by
  obtain ⟨a₀, a₁, a₂, a₃, a₄, a₅, tail, rfl⟩ := header_cases h
  rfl

/-- **A raw frame is recognised whatever follows it.** -/
theorem tryDecode_rawFrame {m : Message} (hm : m.body.length < 2 ^ 32) (rest : Bytes)
    (out : Message) (err : Bytes) :
    tryDecode (rawFrame m ++ rest) out err = ⟨.success, rest, m, err⟩ := by
  have hlen := declaredLength_rawFrame hm rest
  have hid : readUint16 ((rawFrame m ++ rest).drop 4) = m.msgId := by
    rw [rawFrame, List.append_assoc, List.append_assoc,
      List.drop_left' (by rw [List.length_map, length_toBytes]), readUint16_append]
  have hfull : (rawFrame m ++ rest).length = HEADER_SIZE + m.body.length + rest.length := by
    rw [List.length_append, length_rawFrame]
  have hbody : (rawFrame m).drop HEADER_SIZE = m.body :=
    List.drop_left' (by simp [HEADER_SIZE])
  unfold declaredLength at hlen
  rw [tryDecode, if_neg (by omega), if_neg (by omega)]
  simp only [hlen, hid, ← length_rawFrame, List.take_left', List.drop_left', hbody]

/-- The frame at the front of a buffer, as a partial function. -/
def decode (b : Bytes) : Option (Message × Bytes) :=
  match tryDecode b {} [] with
  | ⟨.success, r, m, _⟩ => some (m, r)
  | _ => none

theorem decode_eq_none_iff {b : Bytes} : decode b = none ↔ Incomplete b := by
  by_cases h : Incomplete b
  · simp [decode, tryDecode_needMore h, h]
  · obtain ⟨m, r, hd, -⟩ := tryDecode_success h {} []
    simp [decode, hd, h]

theorem decode_eq_some_iff {b : Bytes} {m : Message} {r : Bytes} :
    decode b = some (m, r) ↔ b = rawFrame m ++ r ∧ m.body.length < 2 ^ 32 := by
  constructor
  · intro hd
    have h : ¬ Incomplete b := fun h => by
      rw [decode_eq_none_iff.2 h] at hd
      cases hd
    obtain ⟨m', r', hd', hb, hlen⟩ := tryDecode_success h {} []
    rw [decode, hd'] at hd
    obtain ⟨rfl, rfl⟩ := Prod.mk.inj (Option.some.inj hd)
    exact ⟨hb, hlen ▸ UInt32.toNat_lt _⟩
  · rintro ⟨rfl, hm⟩
    rw [decode, tryDecode_rawFrame hm]

/-- The codec as self-delimiting frames of at least a header each. -/
def codec : Framing Int8 Message where
  decode := decode
  raw := rawFrame
  minLen := HEADER_SIZE
  minLen_pos := by decide
  minLen_le m := by rw [length_rawFrame]; omega
  sound h := (decode_eq_some_iff.1 h).1
  complete h _ := decode_eq_some_iff.2 ⟨rfl, (decode_eq_some_iff.1 h).2⟩

/-- The frames are the raw frames of the messages whose length fits into the header. -/
theorem codec_framed_iff {m : Message} : codec.Framed m ↔ m.body.length < 2 ^ 32 :=
  ⟨fun h => (decode_eq_some_iff.1 (h [])).2, fun h _ => decode_eq_some_iff.2 ⟨rfl, h⟩⟩

theorem codec_framed {m : Message} (h : m.body.length ≤ MAX_BODY_SIZE) : codec.Framed m :=
  codec_framed_iff.2 (h.trans_lt (show MAX_BODY_SIZE < 2 ^ 32 by decide))

end MessageCodec
end GameServer
