/-
# The protobuf library

`generated/proto/message.pb.cc` is written against protobuf 3.21, which is not part of the
repository.  `Runtime` has the functions it parses with.  Each is given the rest of the input
(`ptr`) and returns what it read and the rest after it, or no rest for a null pointer; what it
has read when it returns a null pointer is left open.  The laws are the documented wire
format: a tag is a varint of the field number and the wire type, a `string`, a packed field and
a message have their size in front, a field that is not known is skipped according to its wire
type, and ASCII characters are UTF-8.

`Runtime.reference` is one such library, so that the laws can be met.
-/

import GameServer.Lib.Scanner
import GameServer.Proto.Wire

namespace GameServer

/-- The wire types a field that is not known is skipped by. -/
inductive WireField
  | varint (number value : ℕ)
  | fixed64 (number : ℕ) (bytes : Bytes)
  | lengthDelimited (number : ℕ) (bytes : Bytes)
  | fixed32 (number : ℕ) (bytes : Bytes)
  deriving DecidableEq

namespace Wire

open Varint

def WIRETYPE_FIXED64 : ℕ := 1
def WIRETYPE_FIXED32 : ℕ := 5
def WIRETYPE_END_GROUP : ℕ := 4

/-- A size that is accepted is at most `INT_MAX` less the 16 slop bytes of a buffer. -/
def SIZE_LIMIT : ℕ := 2 ^ 31 - 16

/-- Bytes with their number in front. -/
def sized (bytes : Bytes) : Bytes := varint bytes.length ++ bytes

/-- The payload of a packed field. -/
def pack (values : List ℕ) : Bytes := (values.map varint).flatten

theorem varint_ne_nil (n : ℕ) : varint n ≠ [] := by
  have hpos := length_toVarint_pos n
  intro h
  rw [varint, List.map_eq_nil_iff] at h
  rw [h] at hpos
  exact absurd hpos (Nat.lt_irrefl 0)

end Wire

namespace WireField

open Wire

def number : WireField → ℕ
  | varint n _ | fixed64 n _ | lengthDelimited n _ | fixed32 n _ => n

def wireType : WireField → ℕ
  | varint .. => WIRETYPE_VARINT
  | fixed64 .. => WIRETYPE_FIXED64
  | lengthDelimited .. => WIRETYPE_LENGTH_DELIMITED
  | fixed32 .. => WIRETYPE_FIXED32

/-- What follows the tag. -/
def payload : WireField → Bytes
  | varint _ value => Wire.varint value
  | fixed64 _ bytes => bytes
  | lengthDelimited _ bytes => sized bytes
  | fixed32 _ bytes => bytes

def encode (w : WireField) : Bytes := tag w.number w.wireType ++ w.payload

/-- The value or the size is one that the wire type has. -/
def Fits : WireField → Prop
  | varint _ value => value < 2 ^ 64
  | fixed64 _ bytes => bytes.length = 8
  | lengthDelimited _ bytes => bytes.length < SIZE_LIMIT
  | fixed32 _ bytes => bytes.length = 4

/-- A field of the wire format. -/
structure WellFormed (w : WireField) : Prop where
  number_pos : 0 < w.number
  number_lt : w.number < 2 ^ 29
  fits : w.Fits

instance : (w : WireField) → Decidable w.Fits
  | varint _ value => inferInstanceAs (Decidable (value < 2 ^ 64))
  | fixed64 _ bytes => inferInstanceAs (Decidable (bytes.length = 8))
  | lengthDelimited _ bytes => inferInstanceAs (Decidable (bytes.length < SIZE_LIMIT))
  | fixed32 _ bytes => inferInstanceAs (Decidable (bytes.length = 4))

instance (w : WireField) : Decidable w.WellFormed :=
  decidable_of_iff (0 < w.number ∧ w.number < 2 ^ 29 ∧ w.Fits)
    ⟨fun h => ⟨h.1, h.2.1, h.2.2⟩, fun h => ⟨h.1, h.2, h.3⟩⟩

theorem encode_ne_nil (w : WireField) : w.encode ≠ [] :=
  List.append_ne_nil_of_left_ne_nil (varint_ne_nil _) _

theorem wireType_lt (w : WireField) : w.wireType < 8 := by
  cases w <;> simp only [wireType, WIRETYPE_VARINT, WIRETYPE_FIXED64, WIRETYPE_LENGTH_DELIMITED,
    WIRETYPE_FIXED32] <;> omega

theorem wireType_ne_endGroup (w : WireField) : w.wireType ≠ WIRETYPE_END_GROUP := by
  cases w <;> simp only [wireType, WIRETYPE_VARINT, WIRETYPE_FIXED64, WIRETYPE_LENGTH_DELIMITED,
    WIRETYPE_FIXED32, WIRETYPE_END_GROUP] <;> omega

end WireField

open Wire

/-- The functions of the library that the messages are parsed with. -/
structure Runtime where
  /-- `ReadTag`. -/
  readTag : Bytes → Option (ℕ × Bytes)
  /-- `ReadVarint64`. -/
  readVarint64 : Bytes → ℕ × Option Bytes
  /-- `ReadVarint32`. -/
  readVarint32 : Bytes → ℕ × Option Bytes
  /-- `InlineGreedyStringParser`. -/
  readString : Bytes → Bytes × Option Bytes
  /-- `PackedInt64Parser`. -/
  readPacked : Bytes → List ℕ × Option Bytes
  /-- The bytes that `ParseContext::ParseMessage` hands to the message's own parser. -/
  readMessage : Bytes → Bytes × Option Bytes
  /-- `UnknownFieldParse`. -/
  unknownFieldParse : ℕ → Bytes → Option Bytes
  /-- `VerifyUTF8`. -/
  verifyUTF8 : Bytes → Bool
  readTag_tag : ∀ {n : ℕ}, n < 2 ^ 32 → ∀ r, readTag (varint n ++ r) = some (n, r)
  readVarint64_varint : ∀ {n : ℕ}, n < 2 ^ 64 → ∀ r, readVarint64 (varint n ++ r) = (n, some r)
  readVarint32_varint : ∀ {n : ℕ}, n < 2 ^ 64 → ∀ r,
    readVarint32 (varint n ++ r) = (n % 2 ^ 32, some r)
  readString_sized : ∀ {s : Bytes}, s.length < SIZE_LIMIT → ∀ r,
    readString (sized s ++ r) = (s, some r)
  readPacked_pack : ∀ {values : List ℕ}, (∀ n ∈ values, n < 2 ^ 64) →
    (pack values).length < SIZE_LIMIT → ∀ r, readPacked (sized (pack values) ++ r) = (values, some r)
  readMessage_sized : ∀ {s : Bytes}, s.length < SIZE_LIMIT → ∀ r,
    readMessage (sized s ++ r) = (s, some r)
  unknownFieldParse_payload : ∀ {w : WireField}, w.WellFormed → ∀ r,
    unknownFieldParse (8 * w.number + w.wireType) (w.payload ++ r) = some r
  verifyUTF8_ascii : ∀ {s : Bytes}, (∀ c ∈ s, 0 ≤ c) → verifyUTF8 s = true
  /-- Reading moves the pointer forward. -/
  readTag_lt : ∀ {b r n}, readTag b = some (n, r) → r.length < b.length
  readVarint64_le : ∀ {b r n}, readVarint64 b = (n, some r) → r.length ≤ b.length
  readVarint32_le : ∀ {b r n}, readVarint32 b = (n, some r) → r.length ≤ b.length
  readString_le : ∀ {b r s}, readString b = (s, some r) → r.length ≤ b.length
  readPacked_le : ∀ {b r values}, readPacked b = (values, some r) → r.length ≤ b.length
  readMessage_le : ∀ {b r s}, readMessage b = (s, some r) → r.length ≤ b.length
  unknownFieldParse_le : ∀ {n b r}, unknownFieldParse n b = some r → r.length ≤ b.length

/-! ### A library that meets the laws -/

namespace Wire

open Varint

/-- A number of at most `k` bytes. -/
def readNumber (k : ℕ) (b : Bytes) : Option (ℕ × Bytes) :=
  (ofVarint k (b.map Int8.toUInt8)).map fun r => (r.1, r.2.map UInt8.toInt8)

/-- Bytes with their number in front. -/
def readSized (b : Bytes) : Option (Bytes × Bytes) :=
  match readNumber 5 b with
  | some (n, r) => if n < SIZE_LIMIT ∧ n ≤ r.length then some (r.take n, r.drop n) else none
  | none => none

/-- The numbers of a packed field. -/
def unpacker : Scanner (List ℕ) Int8 where
  step values b :=
    match readNumber 10 b with
    | some (n, r) => (values ++ [n], some r)
    | none => (values, none)
  shrinks {values values' b r} h := by
    split at h
    · rename_i n r' hn
      obtain ⟨x, hx, heq⟩ := Option.map_eq_some_iff.1 hn
      obtain ⟨-, rfl⟩ := Prod.mk.inj heq
      have hlt := length_of_ofVarint hx
      obtain rfl : List.map UInt8.toInt8 x.2 = r := Option.some.inj (Prod.mk.inj h).2
      rwa [List.length_map] at hlt ⊢
    · cases (Prod.mk.inj h).2

theorem map_toInt8_toUInt8 (b : Bytes) : (b.map Int8.toUInt8).map UInt8.toInt8 = b := by
  rw [List.map_map]
  exact List.map_id'' Int8.toInt8_toUInt8 b

theorem readNumber_varint {k n : ℕ} (h : n < 128 ^ (k + 1)) (r : Bytes) :
    readNumber (k + 1) (varint n ++ r) = some (n, r) := by
  have hmap : (varint n).map Int8.toUInt8 = toVarint n := by
    rw [varint, List.map_map]
    exact List.map_id'' UInt8.toUInt8_toInt8 _
  rw [readNumber, List.map_append, hmap, ofVarint_toVarint h, Option.map_some, map_toInt8_toUInt8]

theorem length_of_readNumber {k n : ℕ} {b r : Bytes} (h : readNumber k b = some (n, r)) :
    r.length < b.length := by
  obtain ⟨x, hx, heq⟩ := Option.map_eq_some_iff.1 h
  obtain ⟨-, rfl⟩ := Prod.mk.inj heq
  have hlt := length_of_ofVarint hx
  rwa [List.length_map] at hlt ⊢

theorem readSized_sized {s : Bytes} (h : s.length < SIZE_LIMIT) (r : Bytes) :
    readSized (sized s ++ r) = some (s, r) := by
  have hlen : s.length < 128 ^ (4 + 1) := h.trans (by decide)
  rw [readSized, sized, List.append_assoc, readNumber_varint hlen]
  dsimp only
  rw [if_pos ⟨h, by rw [List.length_append]; omega⟩, List.take_left, List.drop_left]

theorem length_of_readSized {b s r : Bytes} (h : readSized b = some (s, r)) :
    r.length ≤ b.length := by
  rw [readSized] at h
  split at h
  · rename_i n r' hn
    have hlt := length_of_readNumber hn
    split_ifs at h
    obtain ⟨-, rfl⟩ := Prod.mk.inj (Option.some.inj h)
    rw [List.length_drop]
    omega
  · cases h

theorem run_unpacker {values : List ℕ} (h : ∀ n ∈ values, n < 2 ^ 64) :
    unpacker.run [] (pack values) = (values, true) := by
  have hreads : ∀ n ∈ values, unpacker.Reads (varint n) fun values => (values ++ [n], true) :=
    fun n hn s r => by
      simp only [unpacker, readNumber_varint (k := 9) ((h n hn).trans (by decide)), if_true]
  have hfold : ∀ l : List ℕ, values.foldl (fun s a => s ++ [a]) l = l ++ values := by
    clear h hreads
    induction values with
    | nil => simp
    | cons n values ih => simp [ih]
  rw [pack, unpacker.run_records (fun n _ => varint_ne_nil n) hreads,
    Scanner.applyAll_of_ok fun _ _ _ => rfl, hfold, List.nil_append]

end Wire

namespace Runtime

/-- What was read and the rest, or nothing. -/
def ofOption {α : Type} (default : α) : Option (α × Bytes) → α × Option Bytes
  | some (a, r) => (a, some r)
  | none => (default, none)

theorem ofOption_eq_some {α : Type} {d a : α} {x : Option (α × Bytes)} {r : Bytes}
    (h : ofOption d x = (a, some r)) : x = some (a, r) := by
  cases x with
  | none => cases h
  | some x =>
    obtain ⟨rfl, hr⟩ := Prod.mk.inj h
    obtain rfl := Option.some.inj hr
    rfl

/-- The numbers of a packed field and the rest. -/
def unpackSized (b : Bytes) : Option (List ℕ × Bytes) :=
  (readSized b).bind fun x => if (unpacker.run [] x.1).2 then some ((unpacker.run [] x.1).1, x.2)
    else none

/-- Skip the payload of a wire type. -/
def skipPayload (b : Bytes) : ℕ → Option Bytes
  | 0 => (readNumber 10 b).map Prod.snd
  | 1 => if 8 ≤ b.length then some (b.drop 8) else none
  | 2 => (readSized b).map Prod.snd
  | 5 => if 4 ≤ b.length then some (b.drop 4) else none
  | _ => none

def skip (tag : ℕ) (b : Bytes) : Option Bytes := skipPayload b (tag % 8)

theorem skip_payload {w : WireField} (h : w.WellFormed) (r : Bytes) :
    skip (8 * w.number + w.wireType) (w.payload ++ r) = some r := by
  have hmod : (8 * w.number + w.wireType) % 8 = w.wireType := by
    have := w.wireType_lt
    omega
  have hfits := h.fits
  rw [skip, hmod]
  cases w with
  | varint n value =>
    show (readNumber 10 (Wire.varint value ++ r)).map Prod.snd = some r
    rw [readNumber_varint (k := 9) (lt_trans hfits (by decide)), Option.map_some]
  | fixed64 n bytes =>
    have hbytes : bytes.length = 8 := hfits
    show (if 8 ≤ (bytes ++ r).length then some ((bytes ++ r).drop 8) else none) = some r
    rw [if_pos (by rw [List.length_append]; omega), List.drop_left' hbytes]
  | lengthDelimited n bytes =>
    show (readSized (sized bytes ++ r)).map Prod.snd = some r
    rw [readSized_sized hfits, Option.map_some]
  | fixed32 n bytes =>
    have hbytes : bytes.length = 4 := hfits
    show (if 4 ≤ (bytes ++ r).length then some ((bytes ++ r).drop 4) else none) = some r
    rw [if_pos (by rw [List.length_append]; omega), List.drop_left' hbytes]

theorem skip_le {tag : ℕ} {b r : Bytes} (h : skip tag b = some r) : r.length ≤ b.length := by
  unfold skip skipPayload at h
  split at h
  · obtain ⟨x, hx, rfl⟩ := Option.map_eq_some_iff.1 h
    exact (length_of_readNumber hx).le
  · split_ifs at h
    rw [← Option.some.inj h, List.length_drop]
    omega
  · obtain ⟨x, hx, rfl⟩ := Option.map_eq_some_iff.1 h
    exact length_of_readSized hx
  · split_ifs at h
    rw [← Option.some.inj h, List.length_drop]
    omega
  · cases h

theorem readNumber_le {d k n : ℕ} {b r : Bytes}
    (h : ofOption d (readNumber k b) = (n, some r)) : r.length ≤ b.length :=
  (length_of_readNumber (ofOption_eq_some h)).le

theorem readSized_le {d b r s : Bytes} (h : ofOption d (readSized b) = (s, some r)) :
    r.length ≤ b.length := length_of_readSized (ofOption_eq_some h)

theorem unpackSized_pack {values : List ℕ} (h : ∀ n ∈ values, n < 2 ^ 64)
    (hlen : (pack values).length < SIZE_LIMIT) (r : Bytes) :
    ofOption [] (unpackSized (sized (pack values) ++ r)) = (values, some r) := by
  rw [unpackSized, readSized_sized hlen, Option.bind_some, run_unpacker h, if_pos rfl]
  rfl

theorem unpackSized_le {d values : List ℕ} {b r : Bytes}
    (h : ofOption d (unpackSized b) = (values, some r)) : r.length ≤ b.length := by
  obtain ⟨x, hx, heq⟩ := Option.bind_eq_some_iff.1 (ofOption_eq_some h)
  split_ifs at heq
  obtain ⟨-, rfl⟩ := Prod.mk.inj (Option.some.inj heq)
  exact length_of_readSized hx

theorem readVarint32_le' {d n : ℕ} {b r : Bytes}
    (h : ofOption d ((readNumber 10 b).map fun x => (x.1 % 2 ^ 32, x.2)) = (n, some r)) :
    r.length ≤ b.length := by
  obtain ⟨x, hx, heq⟩ := Option.map_eq_some_iff.1 (ofOption_eq_some h)
  obtain ⟨-, rfl⟩ := Prod.mk.inj heq
  exact (length_of_readNumber hx).le

theorem readTag_varint {n : ℕ} (h : n < 2 ^ 32) (r : Bytes) :
    readNumber 5 (varint n ++ r) = some (n, r) :=
  readNumber_varint (k := 4) (h.trans (by decide)) r

theorem readVarint_varint {n : ℕ} (h : n < 2 ^ 64) (r : Bytes) :
    ofOption 0 (readNumber 10 (varint n ++ r)) = (n, some r) := by
  rw [readNumber_varint (k := 9) (h.trans (by decide))]
  rfl

theorem readVarint32_varint' {n : ℕ} (h : n < 2 ^ 64) (r : Bytes) :
    ofOption 0 ((readNumber 10 (varint n ++ r)).map fun x => (x.1 % 2 ^ 32, x.2)) =
      (n % 2 ^ 32, some r) := by
  rw [readNumber_varint (k := 9) (h.trans (by decide))]
  rfl

theorem readString_sized' {s : Bytes} (h : s.length < SIZE_LIMIT) (r : Bytes) :
    ofOption [] (readSized (sized s ++ r)) = (s, some r) := by
  rw [readSized_sized h]
  rfl

theorem all_ascii {s : Bytes} (h : ∀ c ∈ s, 0 ≤ c) : (s.all fun c => 0 ≤ c) = true :=
  List.all_eq_true.2 fun c hc => decide_eq_true (h c hc)

/-- A library that reads the wire format, and verifies strings of ASCII characters alone. -/
def reference : Runtime where
  readTag := readNumber 5
  readVarint64 b := ofOption 0 (readNumber 10 b)
  readVarint32 b := ofOption 0 ((readNumber 10 b).map fun x => (x.1 % 2 ^ 32, x.2))
  readString b := ofOption [] (readSized b)
  readPacked b := ofOption [] (unpackSized b)
  readMessage b := ofOption [] (readSized b)
  unknownFieldParse := skip
  verifyUTF8 s := s.all fun c => 0 ≤ c
  readTag_tag := readTag_varint
  readVarint64_varint := readVarint_varint
  readVarint32_varint := readVarint32_varint'
  readString_sized := readString_sized'
  readPacked_pack := unpackSized_pack
  readMessage_sized := readString_sized'
  unknownFieldParse_payload := skip_payload
  verifyUTF8_ascii := all_ascii
  readTag_lt := length_of_readNumber
  readVarint64_le := readNumber_le
  readVarint32_le := readVarint32_le'
  readString_le := readSized_le
  readPacked_le := unpackSized_le
  readMessage_le := readSized_le
  unknownFieldParse_le := skip_le

end Runtime
end GameServer
