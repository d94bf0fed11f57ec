/-
# Generated parsers and serialisers

`protoc` writes the same four functions for every message of `proto/message.proto`, with one
case for each field: `_InternalSerialize`, `_InternalParse`, `MergeImpl` and `Clear`.  Here they
are functions of a `Descriptor`, the list of the message's fields.

The loop of `_InternalParse` reads a tag, and the `switch` on its field number parses the
field if the low byte of the tag is the one it is written with; any other tag goes to
`handle_unusual`, which stops at 0 and at the end of a group and skips everything else as a
field that is not known (its bytes, which are kept for the next serialisation, are not
modelled).  After a null pointer, or a string that is not UTF-8, the parser fails, with the
fields read so far in the message.

The case of a repeated message has a loop of its own, which goes on with the next message
without reading a tag where the next byte is the tag (`ExpectTag`).
-/

import GameServer.Proto.Runtime

namespace GameServer

open Wire

/-- A value of `int64_t`. -/
def IsInt64 (x : ℤ) : Prop := -2 ^ 63 ≤ x ∧ x < 2 ^ 63

/-- A value of `int32_t`. -/
def IsInt32 (x : ℤ) : Prop := -2 ^ 31 ≤ x ∧ x < 2 ^ 31

instance (x : ℤ) : Decidable (IsInt64 x) := inferInstanceAs (Decidable (_ ∧ _))

instance (x : ℤ) : Decidable (IsInt32 x) := inferInstanceAs (Decidable (_ ∧ _))

/-- What a case of the `switch` does: it has parsed its field, up to a pointer or to a null
pointer, or it goes to `handle_unusual`. -/
inductive Case (M : Type)
  | parsed (m : M) (ptr : Option Bytes)
  | unusual

/-- A member of a message, read and set. -/
structure Member (M X : Type) where
  get : M → X
  set : M → X → M
  set_get : ∀ m, set m (get m) = m := by exact fun _ => rfl
  get_set : ∀ m x, get (set m x) = x := by exact fun _ _ => rfl
  set_set : ∀ m x y, set (set m x) y = set m y := by exact fun _ _ _ => rfl

/-- A field of a message: its number and the member it is kept in.  The field of a repeated
message has the parser and the serialiser of that message, and the contents that survive
them. -/
inductive Field (M : Type) : Type 1
  | int64 (number : ℕ) (x : Member M ℤ)
  | int32 (number : ℕ) (x : Member M ℤ)
  | string (number : ℕ) (x : Member M Bytes)
  | packedInt64 (number : ℕ) (x : Member M (List ℤ))
  | messages (number : ℕ) {N : Type} (parse : Runtime → Bytes → N × Bool) (write : N → Bytes)
      (Fits : N → Prop) (parse_write : ∀ R n, Fits n → parse R (write n) = (n, true))
      (x : Member M (List N))

/-- The bytes of an `int64_t` in a varint. -/
def uint64 (value : ℤ) : ℕ := (value % 2 ^ 64).toNat

namespace Field

variable {M : Type}

def number : Field M → ℕ
  | int64 n _ | int32 n _ | string n _ | packedInt64 n _ | messages n _ _ _ _ _ => n

def wireType : Field M → ℕ
  | int64 .. | int32 .. => WIRETYPE_VARINT
  | string .. | packedInt64 .. | messages .. => WIRETYPE_LENGTH_DELIMITED

/-! ### `_InternalSerialize` and `MergeImpl` -/

/-- The field as it is written: a field with its default value is left out. -/
def serialize (m : M) : Field M → Bytes
  | int64 number x | int32 number x => int64Field number (x.get m)
  | string number x => stringField number (x.get m)
  | packedInt64 number x =>
    if (x.get m).isEmpty then []
    else tag number WIRETYPE_LENGTH_DELIMITED ++ sized (pack ((x.get m).map uint64))
  | messages number _ write _ _ x =>
    ((x.get m).map fun n => tag number WIRETYPE_LENGTH_DELIMITED ++ sized (write n)).flatten

/-- What merging `source` into `target` does to the field. -/
def merge (source target : M) : Field M → M
  | int64 _ x | int32 _ x => if x.get source ≠ 0 then x.set target (x.get source) else target
  | string _ x => if (x.get source).isEmpty then target else x.set target (x.get source)
  | packedInt64 _ x => x.set target (x.get target ++ x.get source)
  | messages _ _ _ _ _ x => x.set target (x.get target ++ x.get source)

/-- The member has the value that is not written. -/
def IsDefault (m : M) : Field M → Prop
  | int64 _ x | int32 _ x => x.get m = 0
  | string _ x => x.get m = []
  | packedInt64 _ x => x.get m = []
  | messages _ _ _ _ _ x => x.get m = []

/-- Setting the member to what `source` has. -/
def copy (source target : M) : Field M → M
  | int64 _ x | int32 _ x => x.set target (x.get source)
  | string _ x => x.set target (x.get source)
  | packedInt64 _ x => x.set target (x.get source)
  | messages _ _ _ _ _ x => x.set target (x.get source)

/-- **Merging into a default member copies it**: what the source does not have is there already. -/
theorem merge_of_isDefault {source target : M} {f : Field M} (h : f.IsDefault target) :
    f.merge source target = f.copy source target := by
  cases f with
  | int64 number x | int32 number x =>
    have hzero : x.get target = 0 := h
    simp only [merge, copy]
    split_ifs with hsource
    · rfl
    · rw [not_not.1 hsource, ← hzero, x.set_get]
  | string number x =>
    have hnil : x.get target = [] := h
    simp only [merge, copy]
    split_ifs with hsource
    · rw [List.isEmpty_iff.1 hsource, ← hnil, x.set_get]
    · rfl
  | packedInt64 number x | messages number _ _ _ _ x =>
    have hnil : x.get target = [] := h
    simp only [merge, copy, hnil, List.nil_append]

/-- Each member is default when those before it are copied. -/
def AllDefault (source : M) : List (Field M) → M → Prop
  | [], _ => True
  | f :: fields, target => f.IsDefault target ∧ AllDefault source fields (f.copy source target)

theorem foldl_merge {source target : M} {fields : List (Field M)}
    (h : AllDefault source fields target) :
    fields.foldl (fun m f => f.merge source m) target =
      fields.foldl (fun m f => f.copy source m) target := by
  induction fields generalizing target with
  | nil => rfl
  | cons f fields ih =>
    obtain ⟨hf, hfields⟩ := h
    rw [List.foldl_cons, List.foldl_cons, merge_of_isDefault hf, ih hfields]

/-! ### The cases of `_InternalParse` -/

variable (R : Runtime)

/-- `ctx->ParseMessage`, with a message's own parser. -/
def parseMessage {N : Type} (parse : Runtime → Bytes → N × Bool) (ptr : Bytes) :
    N × Option Bytes :=
  let item := parse R (R.readMessage ptr).1
  (item.1, if item.2 then (R.readMessage ptr).2 else none)

/-- The `do`-loop of a repeated message, with at most so many turns after the first.  It goes
on where more input is there and its next byte is the tag `expected`. -/
def messagesLoop {N : Type} (parse : Runtime → Bytes → N × Bool) (expected : ℕ) :
    ℕ → List N → Bytes → List N × Option Bytes
  | 0, items, ptr => (items ++ [(parseMessage R parse ptr).1], (parseMessage R parse ptr).2)
  | turns + 1, items, ptr =>
    let item := parseMessage R parse ptr
    match item.2 with
    | some (c :: ptr) =>
      if [c] = varint expected then messagesLoop parse expected turns (items ++ [item.1]) ptr
      else (items ++ [item.1], item.2)
    | _ => (items ++ [item.1], item.2)

/-- The case of the field in the `switch`, for a tag with its number.  The loop of a repeated
message has at most `turns` of its input after the first turn. -/
def case (turns : Bytes → ℕ) (m : M) (tag : ℕ) (ptr : Bytes) : Field M → Case M
  | int64 number x =>
    if tag % 256 = 8 * number + WIRETYPE_VARINT then
      .parsed (x.set m (toInt64 (R.readVarint64 ptr).1)) (R.readVarint64 ptr).2
    else .unusual
  | int32 number x =>
    if tag % 256 = 8 * number + WIRETYPE_VARINT then
      .parsed (x.set m (toInt (R.readVarint32 ptr).1)) (R.readVarint32 ptr).2
    else .unusual
  | string number x =>
    if tag % 256 = 8 * number + WIRETYPE_LENGTH_DELIMITED then
      .parsed (x.set m (R.readString ptr).1)
        (if R.verifyUTF8 (R.readString ptr).1 then (R.readString ptr).2 else none)
    else .unusual
  | packedInt64 number x =>
    if tag % 256 = 8 * number + WIRETYPE_LENGTH_DELIMITED then
      .parsed (x.set m (x.get m ++ (R.readPacked ptr).1.map fun n : ℕ => toInt64 n)) (R.readPacked ptr).2
    else if tag % 256 = 8 * number + WIRETYPE_VARINT then
      .parsed (x.set m (x.get m ++ [toInt64 (R.readVarint64 ptr).1])) (R.readVarint64 ptr).2
    else .unusual
  | messages number parse _ _ _ x =>
    if tag % 256 = 8 * number + WIRETYPE_LENGTH_DELIMITED then
      let r := messagesLoop R parse (8 * number + WIRETYPE_LENGTH_DELIMITED) (turns ptr) (x.get m) ptr
      .parsed (x.set m r.1) r.2
    else .unusual

theorem parseMessage_le {N : Type} {parse : Runtime → Bytes → N × Bool} {ptr ptr' : Bytes}
    (h : (parseMessage R parse ptr).2 = some ptr') : ptr'.length ≤ ptr.length := by
  simp only [parseMessage] at h
  split_ifs at h
  exact R.readMessage_le (Prod.ext rfl h)

theorem messagesLoop_le {N : Type} {parse : Runtime → Bytes → N × Bool} {expected turns : ℕ}
    {items items' : List N} {ptr ptr' : Bytes}
    (h : messagesLoop R parse expected turns items ptr = (items', some ptr')) :
    ptr'.length ≤ ptr.length := by
  induction turns generalizing items ptr with
  | zero => exact parseMessage_le R (Prod.mk.inj h).2
  | succ turns ih =>
    rw [messagesLoop] at h
    split at h
    · rename_i c ptr₁ hitem
      have hle := parseMessage_le R hitem
      rw [List.length_cons] at hle
      split_ifs at h
      · exact (ih h).trans (by omega)
      · exact parseMessage_le R (Prod.mk.inj h).2
    · exact parseMessage_le R (Prod.mk.inj h).2

/-- A case moves the pointer forward. -/
theorem case_le {turns : Bytes → ℕ} {m m' : M} {tag : ℕ} {ptr ptr' : Bytes} {f : Field M}
    (h : f.case R turns m tag ptr = .parsed m' (some ptr')) : ptr'.length ≤ ptr.length := by
  cases f with
  | int64 number x =>
    simp only [case] at h
    split_ifs at h
    exact R.readVarint64_le (Prod.ext rfl (Case.parsed.inj h).2)
  | int32 number x =>
    simp only [case] at h
    split_ifs at h
    exact R.readVarint32_le (Prod.ext rfl (Case.parsed.inj h).2)
  | string number x =>
    simp only [case] at h
    split_ifs at h
    · exact R.readString_le (Prod.ext rfl (Case.parsed.inj h).2)
    · cases (Case.parsed.inj h).2
  | packedInt64 number x =>
    simp only [case] at h
    split_ifs at h
    · exact R.readPacked_le (Prod.ext rfl (Case.parsed.inj h).2)
    · exact R.readVarint64_le (Prod.ext rfl (Case.parsed.inj h).2)
  | messages number parse write Fits parse_write x =>
    simp only [case] at h
    split_ifs at h
    exact messagesLoop_le R (Prod.ext rfl (Case.parsed.inj h).2)

end Field

/-! ### What the fields of the wire format do -/

/-- A field with its size in front is a list of numbers. -/
def WireField.IsPacked : WireField → Prop
  | lengthDelimited _ bytes => ∃ values : List ℕ, (∀ n ∈ values, n < 2 ^ 64) ∧ bytes = pack values
  | _ => True

namespace Field

variable {M : Type} (R : Runtime)

/-- Is the field a packed one? -/
def isPacked : Field M → Bool
  | packedInt64 .. => true
  | _ => false

/-- What the case of the field does with a field of the wire format, unless its wire type is
another one. -/
def read (m : M) : Field M → WireField → Option (M × Bool)
  | int64 _ x, .varint _ value => some (x.set m (toInt64 value), true)
  | int32 _ x, .varint _ value => some (x.set m (toInt (value % 2 ^ 32 : ℕ)), true)
  | string _ x, .lengthDelimited _ bytes => some (x.set m bytes, R.verifyUTF8 bytes)
  | packedInt64 _ x, .varint _ value => some (x.set m (x.get m ++ [toInt64 value]), true)
  | packedInt64 _ x, .lengthDelimited _ bytes =>
    some (x.set m (x.get m ++ (R.readPacked (sized bytes)).1.map fun n : ℕ => toInt64 n), true)
  | messages _ parse _ _ _ x, .lengthDelimited _ bytes =>
    some (x.set m (x.get m ++ [(parse R bytes).1]), (parse R bytes).2)
  | _, _ => none

/-- **The case of a field does what `read` says**, whatever follows. -/
theorem case_encode {f : Field M} {w : WireField} (hnumber : f.number = w.number)
    (hlt : f.number < 16) (hw : w.WellFormed) (hpacked : f.isPacked = true → w.IsPacked) (m : M)
    (r : Bytes) :
    f.case R (fun _ => 0) m (8 * w.number + w.wireType) (w.payload ++ r) =
      match f.read R m w with
      | some x => .parsed x.1 (if x.2 then some r else none)
      | none => .unusual := by
  have hfits := hw.fits
  have hbyte : (8 * w.number + w.wireType) % 256 = 8 * f.number + w.wireType := by
    have := w.wireType_lt
    omega
  cases f with
  | int64 number x =>
    simp only [case, hbyte, Field.number, Nat.add_left_cancel_iff]
    cases w with
    | varint n value =>
      simp only [WireField.wireType, WireField.payload, read, if_true, R.readVarint64_varint hfits r]
    | _ => exact if_neg (by simp only [WireField.wireType]; decide)
  | int32 number x =>
    simp only [case, hbyte, Field.number, Nat.add_left_cancel_iff]
    cases w with
    | varint n value =>
      simp only [WireField.wireType, WireField.payload, read, if_true, R.readVarint32_varint hfits r]
    | _ => exact if_neg (by simp only [WireField.wireType]; decide)
  | string number x =>
    simp only [case, hbyte, Field.number, Nat.add_left_cancel_iff]
    cases w with
    | lengthDelimited n bytes =>
      simp only [WireField.wireType, WireField.payload, read, if_true, R.readString_sized hfits r]
    | _ => exact if_neg (by simp only [WireField.wireType]; decide)
  | packedInt64 number x =>
    simp only [case, hbyte, Field.number, Nat.add_left_cancel_iff]
    cases w with
    | lengthDelimited n bytes =>
      obtain ⟨values, hvalues, rfl⟩ := hpacked rfl
      have hnil := R.readPacked_pack hvalues hfits []
      rw [List.append_nil] at hnil
      simp only [WireField.wireType, WireField.payload, read, if_true,
        R.readPacked_pack hvalues hfits r, hnil]
    | varint n value =>
      rw [if_neg (by simp only [WireField.wireType]; decide)]
      simp only [WireField.wireType, WireField.payload, read, if_true, R.readVarint64_varint hfits r]
    | _ =>
      rw [if_neg (by simp only [WireField.wireType]; decide)]
      exact if_neg (by simp only [WireField.wireType]; decide)
  | messages number parse write Fits parse_write x =>
    simp only [case, hbyte, Field.number, Nat.add_left_cancel_iff]
    cases w with
    | lengthDelimited n bytes =>
      simp only [WireField.wireType, WireField.payload, read, if_true, messagesLoop, parseMessage,
        R.readMessage_sized hfits r]
    | _ => exact if_neg (by simp only [WireField.wireType]; decide)

/-! ### A field as it is written -/

/-- The fields of the wire format that the field is written as. -/
def wires (m : M) : Field M → List WireField
  | int64 number x | int32 number x =>
    if x.get m = 0 then [] else [.varint number (uint64 (x.get m))]
  | string number x => if (x.get m).isEmpty then [] else [.lengthDelimited number (x.get m)]
  | packedInt64 number x =>
    if (x.get m).isEmpty then [] else [.lengthDelimited number (pack ((x.get m).map uint64))]
  | messages number _ write _ _ x => (x.get m).map fun n => .lengthDelimited number (write n)

/-- The contents of the field are values of its type, and of a size that can be read. -/
def Fits (m : M) : Field M → Prop
  | int64 _ x => IsInt64 (x.get m)
  | int32 _ x => IsInt32 (x.get m)
  | string _ x => (x.get m).length < SIZE_LIMIT
  | packedInt64 _ x =>
    (∀ v ∈ x.get m, IsInt64 v) ∧ (pack ((x.get m).map uint64)).length < SIZE_LIMIT
  | messages _ _ write Fits _ x => ∀ n ∈ x.get m, Fits n ∧ (write n).length < SIZE_LIMIT

/-- The same without the sizes. -/
def InRange (m : M) : Field M → Prop
  | int64 _ x => IsInt64 (x.get m)
  | int32 _ x => IsInt32 (x.get m)
  | string .. => True
  | packedInt64 _ x => ∀ v ∈ x.get m, IsInt64 v
  | messages _ _ _ Fits _ x => ∀ n ∈ x.get m, Fits n

/-- What is written for the field passes `VerifyUTF8`. -/
def verified (m : M) : Field M → Bool
  | string _ x => (x.get m).isEmpty || R.verifyUTF8 (x.get m)
  | _ => true

theorem serialize_eq (m : M) (f : Field M) :
    f.serialize m = ((f.wires m).map WireField.encode).flatten := by
  cases f with
  | int64 number x | int32 number x =>
    simp only [serialize, wires, int64Field]
    split_ifs
    · rfl
    · exact (List.append_nil _).symm
  | string number x =>
    simp only [serialize, wires, stringField]
    split_ifs
    · rfl
    · rw [List.append_assoc]
      exact (List.append_nil _).symm
  | packedInt64 number x =>
    simp only [serialize, wires]
    split_ifs
    · rfl
    · exact (List.append_nil _).symm
  | messages number parse write Fits parse_write x =>
    simp only [serialize, wires, List.map_map]
    rfl

/-- What is written is at least as long as what it is written for. -/
theorem fits_of_length {m : M} {f : Field M} (h : f.InRange m)
    (hlen : (f.serialize m).length < SIZE_LIMIT) : f.Fits m := by
  cases f with
  | int64 number x => exact h
  | int32 number x => exact h
  | string number x =>
    show (x.get m).length < SIZE_LIMIT
    simp only [serialize, stringField] at hlen
    split_ifs at hlen with hnil
    · rw [List.isEmpty_iff.1 hnil]
      exact hlen
    · rw [List.length_append] at hlen
      omega
  | packedInt64 number x =>
    refine ⟨h, ?_⟩
    simp only [serialize] at hlen
    split_ifs at hlen with hnil
    · rw [List.isEmpty_iff.1 hnil]
      exact hlen
    · rw [sized, List.length_append, List.length_append] at hlen
      omega
  | messages number parse write Fits parse_write x =>
    intro n hn
    refine ⟨h n hn, lt_of_le_of_lt ?_ hlen⟩
    have hsub : tag number WIRETYPE_LENGTH_DELIMITED ++ sized (write n) <:+:
        ((x.get m).map fun n => tag number WIRETYPE_LENGTH_DELIMITED ++ sized (write n)).flatten :=
      List.infix_of_mem_flatten (List.mem_map_of_mem hn)
    refine le_trans ?_ hsub.length_le
    rw [sized, List.length_append, List.length_append]
    omega

theorem uint64_lt (x : ℤ) : uint64 x < 2 ^ 64 := by
  unfold uint64
  omega

theorem uint64_cast (x : ℤ) : (uint64 x : ℤ) = x % 2 ^ 64 :=
  Int.toNat_of_nonneg (Int.emod_nonneg x (by norm_num))

theorem bmod_of_isInt64 {x : ℤ} (h₀ : -2 ^ 63 ≤ x) (h₁ : x < 2 ^ 63) : x.bmod (2 ^ 64) = x :=
  Int.bmod_eq_of_le (by omega) (by omega)

theorem toInt64_uint64 {x : ℤ} (h : IsInt64 x) : toInt64 (uint64 x) = x := by
  have hbmod : (x % 2 ^ 64).bmod (2 ^ 64) = x.bmod (2 ^ 64) := Int.emod_bmod ..
  unfold toInt64
  rw [uint64_cast, hbmod, bmod_of_isInt64 h.1 h.2]

theorem toInt_uint64 {x : ℤ} (h : IsInt32 x) : toInt ((uint64 x % 2 ^ 32 : ℕ) : ℤ) = x := by
  have hmod : ((uint64 x % 2 ^ 32 : ℕ) : ℤ) = x % 2 ^ 32 := by
    have hcast := uint64_cast x
    omega
  calc toInt ((uint64 x % 2 ^ 32 : ℕ) : ℤ) = toInt (x % 2 ^ 32) := congrArg toInt hmod
    _ = toInt x := Int.emod_bmod ..
    _ = x := toInt_of_lt h.1 h.2

theorem map_toInt64_uint64 {xs : List ℤ} (h : ∀ x ∈ xs, IsInt64 x) :
    ((xs.map uint64).map fun n : ℕ => toInt64 n) = xs := by
  rw [List.map_map]
  refine (List.map_congr_left fun x hx => ?_).trans (List.map_id _)
  rw [Function.comp_apply, toInt64_uint64 (h x hx), id]

theorem number_wires {m : M} {f : Field M} : ∀ w ∈ f.wires m, w.number = f.number := by
  intro w hw
  cases f with
  | int64 number x | int32 number x | string number x
  | packedInt64 number x =>
    simp only [wires] at hw
    split_ifs at hw
    · exact absurd hw List.not_mem_nil
    · rw [List.mem_singleton.1 hw]
      rfl
  | messages number parse write Fits parse_write x =>
    obtain ⟨n, -, rfl⟩ := List.mem_map.1 hw
    rfl

/-- What is written for a field is of the wire format. -/
theorem wellFormed_wires {m : M} {f : Field M} (hpos : 0 < f.number) (hlt : f.number < 16)
    (hfits : f.Fits m) : ∀ w ∈ f.wires m, w.WellFormed ∧ (f.isPacked = true → w.IsPacked) := by
  intro w hw
  have hnumber := number_wires w hw
  refine ⟨⟨hnumber ▸ hpos, by omega, ?_⟩, ?_⟩
  · cases f with
    | int64 number x | int32 number x =>
      simp only [wires] at hw
      split_ifs at hw
      · exact absurd hw List.not_mem_nil
      · rw [List.mem_singleton.1 hw]
        exact uint64_lt _
    | string number x =>
      simp only [wires] at hw
      split_ifs at hw
      · exact absurd hw List.not_mem_nil
      · rw [List.mem_singleton.1 hw]
        exact hfits
    | packedInt64 number x =>
      simp only [wires] at hw
      split_ifs at hw
      · exact absurd hw List.not_mem_nil
      · rw [List.mem_singleton.1 hw]
        exact hfits.2
    | messages number parse write Fits parse_write x =>
      obtain ⟨n, hn, rfl⟩ := List.mem_map.1 hw
      exact (hfits n hn).2
  · intro hpacked
    cases f with
    | packedInt64 number x =>
      simp only [wires] at hw
      split_ifs at hw
      · exact absurd hw List.not_mem_nil
      · rw [List.mem_singleton.1 hw]
        refine ⟨_, fun n hn => ?_, rfl⟩
        obtain ⟨x, -, rfl⟩ := List.mem_map.1 hn
        exact uint64_lt x
    | _ => cases hpacked

/-- **Reading what is written for a field merges it.** -/
theorem applyAll_read {f : Field M} {source : M} (hfits : f.Fits source) (m : M) :
    Scanner.applyAll (fun w m => (f.read R m w).getD (m, true)) (f.wires source) m =
      (f.merge source m, f.verified R source) := by
  cases f with
  | int64 number x =>
    simp only [wires, merge, verified]
    by_cases h₀ : x.get source = 0
    · rw [if_pos h₀, if_neg (not_not.2 h₀)]
      rfl
    · rw [if_neg h₀, if_pos h₀]
      simp only [Scanner.applyAll_singleton, read, Option.getD_some, toInt64_uint64 hfits]
  | int32 number x =>
    simp only [wires, merge, verified]
    by_cases h₀ : x.get source = 0
    · rw [if_pos h₀, if_neg (not_not.2 h₀)]
      rfl
    · rw [if_neg h₀, if_pos h₀]
      simp only [Scanner.applyAll_singleton, read, Option.getD_some, toInt_uint64 hfits]
  | string number x =>
    simp only [wires, merge, verified]
    split_ifs with h₀
    · rw [h₀]
      rfl
    · simp only [Scanner.applyAll_singleton, read, Option.getD_some, Bool.eq_false_iff.2 h₀,
        Bool.false_or]
  | packedInt64 number x =>
    simp only [wires, merge, verified]
    split_ifs with h₀
    · rw [List.isEmpty_iff.1 h₀, List.append_nil, x.set_get]
      rfl
    · have hvalues : ∀ n ∈ (x.get source).map uint64, n < 2 ^ 64 := fun n hn => by
        obtain ⟨x, -, rfl⟩ := List.mem_map.1 hn
        exact uint64_lt x
      have hread := R.readPacked_pack hvalues hfits.2 []
      rw [List.append_nil] at hread
      simp only [Scanner.applyAll_singleton, read, Option.getD_some, hread,
        map_toInt64_uint64 hfits.1]
  | messages number parse write Fits parse_write x =>
    have hread : ∀ n (m : M), Fits n → ((messages number parse write Fits parse_write x).read R m
        (.lengthDelimited number (write n))).getD (m, true) = (x.set m (x.get m ++ [n]), true) :=
      fun n m hn => by simp only [read, Option.getD_some, parse_write R n hn]
    have hitems : ∀ n ∈ x.get source, Fits n := fun n hn => (hfits n hn).1
    simp only [wires, merge, verified]
    generalize x.get source = items at hitems
    induction items generalizing m with
    | nil =>
      rw [List.append_nil, x.set_get]
      rfl
    | cons n items ih =>
      rw [List.forall_mem_cons] at hitems
      rw [List.map_cons, Scanner.applyAll]
      simp only [hread n m hitems.1, if_true]
      rw [ih _ hitems.2, x.get_set, x.set_set, List.append_assoc, List.singleton_append]

end Field
end GameServer
