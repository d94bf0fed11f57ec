/-
# Parsing a message

`SerializeToString` and `ParseFromString` of a message, from the cases of its fields.  The
loop of `_InternalParse` is a `Scanner`, whose records are the fields of the wire format.

`parse_wires` says what the loop does with any fields one after the other: a field the message
has and of the type it has sets or extends the member, any other is skipped, and the first
string that is not UTF-8 ends it.  `parse_serialize` says the same of what was serialised: it
is merged, field by field.  The loop in the case of a repeated message changes nothing:
`run_turns`.
-/

import GameServer.Proto.Descriptor

namespace GameServer

open Wire

/-- A message: its contents after `Clear`, and its fields in the order of their numbers. -/
structure Descriptor (M : Type) where
  default : M
  fields : List (Field M)

namespace Descriptor

variable {M : Type} (d : Descriptor M)

/-- `_InternalSerialize`. -/
def serialize (m : M) : Bytes := (d.fields.map (Field.serialize m)).flatten

/-- `MergeImpl`. -/
def mergeFrom (target source : M) : M :=
  d.fields.foldl (fun target f => f.merge source target) target

variable (R : Runtime)

/-- The `switch` on the field number. -/
def switch (turns : Bytes → ℕ) (m : M) (tag : ℕ) (ptr : Bytes) : Case M :=
  match d.fields.find? fun f => f.number = tag / 8 with
  | some f => f.case R turns m tag ptr
  | none => .unusual

/-- The body of the loop of `_InternalParse`. -/
def parseField (turns : Bytes → ℕ) (m : M) (ptr : Bytes) : M × Option Bytes :=
  match R.readTag ptr with
  | none => (m, none)
  | some (tag, ptr) =>
    match d.switch R turns m tag ptr with
    | .parsed m' ptr' => (m', ptr')
    | .unusual =>
      if tag = 0 ∨ tag % 8 = WIRETYPE_END_GROUP then (m, none)
      else (m, R.unknownFieldParse tag ptr)

theorem switch_le {turns : Bytes → ℕ} {m m' : M} {tag : ℕ} {ptr ptr' : Bytes}
    (h : d.switch R turns m tag ptr = .parsed m' (some ptr')) : ptr'.length ≤ ptr.length := by
  unfold switch at h
  split at h
  · exact Field.case_le R h
  · cases h

theorem parseField_lt {turns : Bytes → ℕ} {m m' : M} {ptr ptr' : Bytes}
    (h : d.parseField R turns m ptr = (m', some ptr')) : ptr'.length < ptr.length := by
  unfold parseField at h
  split at h
  · cases h
  · rename_i tag ptr₁ htag
    have hlt := R.readTag_lt htag
    split at h
    · rename_i m₁ ptr₂ hcase
      obtain ⟨-, rfl⟩ := Prod.mk.inj h
      exact lt_of_le_of_lt (d.switch_le R hcase) hlt
    · split_ifs at h
      · cases h
      · exact lt_of_le_of_lt (R.unknownFieldParse_le (Prod.mk.inj h).2) hlt

/-- The loop of `_InternalParse`. -/
def internalParse (turns : Bytes → ℕ) : Scanner M Int8 where
  step := d.parseField R turns
  shrinks := d.parseField_lt R

/-- `MergeFromString`: the fields are read into the message as it is. -/
def mergeFromString (m : M) (body : Bytes) : M × Bool :=
  (d.internalParse R List.length).run m body

/-- `ParseFromString`: the message after it, and what it returns. -/
def parseFromString (body : Bytes) : M × Bool := d.mergeFromString R d.default body

/-- What every case keeps, the parser keeps. -/
theorem parse_induction {P : M → Prop} (hcase : ∀ f ∈ d.fields, ∀ {turns m tag ptr m' ptr'},
    P m → f.case R turns m tag ptr = .parsed m' ptr' → P m') (h : P d.default) (body : Bytes) :
    P (d.parseFromString R body).1 := by
  refine (d.internalParse R List.length).run_induction (fun m ptr hm => ?_) h body
  simp only [internalParse, parseField]
  split
  · exact hm
  · rename_i tag ptr₁ _
    split
    · rename_i m' ptr₂ hswitch
      unfold switch at hswitch
      split at hswitch
      · rename_i f hf
        exact hcase f (List.mem_of_find?_eq_some hf) hm hswitch
      · cases hswitch
    · split_ifs <;> exact hm

/-! ### The loop of a repeated message -/

/-- The field numbers differ and take one byte with the wire type, and to merge a message into
an empty one is to copy it. -/
structure WellFormed : Prop where
  nodup : (d.fields.map Field.number).Nodup
  number_pos : ∀ f ∈ d.fields, 0 < f.number
  number_lt : ∀ f ∈ d.fields, f.number < 16
  merge_default : ∀ m, d.mergeFrom d.default m = m

variable {d}

/-- The field with a number is found. -/
theorem WellFormed.find (hd : d.WellFormed) {f : Field M} (hf : f ∈ d.fields) :
    d.fields.find? (fun g => g.number = f.number) = some f := by
  have hnodup := hd.nodup
  clear hd
  generalize d.fields = fields at hf hnodup
  induction fields with
  | nil => exact absurd hf List.not_mem_nil
  | cons g fields ih =>
    rw [List.map_cons, List.nodup_cons] at hnodup
    rw [List.find?_cons]
    rcases List.mem_cons.1 hf with rfl | hf
    · rw [decide_eq_true rfl]
    · have hne : ¬ g.number = f.number := fun he => hnodup.1 (he ▸ List.mem_map_of_mem hf)
      rw [decide_eq_false hne]
      exact ih hf hnodup.2

/-- One turn of the `do`-loop after the other is one turn of the outer loop after the other. -/
theorem WellFormed.resume_messagesLoop (hd : d.WellFormed) {number : ℕ} {N : Type}
    {parse : Runtime → Bytes → N × Bool} {write : N → Bytes} {Fits : N → Prop}
    {parse_write : ∀ R n, Fits n → parse R (write n) = (n, true)} {x : Member M (List N)}
    (hf : .messages number parse write Fits parse_write x ∈ d.fields) (turns : ℕ) (m : M)
    (items : List N) (ptr : Bytes) :
    (d.internalParse R fun _ => 0).resume
        (x.set m (Field.messagesLoop R parse (8 * number + WIRETYPE_LENGTH_DELIMITED) turns items
          ptr).1,
          (Field.messagesLoop R parse (8 * number + WIRETYPE_LENGTH_DELIMITED) turns items ptr).2) =
      (d.internalParse R fun _ => 0).resume
        (x.set m (items ++ [(Field.parseMessage R parse ptr).1]),
          (Field.parseMessage R parse ptr).2) := by
  induction turns generalizing items ptr with
  | zero => rfl
  | succ turns ih =>
    rw [Field.messagesLoop]
    split
    · rename_i c ptr' hitem
      split_ifs with hc
      · have hlt : number < 16 := hd.number_lt _ hf
        have htag : 8 * number + WIRETYPE_LENGTH_DELIMITED < 2 ^ 32 := by
          unfold WIRETYPE_LENGTH_DELIMITED
          omega
        have hdiv : (8 * number + WIRETYPE_LENGTH_DELIMITED) / 8 = number := by
          unfold WIRETYPE_LENGTH_DELIMITED
          omega
        have hmod : (8 * number + WIRETYPE_LENGTH_DELIMITED) % 256 =
            8 * number + WIRETYPE_LENGTH_DELIMITED := by
          unfold WIRETYPE_LENGTH_DELIMITED
          omega
        have hread : R.readTag (c :: ptr') = some (8 * number + WIRETYPE_LENGTH_DELIMITED, ptr') := by
          have h := R.readTag_tag htag ptr'
          rwa [← hc] at h
        have hfind : d.fields.find? (fun g => g.number = number) =
            some (.messages number parse write Fits parse_write x) := hd.find hf
        have hstep : (d.internalParse R fun _ => 0).step
            (x.set m (items ++ [(Field.parseMessage R parse ptr).1])) (c :: ptr') =
            (x.set m (items ++ [(Field.parseMessage R parse ptr).1] ++
              [(Field.parseMessage R parse ptr').1]), (Field.parseMessage R parse ptr').2) := by
          simp only [internalParse, parseField, hread, switch, hdiv, hfind, Field.case, hmod, if_true,
            Field.messagesLoop, x.get_set, x.set_set]
        have hrun := (d.internalParse R fun _ => 0).run_eq_resume
          (x.set m (items ++ [(Field.parseMessage R parse ptr).1])) (List.cons_ne_nil c ptr')
        rw [ih, ← hstep, ← hrun, Scanner.resume, hitem]
      · rfl
    · rfl

/-- **The loop of a repeated message changes nothing:** the parser does the same without it,
taking one message at a time. -/
theorem WellFormed.run_turns (hd : d.WellFormed) (turns : Bytes → ℕ) (m : M) (body : Bytes) :
    (d.internalParse R turns).run m body = (d.internalParse R fun _ => 0).run m body := by
  induction hn : body.length using Nat.strongRecOn generalizing m body with
  | _ n ih =>
    subst hn
    by_cases hbody : body = []
    · rw [hbody]
      rfl
    · have hresume : (d.internalParse R turns).resume ((d.internalParse R turns).step m body) =
          (d.internalParse R fun _ => 0).resume ((d.internalParse R turns).step m body) := by
        unfold Scanner.resume
        cases hstep : (d.internalParse R turns).step m body with
        | mk m' ptr =>
          cases ptr with
          | none => rfl
          | some ptr => exact ih _ ((d.internalParse R turns).shrinks hstep) m' ptr rfl
      rw [Scanner.run_eq_resume _ _ hbody, Scanner.run_eq_resume _ _ hbody, hresume]
      -- The bodies of the loops differ in the case of a repeated message alone.
      simp only [internalParse, parseField]
      cases R.readTag body with
      | none => rfl
      | some x =>
        dsimp only
        simp only [switch]
        cases hfind : d.fields.find? (fun f => f.number = x.1 / 8) with
        | none => rfl
        | some f =>
          have hf := List.mem_of_find?_eq_some hfind
          cases f with
          | messages number parse write Fits parse_write member =>
            simp only [Field.case]
            by_cases htag : x.1 % 256 = 8 * number + WIRETYPE_LENGTH_DELIMITED
            · simp only [if_pos htag]
              exact hd.resume_messagesLoop R hf _ m _ _
            · simp only [if_neg htag]
          | _ => rfl

/-! ### What is read -/

variable (d) in
/-- What a field of the wire format does to a message.  A field that the message does not have,
or has with another type, is skipped. -/
def readField (w : WireField) (m : M) : M × Bool :=
  match d.fields.find? fun f => f.number = w.number with
  | some f => (f.read R m w).getD (m, true)
  | none => (m, true)

variable (d) in
/-- The field is one that the packed fields of the message can be read from. -/
def Readable (w : WireField) : Prop :=
  w.WellFormed ∧ ∀ f ∈ d.fields, f.isPacked = true → f.number = w.number → w.IsPacked

theorem WellFormed.reads (hd : d.WellFormed) {w : WireField} (hw : d.Readable w) :
    (d.internalParse R fun _ => 0).Reads w.encode (d.readField R w) := by
  intro m r
  have hpos := hw.1.number_pos
  have hlt := hw.1.number_lt
  have htype := w.wireType_lt
  have htag : R.readTag (w.encode ++ r) = some (8 * w.number + w.wireType, w.payload ++ r) := by
    rw [WireField.encode, tag, List.append_assoc]
    exact R.readTag_tag (by omega) _
  have hdiv : (8 * w.number + w.wireType) / 8 = w.number := by omega
  have hmod : (8 * w.number + w.wireType) % 8 = w.wireType := by omega
  have hstop : ¬ (8 * w.number + w.wireType = 0 ∨
      (8 * w.number + w.wireType) % 8 = WIRETYPE_END_GROUP) := by
    rintro (h | h)
    · omega
    · exact w.wireType_ne_endGroup (hmod ▸ h)
  have hskip : R.unknownFieldParse (8 * w.number + w.wireType) (w.payload ++ r) = some r :=
    R.unknownFieldParse_payload hw.1 r
  simp only [internalParse, parseField, htag, switch, hdiv, readField]
  rcases Option.eq_none_or_eq_some (d.fields.find? fun f => f.number = w.number) with
    hfind | ⟨f, hfind⟩
  · simp only [hfind, if_neg hstop, hskip, if_true]
  · have hf := List.mem_of_find?_eq_some hfind
    have hdec := List.find?_some hfind
    have hnumber : f.number = w.number := of_decide_eq_true hdec
    have hcase := Field.case_encode R hnumber (hd.number_lt f hf) hw.1
      (fun hp => hw.2 f hf hp hnumber) m r
    rcases Option.eq_none_or_eq_some (f.read R m w) with hread | ⟨x, hread⟩
    · simp only [hread] at hcase
      simp only [hfind, hcase, hread, if_neg hstop, hskip, Option.getD_none, if_true]
    · simp only [hread] at hcase
      simp only [hfind, hcase, hread, Option.getD_some]

/-- **Fields of the wire format, one after the other**, are read one after the other, up to the
first that fails. -/
theorem WellFormed.parse_wires (hd : d.WellFormed) {ws : List WireField}
    (hws : ∀ w ∈ ws, d.Readable w) (m : M) (r : Bytes) :
    d.mergeFromString R m ((ws.map WireField.encode).flatten ++ r) =
      if (Scanner.applyAll (d.readField R) ws m).2 then
        d.mergeFromString R (Scanner.applyAll (d.readField R) ws m).1 r
      else Scanner.applyAll (d.readField R) ws m := by
  simp only [mergeFromString, hd.run_turns]
  exact Scanner.run_append _ (fun w _ => w.encode_ne_nil) (fun w hw => hd.reads R (hws w hw)) m r

/-! ### What is written -/

variable (d) in
/-- The contents of the fields are values of their types, and of a size that can be read. -/
def Fits (m : M) : Prop := ∀ f ∈ d.fields, f.Fits m

theorem fits_of_length {m : M} (h : ∀ f ∈ d.fields, f.InRange m)
    (hlen : (d.serialize m).length < SIZE_LIMIT) : d.Fits m := by
  intro f hf
  refine Field.fits_of_length (h f hf) (lt_of_le_of_lt ?_ hlen)
  exact (List.infix_of_mem_flatten (List.mem_map_of_mem hf)).length_le

theorem serialize_eq (m : M) :
    d.serialize m = ((d.fields.flatMap (Field.wires m)).map WireField.encode).flatten := by
  rw [serialize, List.map_flatMap, List.flatMap_def, List.flatten_flatten, List.map_map]
  exact congrArg List.flatten (List.map_congr_left fun f _ => f.serialize_eq m)

theorem WellFormed.readable (hd : d.WellFormed) {m : M} (hm : d.Fits m) :
    ∀ w ∈ d.fields.flatMap (Field.wires m), d.Readable w := by
  intro w hw
  obtain ⟨f, hf, hw⟩ := List.mem_flatMap.1 hw
  obtain ⟨hwf, hpacked⟩ := Field.wellFormed_wires (hd.number_pos f hf) (hd.number_lt f hf) (hm f hf) w hw
  refine ⟨hwf, fun g hg hp hnumber => ?_⟩
  have hfind := hd.find hg
  rw [hnumber, Field.number_wires w hw, hd.find hf] at hfind
  exact hpacked (Option.some.inj hfind ▸ hp)

/-- The fields written for one message are read by merging the message, field by field. -/
theorem WellFormed.applyAll_wires (hd : d.WellFormed) {source : M} (hm : d.Fits source) (m : M) :
    Scanner.applyAll (d.readField R) (d.fields.flatMap (Field.wires source)) m =
      Scanner.applyAll (fun f m => (f.merge source m, f.verified R source)) d.fields m := by
  rw [Scanner.applyAll_flatMap]
  refine Scanner.applyAll_congr (fun f hf m => ?_) m
  have hread : ∀ w ∈ f.wires source, ∀ m, d.readField R w m = (f.read R m w).getD (m, true) := by
    intro w hw m
    rw [readField, Field.number_wires w hw, hd.find hf]
  rw [Scanner.applyAll_congr hread, Field.applyAll_read R (hm f hf)]

/-- **What was serialised is merged**, up to the first string that is not UTF-8. -/
theorem WellFormed.mergeFromString_serialize (hd : d.WellFormed) {source : M} (hm : d.Fits source) (m : M) :
    d.mergeFromString R m (d.serialize source) =
      Scanner.applyAll (fun f m => (f.merge source m, f.verified R source)) d.fields m := by
  have hparse := hd.parse_wires R (hd.readable hm) m []
  rw [List.append_nil, ← serialize_eq, hd.applyAll_wires R hm] at hparse
  rw [hparse]
  split_ifs with hok
  · exact Prod.ext rfl hok.symm
  · rfl

/-- All strings of the message are UTF-8. -/
theorem WellFormed.merge_serialize (hd : d.WellFormed) {source : M} (hm : d.Fits source)
    (hutf8 : ∀ f ∈ d.fields, f.verified R source = true) (m : M) (r : Bytes) :
    d.mergeFromString R m (d.serialize source ++ r) =
      d.mergeFromString R (d.mergeFrom m source) r := by
  have hall := Scanner.applyAll_of_ok (f := fun f m => (f.merge source m, f.verified R source))
    (fun f hf _ => hutf8 f hf) m
  rw [serialize_eq, hd.parse_wires R (hd.readable hm), hd.applyAll_wires R hm, hall, if_pos rfl]
  rfl

/-- **Round trip.** -/
theorem WellFormed.parseFromString_serialize (hd : d.WellFormed) {m : M} (hm : d.Fits m)
    (hutf8 : ∀ f ∈ d.fields, f.verified R m = true) :
    d.parseFromString R (d.serialize m) = (m, true) := by
  have hmerge := hd.merge_serialize R hm hutf8 d.default []
  rw [List.append_nil, hd.merge_default] at hmerge
  exact hmerge

/-- **The contents arrive** also when the last string is not UTF-8. -/
theorem WellFormed.contents_serialize (hd : d.WellFormed) {m : M} (hm : d.Fits m)
    (hutf8 : ∀ f ∈ d.fields.dropLast, f.verified R m = true) :
    (d.parseFromString R (d.serialize m)).1 = m := by
  have hinit := Scanner.applyAll_of_ok (f := fun f m' => (f.merge m m', f.verified R m))
    (fun f hf _ => hutf8 f hf) d.default
  have hfields := d.fields.dropLast_append_getLast?
  rw [parseFromString, hd.mergeFromString_serialize R hm]
  cases hlast : d.fields.getLast? with
  | none =>
    rw [List.getLast?_eq_none_iff] at hlast
    have hcopy := hd.merge_default m
    rw [mergeFrom, hlast, List.foldl_nil] at hcopy
    rw [hlast]
    exact hcopy
  | some f =>
    have heq := hfields f hlast
    have hcopy := hd.merge_default m
    rw [mergeFrom, ← heq, List.foldl_append, List.foldl_cons, List.foldl_nil] at hcopy
    rw [← heq, Scanner.applyAll_append, hinit, if_pos rfl, Scanner.applyAll_singleton]
    exact hcopy

end Descriptor
end GameServer
