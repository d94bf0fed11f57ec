/-
# Lobbies

People come into a lobby and may line up for a room.  Whoever makes the line long enough for a group
makes a room of it, which takes the group off the front of the line.  People leave, from the line
too, and may come back to the room they had; those who have been away for too long are forgotten,
and with them their places in the rooms.

`Lobby` is what there is to know about it, and `Lobby.Step` says what may happen.  It leaves open
who is forgotten when: `late` decides that of the time of the check and the time somebody left at.
`Sound` is the invariant.  Everybody is in one place: who lines up is present and has no room, a
room has only people who are present or away, and never more than a group.
-/

import Mathlib.Data.Set.Card
import GameServer.Lib.Transition

/-- Who is there, who is away since when, who waits in line, and who has which room. -/
@[ext]
structure Lobby (ι ρ τ : Type*) where
  present : Set ι := ∅
  away : ι → Option τ := fun _ => none
  line : List ι := []
  room : ι → Option ρ := fun _ => none

namespace Lobby

variable {ι ρ τ : Type*}

/-- Somebody who came and was not forgotten. -/
def Knows (L : Lobby ι ρ τ) (p : ι) : Prop := p ∈ L.present ∨ (L.away p).isSome

/-- `p` may line up. -/
structure Free (L : Lobby ι ρ τ) (p : ι) : Prop where
  present : p ∈ L.present
  line : p ∉ L.line
  room : L.room p = none

/-! ### What happens in a lobby -/

section Moves

variable [DecidableEq ι]

def enter (L : Lobby ι ρ τ) (p : ι) : Lobby ι ρ τ := { L with present := insert p L.present }

def wait (L : Lobby ι ρ τ) (p : ι) : Lobby ι ρ τ := { L with line := L.line ++ [p] }

/-- `p` completes a group of `size`, which gets the room `r`. -/
def gather (L : Lobby ι ρ τ) (size : ℕ) (p : ι) (r : ρ) : Lobby ι ρ τ := { L with
  line := (L.line ++ [p]).drop size
  room := fun q => if q ∈ (L.line ++ [p]).take size then some r else L.room q }

def leave (L : Lobby ι ρ τ) (p : ι) (now : τ) : Lobby ι ρ τ := { L with
  present := L.present \ {p}
  away := fun q => if q = p then some now else L.away q
  line := L.line.erase p }

def back (L : Lobby ι ρ τ) (p : ι) : Lobby ι ρ τ := { L with
  present := insert p L.present
  away := fun q => if q = p then none else L.away q }

/-- Those who left at a time that is too late are gone. -/
def forget (L : Lobby ι ρ τ) (late : τ → Bool) : Lobby ι ρ τ := { L with
  away := fun p => (L.away p).filter fun t => !late t
  room := fun p => if (L.away p).any late then none else L.room p }

end Moves

inductive Move (ι ρ τ : Type*)
  | enter (p : ι)
  | wait (p : ι)
  | gather (p : ι) (r : ρ)
  | leave (p : ι) (now : τ)
  | back (p : ι)
  | forget (now : τ)

/-- The moves of a lobby with groups of `size`. -/
inductive Step [DecidableEq ι] (size : ℕ) (late : τ → τ → Bool) :
    Lobby ι ρ τ → Move ι ρ τ → Lobby ι ρ τ → Prop
  | enter {L : Lobby ι ρ τ} {p : ι} (hp : ¬ L.Knows p) : Step size late L (.enter p) (L.enter p)
  | wait {L : Lobby ι ρ τ} {p : ι} (hp : L.Free p) (hfew : L.line.length + 1 < size) :
      Step size late L (.wait p) (L.wait p)
  | gather {L : Lobby ι ρ τ} {p : ι} {r : ρ} (hp : L.Free p) (hmany : size ≤ L.line.length + 1)
      (hr : ∀ q, L.room q ≠ some r) : Step size late L (.gather p r) (L.gather size p r)
  | leave {L : Lobby ι ρ τ} {p : ι} (now : τ) (hp : p ∈ L.present) :
      Step size late L (.leave p now) (L.leave p now)
  | back {L : Lobby ι ρ τ} {p : ι} (hp : (L.away p).isSome) : Step size late L (.back p) (L.back p)
  | forget (L : Lobby ι ρ τ) (now : τ) : Step size late L (.forget now) (L.forget (late now))

/-- Who is told what when a move makes a room: each of the group, its name and the group. -/
def told (size : ℕ) (L : Lobby ι ρ τ) : Move ι ρ τ → List (ι × ρ × List ι)
  | .gather p r =>
    ((L.line ++ [p]).take size).map fun q => (q, r, (L.line ++ [p]).take size)
  | _ => []

/-- The lobby that nobody has come to yet, and its moves. -/
def system (ι ρ τ : Type*) [DecidableEq ι] (size : ℕ) (late : τ → τ → Bool) :
    Transition.System (Lobby ι ρ τ) (Move ι ρ τ) where
  init := {}
  step := Step size late

/-! ### The invariant -/

/-- **Everybody is in one place.** -/
structure Sound (size : ℕ) (L : Lobby ι ρ τ) : Prop where
  nodup : L.line.Nodup
  waiting : ∀ p ∈ L.line, p ∈ L.present ∧ L.room p = none
  absent : ∀ p, (L.away p).isSome → p ∉ L.present
  seated : ∀ p, (L.room p).isSome → L.Knows p
  /-- A line that is long enough has become a room. -/
  short : L.line.length < size
  fits : ∀ r, {p | L.room p = some r}.encard ≤ size

namespace Sound

variable {size : ℕ} {late : τ → τ → Bool} {L L' : Lobby ι ρ τ}

theorem init (hsize : 0 < size) : Sound size ({} : Lobby ι ρ τ) where
  nodup := List.nodup_nil
  waiting p hp := absurd hp List.not_mem_nil
  absent p hp := by cases hp
  seated p hp := by cases hp
  short := hsize
  fits r := by simp

/-- The line with one more at its end. -/
theorem joined (h : L.Sound size) {p : ι} (hp : L.Free p) :
    (L.line ++ [p]).Nodup ∧ ∀ q ∈ L.line ++ [p], q ∈ L.present ∧ L.room q = none := by
  refine ⟨?_, fun q hq => ?_⟩
  · rw [← List.concat_eq_append]
    exact h.nodup.concat hp.line
  · rcases List.mem_append.1 hq with hq | hq
    · exact h.waiting q hq
    · rw [List.mem_singleton.1 hq]
      exact ⟨hp.present, hp.room⟩

theorem enter (h : L.Sound size) {p : ι} (hp : ¬ L.Knows p) : (L.enter p).Sound size where
  nodup := h.nodup
  waiting q hq := ⟨.inr (h.waiting q hq).1, (h.waiting q hq).2⟩
  absent q hq := by
    rintro (rfl | hmem)
    · exact hp (.inr hq)
    · exact h.absent q hq hmem
  seated q hq := (h.seated q hq).imp_left .inr
  short := h.short
  fits := h.fits

theorem wait (h : L.Sound size) {p : ι} (hp : L.Free p) (hfew : L.line.length + 1 < size) :
    (L.wait p).Sound size where
  nodup := (h.joined hp).1
  waiting := (h.joined hp).2
  absent := h.absent
  seated := h.seated
  short := by
    rw [Lobby.wait, List.length_append, List.length_singleton]
    exact hfew
  fits := h.fits

variable [DecidableEq ι]

/-- A room takes the group and nobody else. -/
theorem encard_gather_le {p : ι} {r : ρ} (hr : ∀ q, L.room q ≠ some r) :
    {q | (L.gather size p r).room q = some r}.encard ≤ size := by
  have hsub : {q | (L.gather size p r).room q = some r} ⊆
      ((L.line ++ [p]).take size).toFinset := fun q hq => by
    have hq : (if q ∈ (L.line ++ [p]).take size then some r else L.room q) = some r := hq
    split_ifs at hq with htake
    · exact List.mem_toFinset.2 htake
    · exact absurd hq (hr q)
  refine (Set.encard_le_encard hsub).trans ?_
  rw [Set.encard_coe_eq_coe_finsetCard]
  exact_mod_cast (List.toFinset_card_le _).trans (List.length_take_le ..)

theorem gather (h : L.Sound size) {p : ι} {r : ρ} (hp : L.Free p) (hr : ∀ q, L.room q ≠ some r) :
    (L.gather size p r).Sound size := by
  obtain ⟨hnodup, hwaiting⟩ := h.joined hp
  constructor
  case nodup => exact hnodup.sublist (List.drop_sublist ..)
  case waiting =>
    intro q hq
    obtain ⟨hpresent, hroom⟩ := hwaiting q (List.mem_of_mem_drop hq)
    refine ⟨hpresent, (if_neg fun htake => ?_).trans hroom⟩
    exact List.disjoint_take_drop hnodup le_rfl htake hq
  case absent => exact h.absent
  case seated =>
    intro q hq
    have hq : (if q ∈ (L.line ++ [p]).take size then some r else L.room q).isSome := hq
    split_ifs at hq with htake
    · exact .inl (hwaiting q (List.mem_of_mem_take htake)).1
    · exact h.seated q hq
  case short =>
    have hshort := h.short
    rw [Lobby.gather, List.length_drop, List.length_append, List.length_singleton]
    omega
  case fits =>
    intro r'
    by_cases hr' : r' = r
    · rw [hr']
      exact encard_gather_le hr
    · refine (Set.encard_le_encard fun q hq => ?_).trans (h.fits r')
      have hq : (if q ∈ (L.line ++ [p]).take size then some r else L.room q) = some r' := hq
      split_ifs at hq with htake
      · exact absurd (Option.some.inj hq).symm hr'
      · exact hq

theorem leave (h : L.Sound size) (p : ι) (now : τ) : (L.leave p now).Sound size where
  nodup := h.nodup.erase p
  waiting q hq := by
    obtain ⟨hne, hq⟩ := h.nodup.mem_erase_iff.1 hq
    exact ⟨⟨(h.waiting q hq).1, hne⟩, (h.waiting q hq).2⟩
  absent q hq hmem := by
    have hq : (if q = p then some now else L.away q).isSome := hq
    rw [if_neg (fun he : q = p => hmem.2 he)] at hq
    exact h.absent q hq hmem.1
  seated q hq := by
    show (q ∈ L.present \ {p}) ∨ (if q = p then some now else L.away q).isSome
    split_ifs with hqp
    · exact .inr rfl
    · exact (h.seated q hq).imp_left fun hpresent => ⟨hpresent, hqp⟩
  short := (List.length_erase_le ..).trans_lt h.short
  fits := h.fits

theorem back (h : L.Sound size) (p : ι) : (L.back p).Sound size where
  nodup := h.nodup
  waiting q hq := ⟨.inr (h.waiting q hq).1, (h.waiting q hq).2⟩
  absent q hq := by
    have hq : (if q = p then none else L.away q).isSome := hq
    split_ifs at hq with hqp
    · cases hq
    · rintro (hmem | hmem)
      · exact hqp hmem
      · exact h.absent q hq hmem
  seated q hq := by
    show q ∈ insert p L.present ∨ (if q = p then none else L.away q).isSome
    split_ifs with hqp
    · exact .inl (.inl hqp)
    · exact (h.seated q hq).imp_left .inr
  short := h.short
  fits := h.fits

omit [DecidableEq ι] in
theorem forget (h : L.Sound size) (late : τ → Bool) : (L.forget late).Sound size where
  nodup := h.nodup
  waiting q hq := by
    obtain ⟨hpresent, hroom⟩ := h.waiting q hq
    refine ⟨hpresent, ?_⟩
    show (if (L.away q).any late then none else L.room q) = none
    rw [hroom, ite_self]
  absent q hq := by
    obtain ⟨t, ht⟩ := Option.isSome_iff_exists.1 hq
    have haway : L.away q = some t := (Option.filter_eq_some_iff.1 ht).1
    exact h.absent q (by rw [haway]; rfl)
  seated q hq := by
    have hq : (if (L.away q).any late then none else L.room q).isSome := hq
    split_ifs at hq with hlate
    · cases hq
    · refine (h.seated q hq).imp_right fun haway => ?_
      show ((L.away q).filter fun t => !late t).isSome
      obtain ⟨t, ht⟩ := Option.isSome_iff_exists.1 haway
      rw [ht, Option.any_some, Bool.not_eq_true] at hlate
      rw [ht, Option.filter_some, hlate]
      rfl
  short := h.short
  fits r := by
    refine (Set.encard_le_encard fun q hq => ?_).trans (h.fits r)
    have hq : (if (L.away q).any late then none else L.room q) = some r := hq
    split_ifs at hq
    exact hq

/-- **The invariant is kept by every move.** -/
theorem step {m : Move ι ρ τ} (h : L.Sound size) (hs : Step size late L m L') : L'.Sound size := by
  cases hs with
  | enter hp => exact h.enter hp
  | wait hp hfew => exact h.wait hp hfew
  | gather hp _ hr => exact h.gather hp hr
  | leave now _ => exact h.leave _ now
  | back _ => exact h.back _
  | forget now => exact h.forget (late now)

theorem of_run (hsize : 0 < size) {tr : List (Lobby ι ρ τ × Move ι ρ τ)}
    (h : (system ι ρ τ size late).Run tr L) : L.Sound size := by
  induction h with
  | nil => exact .init hsize
  | cons _ hs ih => exact ih.step hs

end Sound
end Lobby
