/-
# Reading records off the front of a list

A parser whose loop takes one record after the other from its input and stops at the end of
the input, or where a record makes it fail.  `Scanner.step` is the body of the loop: it
updates the state, and returns what is left of the input, or nothing if the parser fails;
what is left is shorter (`shrinks`), so the loop ends.  `Scanner.run` is the loop.

`Reads x f` says that the body takes the bytes `x` as one record with the effect `f`,
whatever follows them.  `run_append` is the rule for the loop: over the bytes of a list of
records it has their effects one after the other, up to the first that fails
(`applyAll`).  `run_induction` is the rule for an invariant of the state.
-/

import Mathlib.Data.List.Basic
import Mathlib.Tactic

/-- The body of a loop that takes records off its input. -/
structure Scanner (σ β : Type*) where
  step : σ → List β → σ × Option (List β)
  shrinks : ∀ {s s' : σ} {b r : List β}, step s b = (s', some r) → r.length < b.length

namespace Scanner

variable {σ β α : Type*} (K : Scanner σ β)

/-- At most `n` turns of the loop. -/
def turns : ℕ → σ → List β → σ × Bool
  | 0, s, b => (s, b.isEmpty)
  | n + 1, s, b =>
    if b.isEmpty then (s, true)
    else
      match K.step s b with
      | (s', none) => (s', false)
      | (s', some r) => turns n s' r

/-- The loop, and whether it came to the end of its input. -/
def run (s : σ) (b : List β) : σ × Bool := K.turns b.length s b

/-- What the body keeps, the loop keeps. -/
theorem run_induction {P : σ → Prop} (hstep : ∀ s b, P s → P (K.step s b).1) {s : σ} (h : P s)
    (b : List β) : P (K.run s b).1 := by
  unfold run
  generalize b.length = n
  induction n generalizing s b with
  | zero => exact h
  | succ n ih =>
    have hnext := hstep s b h
    rw [turns]
    split_ifs
    · exact h
    · split
      · rename_i s' heq
        rwa [heq] at hnext
      · rename_i s' r heq
        rw [heq] at hnext
        exact ih hnext r

/-- As many turns as there are elements are enough. -/
theorem turns_eq_run {n : ℕ} {b : List β} (h : b.length ≤ n) (s : σ) : K.turns n s b = K.run s b := by
  rw [run]
  induction hlen : b.length using Nat.strongRecOn generalizing n s b with
  | _ k ih =>
    subst hlen
    cases b with
    | nil => cases n <;> rfl
    | cons c b =>
      obtain ⟨n, rfl⟩ := Nat.exists_eq_succ_of_ne_zero (Nat.ne_of_gt (lt_of_lt_of_le (Nat.succ_pos _) h))
      rw [List.length_cons, Nat.succ_eq_add_one, Nat.add_le_add_iff_right] at h
      rw [List.length_cons, turns, turns]
      split_ifs
      · rfl
      · cases hstep : K.step s (c :: b) with
        | mk s' r =>
          cases r with
          | none => rfl
          | some r =>
            have hr : r.length ≤ b.length := Nat.le_of_lt_succ (K.shrinks hstep)
            exact (ih _ (K.shrinks hstep) (hr.trans h) s' rfl).trans
              (ih _ (K.shrinks hstep) hr s' rfl).symm

@[simp] theorem run_nil (s : σ) : K.run s [] = (s, true) := rfl

theorem run_of_some {s s' : σ} {b r : List β} (h : K.step s b = (s', some r)) :
    K.run s b = K.run s' r := by
  have hlt := K.shrinks h
  cases b with
  | nil => exact absurd hlt (Nat.not_lt_zero _)
  | cons c b =>
    rw [run, List.length_cons, turns, if_neg (by simp), h]
    exact K.turns_eq_run (Nat.le_of_lt_succ hlt) s'

theorem run_of_none {s s' : σ} {b : List β} (hb : b ≠ []) (h : K.step s b = (s', none)) :
    K.run s b = (s', false) := by
  cases b with
  | nil => exact absurd rfl hb
  | cons c b => rw [run, List.length_cons, turns, if_neg (by simp), h]

/-- The loop from the end of a turn on. -/
def resume (x : σ × Option (List β)) : σ × Bool :=
  match x.2 with
  | none => (x.1, false)
  | some r => K.run x.1 r

theorem run_eq_resume (s : σ) {b : List β} (hb : b ≠ []) : K.run s b = K.resume (K.step s b) := by
  cases h : K.step s b with
  | mk s' r =>
    cases r with
    | none => exact K.run_of_none hb h
    | some r => exact K.run_of_some h

/-- The bytes `x` are read as one record that does `f`, and fails where `f` says so. -/
def Reads (x : List β) (f : σ → σ × Bool) : Prop :=
  ∀ s r, K.step s (x ++ r) = ((f s).1, if (f s).2 then some r else none)

/-- The effects of a list of records, up to the first that fails. -/
def applyAll (f : α → σ → σ × Bool) : List α → σ → σ × Bool
  | [], s => (s, true)
  | a :: l, s => if (f a s).2 then applyAll f l (f a s).1 else ((f a s).1, false)

@[simp] theorem applyAll_singleton (f : α → σ → σ × Bool) (a : α) (s : σ) :
    applyAll f [a] s = f a s := by
  rw [applyAll]
  split_ifs with h
  · exact Prod.ext rfl h.symm
  · exact Prod.ext rfl (Bool.eq_false_iff.2 h).symm

theorem applyAll_congr {f g : α → σ → σ × Bool} {l : List α} (h : ∀ a ∈ l, ∀ s, f a s = g a s)
    (s : σ) : applyAll f l s = applyAll g l s := by
  induction l generalizing s with
  | nil => rfl
  | cons a l ih =>
    rw [List.forall_mem_cons] at h
    rw [applyAll, applyAll, h.1 s, ih h.2]

/-- Records none of which fails. -/
theorem applyAll_of_ok {f : α → σ → σ × Bool} {l : List α} (h : ∀ a ∈ l, ∀ s, (f a s).2 = true)
    (s : σ) : applyAll f l s = (l.foldl (fun s a => (f a s).1) s, true) := by
  induction l generalizing s with
  | nil => rfl
  | cons a l ih =>
    rw [List.forall_mem_cons] at h
    rw [applyAll, if_pos (h.1 s), ih h.2, List.foldl_cons]

theorem applyAll_append (f : α → σ → σ × Bool) (l l' : List α) (s : σ) :
    applyAll f (l ++ l') s =
      if (applyAll f l s).2 then applyAll f l' (applyAll f l s).1 else applyAll f l s := by
  induction l generalizing s with
  | nil => rfl
  | cons a l ih =>
    rw [List.cons_append, applyAll, applyAll]
    by_cases hs : (f a s).2 = true
    · rw [if_pos hs, if_pos hs, ih]
    · rw [if_neg hs, if_neg hs, if_neg Bool.false_ne_true]

/-- Records made of records. -/
theorem applyAll_flatMap {γ : Type*} (f : α → σ → σ × Bool) (g : γ → List α) (l : List γ) (s : σ) :
    applyAll f (l.flatMap g) s = applyAll (fun c s => applyAll f (g c) s) l s := by
  induction l generalizing s with
  | nil => rfl
  | cons c l ih =>
    rw [List.flatMap_cons, applyAll_append, applyAll]
    by_cases hok : (applyAll f (g c) s).2 = true
    · rw [if_pos hok, if_pos hok, ih]
    · rw [if_neg hok, if_neg hok]
      exact Prod.ext rfl (Bool.eq_false_iff.2 hok)

/-- **The loop over the bytes of records** has the effects of the records, and then goes on
with what follows them if none has failed. -/
theorem run_append {x : α → List β} {f : α → σ → σ × Bool} {l : List α}
    (hx : ∀ a ∈ l, x a ≠ []) (h : ∀ a ∈ l, K.Reads (x a) (f a)) (s : σ) (r : List β) :
    K.run s ((l.map x).flatten ++ r) =
      if (applyAll f l s).2 then K.run (applyAll f l s).1 r else applyAll f l s := by
  induction l generalizing s with
  | nil => rfl
  | cons a l ih =>
    rw [List.forall_mem_cons] at hx h
    have hstep := h.1 s ((l.map x).flatten ++ r)
    rw [List.map_cons, List.flatten_cons, List.append_assoc, applyAll]
    by_cases hok : (f a s).2 = true
    · rw [if_pos hok] at hstep ⊢
      rw [K.run_of_some hstep, ih hx.2 h.2]
    · rw [if_neg hok] at hstep ⊢
      rw [if_neg Bool.false_ne_true]
      exact K.run_of_none (List.append_ne_nil_of_left_ne_nil hx.1 _) hstep

/-- The whole input is the bytes of records. -/
theorem run_records {x : α → List β} {f : α → σ → σ × Bool} {l : List α}
    (hx : ∀ a ∈ l, x a ≠ []) (h : ∀ a ∈ l, K.Reads (x a) (f a)) (s : σ) :
    K.run s (l.map x).flatten = applyAll f l s := by
  have hrun := K.run_append hx h s []
  rw [List.append_nil, run_nil] at hrun
  rw [hrun]
  split_ifs with hall
  · rw [← hall]
  · rfl

end Scanner
