/-
# First-in first-out queues that account for what joins

The purpose of a queue is said of what joined it and not of its contents: everything that joins
either waits or has been taken, once, and what waits is in the order in which it joined.  `Fifo`
is a queue with this history.  An entry is a value with the number of values that joined before
it, so that the same value may join again and again and each time is an entry of its own.  The
fields `accounted` and `ordered` say the two things, and every operation has to give proofs of
them: a queue that loses an entry, or takes it twice, or reorders what waits, cannot be built.

`leave` takes the first entry that waits with a given value, `pop` the first `k` entries if
there are as many.  What the contents of the queue become, for an implementation that keeps
nothing else, are the equations `contents_join`, `contents_leave` and `contents_pop`.
-/

import Mathlib.Data.List.Basic
import Mathlib.Tactic

/-- A queue with everything that ever joined it. -/
structure Fifo (α : Type*) where
  /-- The values that joined, the first one first. -/
  joined : List α
  /-- The entries that wait, the one to be served next first. -/
  waiting : List (α × ℕ)
  /-- The entries that were taken out. -/
  taken : List (α × ℕ)
  accounted : (waiting ++ taken).Perm joined.zipIdx
  ordered : waiting.Pairwise fun x y => x.2 < y.2

namespace Fifo

variable {α : Type*}

/-- What a loop that erases the first match takes out. -/
theorem eraseP_append_find?_perm (p : α → Bool) (l : List α) :
    (l.eraseP p ++ (l.find? p).toList).Perm l := by
  induction l with
  | nil => exact .refl _
  | cons a l ih =>
    cases ha : p a with
    | true =>
      rw [List.eraseP_cons_of_pos ha, List.find?_cons_of_pos ha]
      exact List.perm_append_comm
    | false =>
      have ha : ¬ p a = true := by simp [ha]
      rw [List.eraseP_cons_of_neg ha, List.find?_cons_of_neg ha]
      exact ih.cons a

/-- Whatever waits joined before the queue had its present length. -/
theorem lt_of_mem_waiting (f : Fifo α) {x : α × ℕ} (hx : x ∈ f.waiting) :
    x.2 < f.joined.length := by
  have hmem : x ∈ f.joined.zipIdx := f.accounted.subset (List.mem_append_left _ hx)
  simpa using (List.mem_zipIdx (x := x.1) (i := x.2) hmem).2.1

/-- The queue that nothing has joined. -/
def empty : Fifo α where
  joined := []
  waiting := []
  taken := []
  accounted := .refl _
  ordered := .nil

def join (f : Fifo α) (x : α) : Fifo α where
  joined := f.joined ++ [x]
  waiting := f.waiting ++ [(x, f.joined.length)]
  taken := f.taken
  accounted := by
    have hnew : (f.joined ++ [x]).zipIdx = f.joined.zipIdx ++ [(x, f.joined.length)] := by
      rw [List.zipIdx_append, List.zipIdx_singleton, Nat.zero_add]
    rw [hnew, List.append_assoc]
    refine .trans ?_ (f.accounted.append_right _)
    rw [List.append_assoc]
    exact .append_left _ List.perm_append_comm
  ordered := List.pairwise_append.2 ⟨f.ordered, List.pairwise_singleton _ _, fun x hx y hy => by
    rw [List.mem_singleton.1 hy]
    exact f.lt_of_mem_waiting hx⟩

def leave [DecidableEq α] (f : Fifo α) (x : α) : Fifo α where
  joined := f.joined
  waiting := f.waiting.eraseP fun y => y.1 = x
  taken := (f.waiting.find? fun y => y.1 = x).toList ++ f.taken
  accounted := by
    rw [← List.append_assoc]
    exact ((eraseP_append_find?_perm _ _).append_right _).trans f.accounted
  ordered := f.ordered.sublist List.eraseP_sublist

def pop (f : Fifo α) (k : ℕ) : Fifo α where
  joined := f.joined
  waiting := if k ≤ f.waiting.length then f.waiting.drop k else f.waiting
  taken := (if k ≤ f.waiting.length then f.waiting.take k else []) ++ f.taken
  accounted := by
    split_ifs
    · refine .trans ?_ f.accounted
      rw [← List.append_assoc]
      refine .append_right _ (List.perm_append_comm.trans ?_)
      rw [List.take_append_drop]
    · exact f.accounted
  ordered := by
    split_ifs
    · exact f.ordered.sublist (List.drop_sublist _ _)
    · exact f.ordered

/-- The values that wait. -/
def contents (f : Fifo α) : List α := f.waiting.map Prod.fst

@[simp] theorem contents_join (f : Fifo α) (x : α) : (f.join x).contents = f.contents ++ [x] := by
  simp [contents, join]

@[simp] theorem contents_leave [DecidableEq α] (f : Fifo α) (x : α) :
    (f.leave x).contents = f.contents.erase x := by
  have herase : ∀ l : List (α × ℕ),
      (l.eraseP fun y => y.1 = x).map Prod.fst = (l.map Prod.fst).erase x := fun l => by
    induction l with
    | nil => rfl
    | cons y l ih =>
      by_cases hy : y.1 = x
      · rw [List.eraseP_cons_of_pos (by simpa using hy), List.map_cons, hy, List.erase_cons_head]
      · rw [List.eraseP_cons_of_neg (by simpa using hy), List.map_cons, List.map_cons, ih,
          List.erase_cons_tail (by simpa using hy)]
  exact herase f.waiting

@[simp] theorem contents_pop (f : Fifo α) (k : ℕ) :
    (f.pop k).contents = if k ≤ f.contents.length then f.contents.drop k else f.contents := by
  unfold contents pop
  rw [List.length_map]
  split_ifs
  · exact List.map_drop
  · rfl

/-- What a leave takes: the value, if it waits. -/
theorem taken_leave [DecidableEq α] (f : Fifo α) (x : α) : (f.leave x).taken.map Prod.fst =
    (if x ∈ f.contents then [x] else []) ++ f.taken.map Prod.fst := by
  unfold contents leave
  rw [List.map_append]
  congr 1
  cases hfind : f.waiting.find? fun y => y.1 = x with
  | none =>
    rw [List.find?_eq_none] at hfind
    have hx : x ∉ f.waiting.map Prod.fst := fun hx => by
      obtain ⟨y, hy, rfl⟩ := List.mem_map.1 hx
      exact hfind y hy (by simp)
    rw [if_neg hx]
    rfl
  | some y =>
    have hy : y.1 = x := by simpa using List.find?_some hfind
    have hx : x ∈ f.waiting.map Prod.fst :=
      List.mem_map.2 ⟨y, List.mem_of_find?_eq_some hfind, hy⟩
    rw [if_pos hx, ← hy]
    rfl

/-- What a pop takes: the first `k` entries, if there are as many. -/
theorem taken_pop (f : Fifo α) (k : ℕ) : (f.pop k).taken.map Prod.fst =
    (if k ≤ f.contents.length then f.contents.take k else []) ++ f.taken.map Prod.fst := by
  unfold contents pop
  rw [List.length_map, List.map_append]
  split_ifs
  · rw [List.map_take]
  · rfl

end Fifo
