/-
# Hash tables as finite maps

A `std::unordered_map` is a finite map together with an iteration order that
the standard leaves open.  `Table κ α` is the finite map alone, Mathlib's
`Finmap`: two tables are equal when every lookup agrees, so nothing proved about
a table can depend on the order its keys were inserted in.  Where a program
walks a table, the order it meets is a list `Enumerates` says is admissible, and
a statement about the walk quantifies over those lists.

The operations are those of the C++ container: `Finmap.insert` is
`insert_or_assign`, `Finmap.erase` is `erase`, `insertNew` is `insert`, which
keeps a value that is already there, and `modify` is assignment through a
reference to a value that is; `filter` is a loop that erases entries by their contents.
Each has one lookup equation (`lookup_insert'`, `lookup_erase'`, `lookup_insertNew`,
`lookup_modify`, `lookup_filter`), and these are the only facts about them that proofs use.
-/

import Mathlib.Data.Finmap
import Mathlib.Tactic

variable {κ α : Type*} [DecidableEq κ]

/-- A finite map from `κ` to `α`, with no order on its entries. -/
abbrev Table (κ α : Type*) := Finmap fun _ : κ => α

namespace Table

/-- `insert`: the value is stored only where the key is absent. -/
def insertNew (t : Table κ α) (k : κ) (a : α) : Table κ α := if k ∈ t then t else t.insert k a

/-- `t[k] = f(t[k])` where `k` is present, and nothing where it is absent. -/
def modify (t : Table κ α) (k : κ) (f : α → α) : Table κ α :=
  match t.lookup k with
  | some a => t.insert k (f a)
  | none => t

/-- `order` is an order in which an iteration may meet the keys of `t`. -/
def Enumerates (t : Table κ α) (order : List κ) : Prop := order.Nodup ∧ order.toFinset = t.keys

instance (t : Table κ α) (order : List κ) : Decidable (t.Enumerates order) :=
  inferInstanceAs (Decidable (_ ∧ _))

theorem lookup_insert' (t : Table κ α) (k k' : κ) (a : α) :
    (t.insert k a).lookup k' = if k' = k then some a else t.lookup k' := by
  split_ifs with h
  · rw [h, Finmap.lookup_insert]
  · rw [Finmap.lookup_insert_of_ne _ h]

theorem lookup_erase' (t : Table κ α) (k k' : κ) :
    (t.erase k).lookup k' = if k' = k then none else t.lookup k' := by
  split_ifs with h
  · rw [h, Finmap.lookup_erase]
  · rw [Finmap.lookup_erase_ne h]

theorem mem_iff_isSome (t : Table κ α) (k : κ) : k ∈ t ↔ (t.lookup k).isSome :=
  Finmap.lookup_isSome.symm

theorem not_mem_iff (t : Table κ α) (k : κ) : k ∉ t ↔ t.lookup k = none :=
  Finmap.lookup_eq_none.symm

theorem lookup_insertNew (t : Table κ α) (k k' : κ) (a : α) :
    (t.insertNew k a).lookup k' =
      if k' = k then some ((t.lookup k).getD a) else t.lookup k' := by
  unfold insertNew
  split_ifs with hk hk' hk'
  · obtain ⟨b, hb⟩ := Finmap.mem_iff.1 hk
    rw [hk', hb, Option.getD_some]
  · rfl
  · rw [hk', Finmap.lookup_insert, (not_mem_iff t k).1 hk, Option.getD_none]
  · rw [Finmap.lookup_insert_of_ne _ hk']

theorem lookup_modify (t : Table κ α) (k k' : κ) (f : α → α) :
    (t.modify k f).lookup k' = if k' = k then (t.lookup k).map f else t.lookup k' := by
  unfold modify
  cases h : t.lookup k with
  | none =>
    split_ifs with hk
    · rw [hk, h, Option.map_none]
    · rfl
  | some a => rw [lookup_insert']; rfl

@[simp] theorem mem_insertNew (t : Table κ α) (k k' : κ) (a : α) :
    k' ∈ t.insertNew k a ↔ k' = k ∨ k' ∈ t := by
  rw [mem_iff_isSome, lookup_insertNew, mem_iff_isSome]
  split_ifs with h <;> simp [h]

@[simp] theorem mem_modify (t : Table κ α) (k k' : κ) (f : α → α) :
    k' ∈ t.modify k f ↔ k' ∈ t := by
  rw [mem_iff_isSome, lookup_modify, mem_iff_isSome]
  split_ifs with h
  · rw [h, Option.isSome_map]
  · rfl

theorem Enumerates.mem_iff {t : Table κ α} {order : List κ} (h : t.Enumerates order) (k : κ) :
    k ∈ order ↔ k ∈ t := by
  rw [← List.mem_toFinset, h.2, Finmap.mem_keys]

/-- Storing under every key of a list, a key that is present keeping its value. -/
def insertNewAll (t : Table κ α) (ks : List κ) (f : κ → α) : Table κ α :=
  ks.foldl (fun t k => t.insertNew k (f k)) t

theorem lookup_insertNewAll (t : Table κ α) (ks : List κ) (f : κ → α) (k : κ) :
    (t.insertNewAll ks f).lookup k =
      if k ∈ ks then some ((t.lookup k).getD (f k)) else t.lookup k := by
  unfold insertNewAll
  induction ks generalizing t with
  | nil => simp
  | cons k₀ ks ih =>
    rw [List.foldl_cons, ih, lookup_insertNew]
    by_cases h₀ : k = k₀
    · subst h₀
      simp
    · simp [h₀]

@[simp] theorem mem_insertNewAll (t : Table κ α) (ks : List κ) (f : κ → α) (k : κ) :
    k ∈ t.insertNewAll ks f ↔ k ∈ ks ∨ k ∈ t := by
  rw [mem_iff_isSome, lookup_insertNewAll, mem_iff_isSome]
  split_ifs with h <;> simp [h]

omit [DecidableEq κ] in
theorem nodupKeys_filter (t : Table κ α) (P : (Σ _ : κ, α) → Prop) [DecidablePred P] :
    (t.entries.filter P).NodupKeys :=
  Multiset.nodup_keys.1 (Multiset.nodup_of_le (Multiset.map_le_map (Multiset.filter_le _ _))
    t.nodupKeys.nodup_keys)

/-- The loop that erases every entry that does not satisfy `P`. -/
def filter (t : Table κ α) (P : κ → α → Prop) [∀ k a, Decidable (P k a)] : Table κ α where
  entries := t.entries.filter fun x => P x.1 x.2
  nodupKeys := t.nodupKeys_filter _

theorem lookup_filter (t : Table κ α) (P : κ → α → Prop) [∀ k a, Decidable (P k a)] (k : κ) :
    (t.filter P).lookup k = (t.lookup k).filter fun a => P k a := by
  ext a
  rw [Option.filter_eq_some_iff, Finmap.lookup_eq_some_iff, Finmap.lookup_eq_some_iff, filter,
    Multiset.mem_filter, decide_eq_true_iff]

/-- A table without entries is the empty one. -/
theorem eq_empty_of_lookup {t : Table κ α} (h : ∀ k, t.lookup k = none) : t = ∅ :=
  Finmap.ext_lookup fun k => by rw [h, Finmap.lookup_empty]

/-- The number of entries, `size()`. -/
def size (t : Table κ α) : ℕ := t.keys.card

omit [DecidableEq κ] in
@[simp] theorem size_empty : (∅ : Table κ α).size = 0 := by
  rw [size, Finmap.keys_empty, Finset.card_empty]

omit [DecidableEq κ] in
theorem size_le_size {t t' : Table κ α} (h : ∀ k ∈ t, k ∈ t') : t.size ≤ t'.size :=
  Finset.card_le_card fun _ hk => Finmap.mem_keys.2 (h _ (Finmap.mem_keys.1 hk))

theorem size_insert_le (t : Table κ α) (k : κ) (a : α) : size (t.insert k a) ≤ t.size + 1 := by
  have hsub : (t.insert k a).keys ⊆ insert k t.keys := fun k' hk' => by
    rwa [Finmap.mem_keys, Finmap.mem_insert, ← Finmap.mem_keys, ← Finset.mem_insert] at hk'
  exact (Finset.card_le_card hsub).trans (Finset.card_insert_le k t.keys)

theorem size_insertNew_le (t : Table κ α) (k : κ) (a : α) : (t.insertNew k a).size ≤ t.size + 1 := by
  unfold insertNew
  split_ifs
  · exact Nat.le_succ _
  · exact size_insert_le t k a

theorem size_erase_le (t : Table κ α) (k : κ) : size (t.erase k) ≤ t.size :=
  size_le_size fun _ hk' => (Finmap.mem_erase.1 hk').2

/-- The invariant of a table on which `insertNew` is tried under a present key. -/
example : ((∅ : Table ℤ ℕ).insertNew 3 5 |>.insertNew 3 6).lookup 3 = some 5 := by decide

end Table
