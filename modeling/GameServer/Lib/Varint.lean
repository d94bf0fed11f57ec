/-
# Variable-width numbers

`toVarint n` is `n` in base 128, least significant digit first, with 128 added to
every digit but the last.  A number takes `k + 1` bytes or fewer exactly when it is
below `128 ^ (k + 1)` (`length_toVarint_le_iff`), which is all that is needed to know
how long a message is.  `ofVarint` reads a number back off the front of a list of bytes,
whatever follows it (`ofVarint_toVarint`).
-/

import Mathlib.Data.List.Basic
import Mathlib.Tactic

namespace Varint

/-- `n` in groups of seven bits, each but the last with the continuation bit. -/
def toVarint (n : ℕ) : List UInt8 :=
  if n < 128 then [UInt8.ofNat n] else UInt8.ofNat (128 + n % 128) :: toVarint (n / 128)

theorem toVarint_of_lt {n : ℕ} (h : n < 128) : toVarint n = [UInt8.ofNat n] := by
  rw [toVarint, if_pos h]

theorem length_toVarint_pos (n : ℕ) : 0 < (toVarint n).length := by
  rw [toVarint]
  split_ifs <;> simp

theorem length_toVarint_le_iff (k n : ℕ) : (toVarint n).length ≤ k + 1 ↔ n < 128 ^ (k + 1) := by
  induction k generalizing n with
  | zero =>
    have hpos := length_toVarint_pos (n / 128)
    rw [toVarint]
    split_ifs with h
    · simpa using h
    · rw [List.length_cons]
      omega
  | succ k ih =>
    rw [toVarint]
    split_ifs with h
    · have hpow : 128 ^ 1 ≤ 128 ^ (k + 1 + 1) := Nat.pow_le_pow_right (by omega) (by omega)
      simp only [List.length_singleton]
      omega
    · rw [List.length_cons, Nat.add_le_add_iff_right, ih, Nat.div_lt_iff_lt_mul (by omega),
        ← Nat.pow_succ]

/-- A number of at most `k` groups and what follows it. -/
def ofVarint : ℕ → List UInt8 → Option (ℕ × List UInt8)
  | 0, _ => none
  | _, [] => none
  | k + 1, b :: bs =>
    if b.toNat < 128 then some (b.toNat, bs)
    else (ofVarint k bs).map fun r => (b.toNat - 128 + 128 * r.1, r.2)

theorem ofVarint_toVarint {k n : ℕ} (h : n < 128 ^ (k + 1)) (bs : List UInt8) :
    ofVarint (k + 1) (toVarint n ++ bs) = some (n, bs) := by
  induction k generalizing n with
  | zero =>
    have hn : n < 128 := by simpa using h
    rw [toVarint_of_lt hn, List.singleton_append, ofVarint, if_pos]
    · rw [UInt8.toNat_ofNat_of_lt' (show n < 2 ^ 8 by omega)]
    · rw [UInt8.toNat_ofNat_of_lt' (show n < 2 ^ 8 by omega)]
      exact hn
  | succ k ih =>
    by_cases hn : n < 128
    · rw [toVarint_of_lt hn, List.singleton_append, ofVarint, if_pos]
      · rw [UInt8.toNat_ofNat_of_lt' (show n < 2 ^ 8 by omega)]
      · rw [UInt8.toNat_ofNat_of_lt' (show n < 2 ^ 8 by omega)]
        exact hn
    · have hdiv : n / 128 < 128 ^ (k + 1) := by
        rw [Nat.div_lt_iff_lt_mul (by omega), ← Nat.pow_succ]
        exact h
      have hbyte : (UInt8.ofNat (128 + n % 128)).toNat = 128 + n % 128 :=
        UInt8.toNat_ofNat_of_lt' (show 128 + n % 128 < 2 ^ 8 by omega)
      rw [toVarint, if_neg hn, List.cons_append, ofVarint, hbyte, if_neg (by omega), ih hdiv]
      simp only [Option.map_some, Option.some.injEq, Prod.mk.injEq, and_true]
      omega

/-- A number takes at least one byte. -/
theorem length_of_ofVarint {k n : ℕ} {b r : List UInt8} (h : ofVarint k b = some (n, r)) :
    r.length < b.length := by
  induction k generalizing b n with
  | zero => cases h
  | succ k ih =>
    cases b with
    | nil => cases h
    | cons c b =>
      rw [ofVarint] at h
      split_ifs at h
      · obtain ⟨-, rfl⟩ := Prod.mk.inj (Option.some.inj h)
        exact Nat.lt_succ_self _
      · obtain ⟨x, hx, heq⟩ := Option.map_eq_some_iff.1 h
        obtain ⟨-, rfl⟩ := Prod.mk.inj heq
        exact Nat.lt_succ_of_lt (ih hx)

/-- `300` takes two bytes. -/
example : (toVarint 300).length = 2 := by
  have h₁ := length_toVarint_le_iff 1 300
  have h₀ := length_toVarint_le_iff 0 300
  omega

end Varint
