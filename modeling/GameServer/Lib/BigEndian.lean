/-
# Fixed-width big-endian numbers

Network byte order.  `toBytes k n` is `n` in `k` bytes, most significant first, the higher part
of `n` being dropped when it does not fit, and `ofBytes` the number a byte string stands for.
Both are those of `LittleEndian` read from the other end (`toBytes_eq_reverse`,
`ofBytes_eq_reverse`), so a number reads the same in both orders exactly when its bytes are a
palindrome (`toBytes_two_eq_iff`, `toBytes_four_eq_iff`).
-/

import GameServer.Lib.LittleEndian

namespace BigEndian

/-- `n` in `k` bytes, most significant first. -/
def toBytes : ℕ → ℕ → List UInt8
  | 0, _ => []
  | k + 1, n => toBytes k (n / 256) ++ [UInt8.ofNat n]

/-- The number a byte string stands for, most significant byte first. -/
def ofBytes (bs : List UInt8) : ℕ := bs.foldl (fun n b => 256 * n + b.toNat) 0

theorem toBytes_eq_reverse (k n : ℕ) : toBytes k n = (LittleEndian.toBytes k n).reverse := by
  induction k generalizing n with
  | zero => rfl
  | succ k ih => rw [toBytes, LittleEndian.toBytes, List.reverse_cons, ih]

theorem ofBytes_eq_reverse (bs : List UInt8) : ofBytes bs = LittleEndian.ofBytes bs.reverse := by
  induction bs using List.reverseRecOn with
  | nil => rfl
  | append_singleton bs b ih =>
    unfold ofBytes at ih ⊢
    rw [List.foldl_concat, ih, List.reverse_concat, LittleEndian.ofBytes, Nat.add_comm]

@[simp] theorem length_toBytes (k n : ℕ) : (toBytes k n).length = k := by
  simp [toBytes_eq_reverse]

theorem ofBytes_toBytes {k n : ℕ} (h : n < 256 ^ k) : ofBytes (toBytes k n) = n := by
  rw [ofBytes_eq_reverse, toBytes_eq_reverse, List.reverse_reverse, LittleEndian.ofBytes_toBytes h]

theorem toBytes_ofBytes (bs : List UInt8) : toBytes bs.length (ofBytes bs) = bs := by
  rw [ofBytes_eq_reverse, toBytes_eq_reverse, ← List.length_reverse, LittleEndian.toBytes_ofBytes,
    List.reverse_reverse]

/-- Two bytes read the same in both orders when they are equal. -/
theorem toBytes_two_eq_iff {n : ℕ} (h : n < 2 ^ 16) :
    toBytes 2 n = LittleEndian.toBytes 2 n ↔ 257 ∣ n := by
  simp only [toBytes, LittleEndian.toBytes, List.nil_append, List.cons_append, List.cons.injEq,
    and_true, ← UInt8.toNat_inj, UInt8.toNat_ofNat']
  constructor
  · exact fun h' => ⟨n / 256, by omega⟩
  · rintro ⟨c, rfl⟩
    have hq : 257 * c / 256 = c := by omega
    omega

/-- Four bytes, the most significant of which is 0, read the same in both orders when the least
significant is 0 as well and the two in the middle are equal. -/
theorem toBytes_four_eq_iff {n : ℕ} (h : n < 2 ^ 24) :
    toBytes 4 n = LittleEndian.toBytes 4 n ↔ 65792 ∣ n := by
  simp only [toBytes, LittleEndian.toBytes, List.nil_append, List.cons_append, List.cons.injEq,
    and_true, ← UInt8.toNat_inj, UInt8.toNat_ofNat', Nat.div_div_eq_div_mul, Nat.reduceMul]
  have htop : n / 16777216 = 0 := by omega
  rw [htop]
  constructor
  · rintro ⟨h₀, h₁, -, -⟩
    have hmid : n / 256 = n / 65536 * 256 + n / 65536 := by omega
    exact ⟨n / 65536, by omega⟩
  · rintro ⟨c, rfl⟩
    have hone : 65792 * c / 256 = 257 * c := by omega
    have htwo : 65792 * c / 65536 = c := by omega
    omega

/-- The bytes of `1001`, the high one first. -/
example : toBytes 2 1001 = [0x03, 0xE9] := by decide

end BigEndian
