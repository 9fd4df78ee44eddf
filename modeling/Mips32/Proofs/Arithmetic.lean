import Mathlib.Algebra.GroupWithZero.Nat
import Mips32.Layout.Checked

/-!
This module contains the laws of 32-bit arithmetic. A sum or a difference has a result exactly if it stays in
range, and the same holds for a whole run of sums or differences.
-/

namespace Mips32

namespace Arithmetic

variable {m n total left room amount : UInt32} {numbers : List UInt32}

theorem pos_iff : 0 < n ↔ 0 < n.toNat :=
  UInt32.lt_iff_toNat_lt

theorem lt_32_iff : n < 32 ↔ n.toNat < 32 :=
  UInt32.lt_iff_toNat_lt

theorem ge_32_iff : 32 ≤ n ↔ 32 ≤ n.toNat :=
  UInt32.le_iff_toNat_le

theorem exists_toNat_eq {k : Nat} (h : k < 2 ^ 32) : ∃ n : UInt32, n.toNat = k :=
  ⟨UInt32.ofNatLT k h, UInt32.toNat_ofNatLT⟩

theorem add?_eq_some_iff : add? m n = some total ↔ total.toNat = m.toNat + n.toNat := by
  unfold add?
  split
  . next hlt =>
    rw [Option.some.injEq, ← UInt32.toNat_inj, UInt32.toNat_add, Nat.mod_eq_of_lt hlt]
    exact eq_comm
  . next hge =>
    have htotal := total.toNat_lt_size
    simp only [reduceCtorEq, false_iff]
    omega

theorem sub?_eq_some_iff : sub? m n = some left ↔ left.toNat + n.toNat = m.toNat := by
  unfold sub?
  split
  . next hle =>
    rw [Option.some.injEq, ← UInt32.toNat_inj, UInt32.toNat_sub_of_le _ _ hle]
    rw [UInt32.le_iff_toNat_le] at hle
    omega
  . next hlt =>
    rw [UInt32.le_iff_toNat_le] at hlt
    simp only [reduceCtorEq, false_iff]
    omega

theorem foldlM_add?_eq_some_iff :
    numbers.foldlM add? m = some total ↔ total.toNat = m.toNat + (numbers.map UInt32.toNat).sum := by
  induction numbers generalizing m with
  | nil =>
    rw [List.foldlM_nil, Option.pure_def, Option.some.injEq, ← UInt32.toNat_inj]
    exact eq_comm
  | cons first rest ih =>
    rw [List.foldlM_cons, Option.bind_eq_bind, Option.bind_eq_some_iff, List.map_cons, List.sum_cons]
    simp only [add?_eq_some_iff, ih]
    constructor
    . rintro ⟨sum, hsum, htotal⟩
      omega
    . intro htotal
      -- the first sum is in range because the last one is
      have hlt := total.toNat_lt
      obtain ⟨sum, hsum⟩ := exists_toNat_eq (k := m.toNat + first.toNat) (by omega)
      exact ⟨sum, hsum, by omega⟩

theorem foldlM_sub?_eq_some_iff :
    numbers.foldlM sub? room = some left ↔ left.toNat + (numbers.map UInt32.toNat).sum = room.toNat := by
  induction numbers generalizing room with
  | nil =>
    rw [List.foldlM_nil, Option.pure_def, Option.some.injEq, ← UInt32.toNat_inj]
    exact eq_comm
  | cons first rest ih =>
    rw [List.foldlM_cons, Option.bind_eq_bind, Option.bind_eq_some_iff, List.map_cons, List.sum_cons]
    simp only [sub?_eq_some_iff, ih]
    constructor
    . rintro ⟨difference, hdifference, hleft⟩
      omega
    . intro hleft
      have hlt := room.toNat_lt
      obtain ⟨difference, hdifference⟩ := exists_toNat_eq (k := room.toNat - first.toNat) (by omega)
      exact ⟨difference, by omega, by omega⟩

theorem shiftLeft?_of_lt (hlt : amount < 32) : shiftLeft? n amount = some (n <<< amount) :=
  if_pos hlt

theorem shiftLeft?_eq_none_iff : shiftLeft? n amount = none ↔ 32 ≤ amount := by
  unfold shiftLeft?
  split
  . next h => simp [h]
  . next h => simpa using h

theorem toNat_shiftLeft (hlt : amount < 32) :
    (n <<< amount).toNat = n.toNat * 2 ^ amount.toNat % 2 ^ 32 := by
  have hamount : amount.toNat % 32 = amount.toNat := Nat.mod_eq_of_lt hlt
  rw [UInt32.toNat_shiftLeft, hamount, Nat.shiftLeft_eq]

/-- Zero in the place of a shift that has no result is what 32 bits hold of the shifted number. -/
theorem toNat_getD_shiftLeft? (n amount : UInt32) :
    ((shiftLeft? n amount).getD 0).toNat = n.toNat * 2 ^ amount.toNat % 2 ^ 32 := by
  cases h : shiftLeft? n amount with
  | none =>
    rw [shiftLeft?_eq_none_iff, ge_32_iff] at h
    have hdvd : 2 ^ 32 ∣ n.toNat * 2 ^ amount.toNat :=
      Nat.dvd_mul_left_of_dvd (Nat.pow_dvd_pow 2 h) _
    rw [Nat.mod_eq_zero_of_dvd hdvd]
    rfl
  | some shifted =>
    have hlt : amount < 32 := by
      rw [← UInt32.not_le, ← shiftLeft?_eq_none_iff (n := n), h]
      simp
    rw [shiftLeft?_of_lt hlt, Option.some.injEq] at h
    rw [← h]
    exact toNat_shiftLeft hlt

theorem exists_shiftRight? (n : UInt32) (hlt : amount < 32) :
    ∃ shifted, shiftRight? n amount = some shifted ∧ shifted.toNat = n.toNat / 2 ^ amount.toNat := by
  have hamount : amount.toNat % 32 = amount.toNat := Nat.mod_eq_of_lt hlt
  refine ⟨n >>> amount, if_pos hlt, ?_⟩
  rw [UInt32.toNat_shiftRight, hamount, Nat.shiftRight_eq_div_pow]

theorem mask?_of_lt (hlt : amount < 32) :
    ∃ mask, mask? amount = some mask ∧ mask.toNat = 2 ^ amount.toNat - 1 := by
  have hpow : 2 ^ amount.toNat < 2 ^ 32 := Nat.pow_lt_pow_right (by decide) hlt
  have hshift : (1 <<< amount : UInt32).toNat = 2 ^ amount.toNat := by
    rw [toNat_shiftLeft hlt, UInt32.toNat_one, Nat.one_mul, Nat.mod_eq_of_lt hpow]
  have hone : (1 : UInt32) ≤ 1 <<< amount := by
    rw [UInt32.le_iff_toNat_le, hshift]
    exact Nat.one_le_two_pow
  refine ⟨1 <<< amount - 1, ?_, ?_⟩
  . unfold mask?
    rw [if_neg (UInt32.not_le.2 hlt), shiftLeft?_of_lt hlt]
    exact if_pos hone
  . rw [UInt32.toNat_sub_of_le _ _ hone, hshift]
    rfl

theorem exists_mask? (width : UInt32) :
    ∃ mask, mask? width = some mask ∧ ∀ n : UInt32, (n &&& mask).toNat = n.toNat % 2 ^ width.toNat := by
  by_cases hlt : width < 32
  . obtain ⟨mask, hmask, hones⟩ := mask?_of_lt hlt
    refine ⟨mask, hmask, ?_⟩
    intro n
    rw [UInt32.toNat_and, hones, Nat.and_two_pow_sub_one_eq_mod]
  . rw [UInt32.not_lt] at hlt
    refine ⟨0xffffffff, if_pos hlt, ?_⟩
    intro n
    have hn : n.toNat < 2 ^ width.toNat := by
      apply Nat.lt_of_lt_of_le n.toNat_lt
      exact Nat.pow_le_pow_right (by decide) (ge_32_iff.1 hlt)
    have hones : UInt32.toNat 0xffffffff = 2 ^ 32 - 1 := rfl
    rw [UInt32.toNat_and, hones, Nat.and_two_pow_sub_one_eq_mod]
    rw [Nat.mod_eq_of_lt n.toNat_lt, Nat.mod_eq_of_lt hn]

end Arithmetic

end Mips32
