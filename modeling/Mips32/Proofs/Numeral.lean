import Mips32.Numeral

/-!
This module contains the verification of numerals: what is written in a base is read back, so different
numbers have different numerals.
-/

namespace Mips32

namespace Numeral

variable {base limit m n : Nat}

theorem digitValue?_digitChar (hbase : base ≤ 16) {digit : Nat} (hdigit : digit < base) :
    digitValue? base digit.digitChar = some digit := by
  have hall : ∀ base ≤ 16, ∀ digit < base, digitValue? base digit.digitChar = some digit := by
    decide +kernel
  exact hall base hbase digit hdigit

theorem isAlphanum_digitChar (hbase : base ≤ 16) {digit : Nat} (hdigit : digit < base) :
    digit.digitChar.isAlphanum = true := by
  have hall : ∀ digit < 16, digit.digitChar.isAlphanum = true := by
    decide +kernel
  exact hall digit (Nat.lt_of_lt_of_le hdigit hbase)

theorem isAlphanum_of_mem_toDigits (hone : 1 < base) (hbase : base ≤ 16) {c : Char}
    (hmem : c ∈ Nat.toDigits base n) : c.isAlphanum = true := by
  induction n using Nat.strongRecOn with
  | ind n ih =>
    cases Nat.lt_or_ge n base with
    | inl hlt =>
      rw [Nat.toDigits_of_lt_base hlt, List.mem_singleton] at hmem
      rw [hmem]
      exact isAlphanum_digitChar hbase hlt
    | inr hge =>
      rw [Nat.toDigits_of_base_le hone hge, List.mem_append, List.mem_singleton] at hmem
      cases hmem with
      | inl hmem =>
        have hsmaller : n / base < n := by
          apply Nat.div_lt_self <;> omega
        exact ih (n / base) hsmaller hmem
      | inr hlast =>
        rw [hlast]
        apply isAlphanum_digitChar hbase
        apply Nat.mod_lt
        omega

theorem read.go_toDigits (hone : 1 < base) (hbase : base ≤ 16) (hlimit : n ≤ limit)
    (rest : List Char) :
    go base limit 0 (Nat.toDigits base n ++ rest) = go base limit n rest := by
  -- digits are written from the last one on but read from the first one on, so the induction needs
  -- an arbitrary rest
  induction n using Nat.strongRecOn generalizing rest with
  | ind n ih =>
    cases Nat.lt_or_ge n base with
    | inl hlt =>
      rw [Nat.toDigits_of_lt_base hlt, List.singleton_append]
      rw [go, digitValue?_digitChar hbase hlt]
      simp only [Nat.zero_mul, Nat.zero_add]
      rw [if_pos hlimit]
    | inr hge =>
      have hsmaller : n / base < n := by
        apply Nat.div_lt_self <;> omega
      have hdigit : n % base < base := by
        apply Nat.mod_lt
        omega
      rw [Nat.toDigits_of_base_le hone hge, List.append_assoc, List.singleton_append]
      rw [ih (n / base) hsmaller (by omega)]
      rw [go, digitValue?_digitChar hbase hdigit]
      simp only [Nat.div_add_mod']
      rw [if_pos hlimit]

theorem read_toDigits (hone : 1 < base) (hbase : base ≤ 16) (hlimit : n ≤ limit) :
    read base limit (Nat.toDigits base n) = .ok n := by
  unfold read
  split
  . next hnil =>
    exact absurd hnil Nat.toDigits_ne_nil
  . rw [← List.append_nil (Nat.toDigits base n), read.go_toDigits hone hbase hlimit, read.go]

theorem toDigits_injective (hone : 1 < base) (hbase : base ≤ 16)
    (h : Nat.toDigits base m = Nat.toDigits base n) : m = n := by
  have hm : read base (max m n) (Nat.toDigits base m) = .ok m := by
    apply read_toDigits hone hbase
    omega
  have hn : read base (max m n) (Nat.toDigits base n) = .ok n := by
    apply read_toDigits hone hbase
    omega
  rw [h, hn, Except.ok.injEq] at hm
  exact hm.symm

theorem toList_decimal (n : Nat) : (decimal n).toList = Nat.toDigits 10 n := by
  unfold decimal digits
  rw [String.toList_ofList]

theorem toList_hex (n : Nat) : (hex n).toList = '0' :: 'x' :: Nat.toDigits 16 n := by
  unfold hex digits
  simp only [String.toList_append, String.toList_ofList]
  rfl

theorem isAlphanum_of_mem_decimal {c : Char} (hmem : c ∈ (decimal n).toList) :
    c.isAlphanum = true := by
  rw [toList_decimal] at hmem
  exact isAlphanum_of_mem_toDigits (by omega) (by omega) hmem

theorem decimal_injective (h : decimal m = decimal n) : m = n := by
  have hlist := congrArg String.toList h
  rw [toList_decimal, toList_decimal] at hlist
  exact toDigits_injective (by omega) (by omega) hlist

theorem isAlphanum_of_mem_hex {c : Char} (hmem : c ∈ (hex n).toList) : c.isAlphanum = true := by
  rw [toList_hex, List.mem_cons, List.mem_cons] at hmem
  obtain rfl | rfl | hmem := hmem
  . rfl
  . rfl
  . exact isAlphanum_of_mem_toDigits (by omega) (by omega) hmem

theorem hex_injective (h : hex m = hex n) : m = n := by
  have hlist := congrArg String.toList h
  rw [toList_hex, toList_hex, List.cons.injEq, List.cons.injEq] at hlist
  exact toDigits_injective (by omega) (by omega) hlist.2.2

theorem toList_hex8 (n : Nat) : (hex8 n).toList = (Nat.toDigits 16 n).leftpad 8 '0' := by
  unfold hex8
  rw [String.toList_ofList]

theorem isAlphanum_of_mem_hex8 {c : Char} (hmem : c ∈ (hex8 n).toList) : c.isAlphanum = true := by
  rw [toList_hex8, List.leftpad, List.mem_append] at hmem
  cases hmem with
  | inl hpad =>
    rw [List.eq_of_mem_replicate hpad]
    rfl
  | inr hmem => exact isAlphanum_of_mem_toDigits (by omega) (by omega) hmem

theorem length_hex8 (n : Nat) : 8 ≤ (hex8 n).toList.length := by
  rw [toList_hex8, List.length_leftpad]
  omega

theorem read.go_replicate_zero (hone : 1 < base) (hbase : base ≤ 16) (count : Nat) (rest : List Char) :
    go base limit 0 (List.replicate count '0' ++ rest) = go base limit 0 rest := by
  have hdigit : 0 < base := by omega
  have hzero : digitValue? base '0' = some 0 := digitValue?_digitChar hbase hdigit
  induction count with
  | zero => rfl
  | succ count ih =>
    rw [List.replicate_succ, List.cons_append, go, hzero]
    simpa using ih

theorem hex8_injective (h : hex8 m = hex8 n) : m = n := by
  have hread (value : Nat) (hlimit : value ≤ max m n) :
      read.go 16 (max m n) 0 (hex8 value).toList = .ok value := by
    rw [toList_hex8, List.leftpad, read.go_replicate_zero (by omega) (by omega)]
    rw [← List.append_nil (Nat.toDigits 16 value), read.go_toDigits (by omega) (by omega) hlimit, read.go]
  have hm := hread m (by omega)
  rw [h, hread n (by omega), Except.ok.injEq] at hm
  exact hm.symm

theorem not_mem_decimal {mark : Char} (h : mark.isAlphanum = false) : mark ∉ (decimal n).toList := by
  intro hmem
  rw [isAlphanum_of_mem_decimal hmem] at h
  contradiction

theorem not_mem_hex8 {mark : Char} (h : mark.isAlphanum = false) : mark ∉ (hex8 n).toList := by
  intro hmem
  rw [isAlphanum_of_mem_hex8 hmem] at h
  contradiction

theorem toList_signed_negSucc (n : Nat) :
    (signed (.negSucc n)).toList = '-' :: (decimal (n + 1)).toList := by
  unfold signed
  rw [String.toList_append]
  rfl

theorem of_mem_signed {i : Int} {c : Char} (hmem : c ∈ (signed i).toList) :
    c.isAlphanum = true ∨ c = '-' := by
  cases i with
  | ofNat n => exact .inl (isAlphanum_of_mem_decimal hmem)
  | negSucc n =>
    rw [toList_signed_negSucc, List.mem_cons] at hmem
    cases hmem with
    | inl hsign => exact .inr hsign
    | inr hmem => exact .inl (isAlphanum_of_mem_decimal hmem)

theorem decimal_ne_signed_negSucc : decimal m ≠ signed (.negSucc n) := by
  intro h
  have hsign : '-' ∈ (decimal m).toList := by
    rw [h, toList_signed_negSucc]
    exact List.mem_cons_self
  exact not_mem_decimal rfl hsign

theorem signed_injective {i j : Int} (h : signed i = signed j) : i = j := by
  cases i with
  | ofNat m =>
    cases j with
    | ofNat n => rw [decimal_injective h]
    | negSucc n => exact absurd h decimal_ne_signed_negSucc
  | negSucc m =>
    cases j with
    | ofNat n => exact absurd h.symm decimal_ne_signed_negSucc
    | negSucc n =>
      have hlist := congrArg String.toList h
      rw [toList_signed_negSucc, toList_signed_negSucc, List.cons.injEq, String.toList_inj] at hlist
      have heq := decimal_injective hlist.2
      rw [Nat.add_right_cancel heq]

end Numeral

end Mips32
