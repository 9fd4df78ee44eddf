import Mips32.Proofs.Blank
import Mips32.Proofs.Numeral
import Mips32.Word.Literal

/-!
This module contains the verification that numerals are read as the grammar says. A text is read as the value
that its digits have, unless it is no numeral, or the value of the digits in front passes the limit: then
nothing behind these digits matters any more.
-/

namespace Mips32

namespace Numeral

variable {base limit m n digit : Nat} {c : Char} {text head : List Char}

theorem toNat_of_digitValue? (h : digitValue? base c = some digit) :
    digit < base ∧ (c.toNat = 48 + digit ∧ digit < 10
      ∨ c.toNat = 87 + digit ∧ 10 ≤ digit
      ∨ c.toNat = 55 + digit ∧ 10 ≤ digit) := by
  simp only [digitValue?, Char.le_def, UInt32.le_iff_toNat_le, Option.ite_none_right_eq_some,
    Option.some.injEq] at h
  obtain ⟨hlt, hvalue⟩ := h
  rw [hvalue] at hlt
  have hc : c.val.toNat = c.toNat := rfl
  have hzero : '0'.val.toNat = 48 ∧ '0'.toNat = 48 ∧ '9'.val.toNat = 57 := ⟨rfl, rfl, rfl⟩
  have hlower : 'a'.val.toNat = 97 ∧ 'a'.toNat = 97 := ⟨rfl, rfl⟩
  have hupper : 'A'.val.toNat = 65 ∧ 'A'.toNat = 65 := ⟨rfl, rfl⟩
  split at hvalue
  . omega
  split at hvalue
  . omega
  split at hvalue
  . omega
  . omega

theorem isDigit_of_digitValue? (hbase : base ≤ 16) (h : digitValue? base c = some digit) :
    IsDigit base c digit := by
  have hdecimal : ∀ digit < 10, Char.ofNat (48 + digit) = digit.digitChar := by decide
  have hlower : ∀ digit < 16, 10 ≤ digit → Char.ofNat (87 + digit) = digit.digitChar := by decide
  have hupper : ∀ digit < 16, 10 ≤ digit → Char.ofNat (55 + digit) = digit.digitChar.toUpper := by
    decide
  obtain ⟨hlt, hc⟩ := toNat_of_digitValue? h
  rw [← Char.ofNat_toNat c]
  refine ⟨hlt, ?_⟩
  obtain ⟨hc, hdigit⟩ | ⟨hc, hdigit⟩ | ⟨hc, hdigit⟩ := hc
  all_goals
    rw [hc]
  . exact .inl (hdecimal digit hdigit)
  . exact .inl (hlower digit (by omega) hdigit)
  . exact .inr (hupper digit (by omega) hdigit)

theorem digitValue?_eq_some_iff (hbase : base ≤ 16) :
    digitValue? base c = some digit ↔ IsDigit base c digit := by
  constructor
  . exact isDigit_of_digitValue? hbase
  . have hupper : ∀ base ≤ 16, ∀ digit < base,
        digitValue? base digit.digitChar.toUpper = some digit := by
      decide +kernel
    rintro ⟨hlt, rfl | rfl⟩
    . exact digitValue?_digitChar hbase hlt
    . exact hupper base hbase digit hlt

theorem Spells.ne_nil (h : Spells base text n) : text ≠ [] := by
  cases h with
  | last _ => exact List.cons_ne_nil _ _
  | cons _ _ => exact List.cons_ne_nil _ _

theorem Spells.lt_of_singleton (h : Spells base [c] n) : n < base := by
  cases h with
  | last hdigit => exact hdigit.1
  | cons _ hrest => exact absurd rfl hrest.ne_nil

theorem Spells.isDigit_of_mem (h : Spells base text n) (hmem : c ∈ text) :
    ∃ digit, IsDigit base c digit := by
  induction h with
  | last hdigit =>
    rw [List.mem_singleton] at hmem
    exact ⟨_, hmem ▸ hdigit⟩
  | cons hdigit _ ih =>
    rw [List.mem_cons] at hmem
    cases hmem with
    | inl hhead => exact ⟨_, hhead ▸ hdigit⟩
    | inr htail => exact ih htail

theorem Spells.go_append (hbase : base ≤ 16) (h : Spells base text m) (rest : List Char) :
    read.go base limit n (text ++ rest)
      =
    if n * base ^ text.length + m ≤ limit then
      read.go base limit (n * base ^ text.length + m) rest
    else
      .error .tooLarge := by
  induction h generalizing n with
  | last hdigit =>
    rw [List.singleton_append, read.go, (digitValue?_eq_some_iff hbase).2 hdigit]
    simp
  | @cons c digit m tail hdigit _ ih =>
    have hvalue : n * base ^ (tail.length + 1) + (digit * base ^ tail.length + m)
        = (n * base + digit) * base ^ tail.length + m := by
      rw [Nat.pow_succ', Nat.add_mul, Nat.mul_assoc, Nat.add_assoc]
    rw [List.cons_append, read.go, (digitValue?_eq_some_iff hbase).2 hdigit]
    dsimp only
    rw [ih, List.length_cons, hvalue]
    split
    . rfl
    . next hpasses =>
      -- what passes the limit once does so whatever digits follow
      have hgrows : n * base + digit ≤ (n * base + digit) * base ^ tail.length := by
        apply Nat.le_mul_of_pos_right
        apply Nat.pow_pos
        exact Nat.zero_lt_of_lt hdigit.1
      rw [if_neg (by omega)]

theorem digits_cases (hbase : base ≤ 16) (text : List Char) :
    text = [] ∨ (∃ n, Spells base text n)
      ∨ ∃ head c rest, text = head ++ c :: rest ∧ digitValue? base c = none
        ∧ (head = [] ∨ ∃ n, Spells base head n) := by
  induction text with
  | nil => exact .inl rfl
  | cons c rest ih =>
    cases hdigit : digitValue? base c with
    | none => exact .inr (.inr ⟨[], c, rest, rfl, hdigit, .inl rfl⟩)
    | some digit =>
      rw [digitValue?_eq_some_iff hbase] at hdigit
      obtain rfl | ⟨n, hrest⟩ | ⟨head, mark, tail, rfl, hmark, hhead⟩ := ih
      . exact .inr (.inl ⟨_, .last hdigit⟩)
      . exact .inr (.inl ⟨_, .cons hdigit hrest⟩)
      . refine .inr (.inr ⟨c :: head, mark, tail, rfl, hmark, .inr ?_⟩)
        obtain rfl | ⟨n, hhead⟩ := hhead
        . exact ⟨_, .last hdigit⟩
        . exact ⟨_, .cons hdigit hhead⟩

theorem Spells.read_append (hbase : base ≤ 16) (h : Spells base text n) (rest : List Char) :
    read base limit (text ++ rest)
      =
    if n ≤ limit then read.go base limit n rest else .error .tooLarge := by
  unfold read
  split
  . next hnil => exact absurd (List.append_eq_nil_iff.1 hnil).1 h.ne_nil
  . rw [h.go_append hbase]
    simp

theorem Spells.read_eq (hbase : base ≤ 16) (h : Spells base text n) :
    read base limit text = if n ≤ limit then .ok n else .error .tooLarge := by
  rw [← List.append_nil text, h.read_append hbase, read.go]

theorem read_cases (hbase : base ≤ 16) (limit : Nat) (text : List Char) :
    (∃ n, Spells base text n ∧ n ≤ limit ∧ read base limit text = .ok n)
      ∨ (∃ head n, head <+: text ∧ Spells base head n ∧ limit < n
          ∧ read base limit text = .error .tooLarge)
      ∨ read base limit text = .error .malformed := by
  obtain rfl | ⟨n, h⟩ | ⟨head, c, rest, rfl, hc, rfl | ⟨n, h⟩⟩ := digits_cases hbase text
  . exact .inr (.inr rfl)
  . cases Nat.lt_or_ge limit n with
    | inl hpasses =>
      refine .inr (.inl ⟨text, n, List.prefix_rfl, h, hpasses, ?_⟩)
      rw [h.read_eq hbase, if_neg (by omega)]
    | inr hle =>
      refine .inl ⟨n, h, hle, ?_⟩
      rw [h.read_eq hbase, if_pos hle]
  . refine .inr (.inr ?_)
    rw [List.nil_append, read, read.go, hc]
    exact List.cons_ne_nil c rest
  . cases Nat.lt_or_ge limit n with
    | inl hpasses =>
      refine .inr (.inl ⟨head, n, List.prefix_append _ _, h, hpasses, ?_⟩)
      rw [h.read_append hbase, if_neg (by omega)]
    | inr hle =>
      refine .inr (.inr ?_)
      rw [h.read_append hbase, if_pos hle, read.go, hc]

theorem read_eq_ok_iff (hbase : base ≤ 16) :
    read base limit text = .ok n ↔ Spells base text n ∧ n ≤ limit := by
  constructor
  . intro h
    obtain ⟨m, hspells, hle, hread⟩ | ⟨_, _, _, _, _, hread⟩ | hread := read_cases hbase limit text
    . rw [hread, Except.ok.injEq] at h
      subst h
      exact ⟨hspells, hle⟩
    . rw [hread] at h
      contradiction
    . rw [hread] at h
      contradiction
  . rintro ⟨hspells, hle⟩
    rw [hspells.read_eq hbase, if_pos hle]

theorem read_eq_tooLarge_iff (hbase : base ≤ 16) :
    read base limit text = .error .tooLarge ↔
      ∃ head n, head <+: text ∧ Spells base head n ∧ limit < n := by
  constructor
  . intro h
    obtain ⟨_, _, _, hread⟩ | ⟨head, n, hhead, hspells, hpasses, _⟩ | hread :=
      read_cases hbase limit text
    . rw [hread] at h
      contradiction
    . exact ⟨head, n, hhead, hspells, hpasses⟩
    . rw [hread, Except.error.injEq] at h
      contradiction
  . rintro ⟨head, n, ⟨rest, rfl⟩, hspells, hpasses⟩
    rw [hspells.read_append hbase, if_neg (by omega)]

theorem IsDigit.isBlank_eq_false (hbase : base ≤ 16) (h : IsDigit base c digit) :
    Text.isBlank c = false := by
  have hlower : ∀ digit < 16, Text.isBlank digit.digitChar = false := by decide +kernel
  have hupper : ∀ digit < 16, Text.isBlank digit.digitChar.toUpper = false := by decide +kernel
  obtain ⟨hlt, rfl | rfl⟩ := h
  . exact hlower digit (Nat.lt_of_lt_of_le hlt hbase)
  . exact hupper digit (Nat.lt_of_lt_of_le hlt hbase)

theorem Spells.isBlank_eq_false_of_mem (hbase : base ≤ 16) (h : Spells base text n)
    (hmem : c ∈ text) : Text.isBlank c = false := by
  obtain ⟨_, hdigit⟩ := h.isDigit_of_mem hmem
  exact hdigit.isBlank_eq_false hbase

theorem Spells.digitValue?_ne_none (hbase : base ≤ 16) (h : Spells base text n) (hmem : c ∈ text) :
    digitValue? base c ≠ none := by
  obtain ⟨digit, hdigit⟩ := h.isDigit_of_mem hmem
  rw [(digitValue?_eq_some_iff hbase).2 hdigit]
  exact Option.some_ne_none digit

theorem SpellsUnsigned.digitValue?_ne_none (hbase : base ≤ 16) (h : SpellsUnsigned base text n)
    (hmem : c ∈ text) (hplus : c ≠ '+') : digitValue? base c ≠ none := by
  cases h with
  | bare h => exact h.digitValue?_ne_none hbase hmem
  | plus h => exact h.digitValue?_ne_none hbase ((List.mem_cons.1 hmem).resolve_left hplus)

theorem SpellsUnsigned.isBlank_eq_false_of_mem (hbase : base ≤ 16) (h : SpellsUnsigned base text n)
    (hmem : c ∈ text) : Text.isBlank c = false := by
  cases h with
  | bare h => exact h.isBlank_eq_false_of_mem hbase hmem
  | plus h =>
    rw [List.mem_cons] at hmem
    obtain rfl | hmem := hmem
    . rfl
    . exact h.isBlank_eq_false_of_mem hbase hmem

theorem SpellsUnsigned.ne_nil (h : SpellsUnsigned base text n) : text ≠ [] := by
  cases h with
  | bare h => exact h.ne_nil
  | plus _ => exact List.cons_ne_nil _ _

theorem spellsUnsigned_plus_iff (hbase : base ≤ 16) :
    SpellsUnsigned base ('+' :: text) n ↔ Spells base text n := by
  have hnone : ∀ base ≤ 16, digitValue? base '+' = none := by decide
  constructor
  . intro h
    cases h with
    | bare h => exact absurd (hnone base hbase) (h.digitValue?_ne_none hbase List.mem_cons_self)
    | plus h => exact h
  . exact .plus

theorem spellsUnsigned_iff_of_ne (hplus : ∀ rest, text ≠ '+' :: rest) :
    SpellsUnsigned base text n ↔ Spells base text n := by
  constructor
  . intro h
    cases h with
    | bare h => exact h
    | plus h => exact absurd rfl (hplus _)
  . exact .bare

theorem readUnsigned_eq_ok_iff (hbase : base ≤ 16) :
    readUnsigned base limit text = .ok n ↔ SpellsUnsigned base text n ∧ n ≤ limit := by
  unfold readUnsigned
  split
  . rw [read_eq_ok_iff hbase, spellsUnsigned_plus_iff hbase]
  . next hplus =>
    rw [read_eq_ok_iff hbase, spellsUnsigned_iff_of_ne hplus]

theorem readUnsigned_eq_tooLarge_iff (hbase : base ≤ 16) :
    readUnsigned base limit text = .error .tooLarge ↔
      ∃ head n, head <+: text ∧ SpellsUnsigned base head n ∧ limit < n := by
  unfold readUnsigned
  split
  . next rest =>
    rw [read_eq_tooLarge_iff hbase]
    constructor
    . rintro ⟨head, n, hhead, h, hpasses⟩
      exact ⟨'+' :: head, n, List.cons_prefix_cons.2 ⟨rfl, hhead⟩, .plus h, hpasses⟩
    . rintro ⟨head, n, hhead, h, hpasses⟩
      obtain rfl | ⟨tail, rfl, htail⟩ := List.prefix_cons_iff.1 hhead
      . exact absurd rfl h.ne_nil
      . exact ⟨tail, n, htail, (spellsUnsigned_plus_iff hbase).1 h, hpasses⟩
  . next hplus =>
    rw [read_eq_tooLarge_iff hbase]
    constructor
    . rintro ⟨head, n, hhead, h, hpasses⟩
      exact ⟨head, n, hhead, .bare h, hpasses⟩
    . rintro ⟨head, n, hhead, h, hpasses⟩
      have hheadPlus : ∀ rest, head ≠ '+' :: rest := by
        rintro rest rfl
        obtain ⟨tail, htail⟩ := hhead
        exact hplus _ htail.symm
      exact ⟨head, n, hhead, (spellsUnsigned_iff_of_ne hheadPlus).1 h, hpasses⟩

theorem spells_toDigits (hone : 1 < base) (hbase : base ≤ 16) (n : Nat) :
    Spells base (Nat.toDigits base n) n := by
  have hread := read_toDigits hone hbase (Nat.le_refl n)
  exact ((read_eq_ok_iff hbase).1 hread).1

theorem Spells.replicate_zero_append (hbase : 0 < base) (count : Nat) (h : Spells base text n) :
    Spells base (List.replicate count '0' ++ text) n := by
  have hzero : IsDigit base '0' 0 := ⟨hbase, .inl rfl⟩
  induction count with
  | zero => exact h
  | succ count ih =>
    have hcons := Spells.cons hzero ih
    rw [Nat.zero_mul, Nat.zero_add] at hcons
    exact hcons

end Numeral

end Mips32
