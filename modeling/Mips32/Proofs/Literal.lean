import Mips32.Proofs.Basic
import Mips32.Proofs.Spelling
import Mips32.Word.Reader

/-!
This module contains the verification that numbers are read as the grammar of literals says. A literal that fits
in a word is read as its value. Whether a text is found too large depends on its initial parts: reading stops as
soon as the digits in front do not fit.
-/

namespace Mips32

namespace Word

open Numeral

variable {text : List Char} {value : Int} {mark : Char} {word : Word}

theorem Literal.ne_nil (h : Literal text value) : text ≠ [] := by
  cases h with
  | hex _ _ => exact List.cons_ne_nil _ _
  | decimal h => exact h.ne_nil
  | negative _ => exact List.cons_ne_nil _ _

theorem fits_natCast_iff {n : Nat} : Fits n ↔ n ≤ 0xffffffff := by
  unfold Fits
  omega

theorem fits_neg_natCast_iff {n : Nat} : Fits (-n) ↔ n ≤ 0x80000000 := by
  unfold Fits
  omega

theorem eq_ofInt_iff : word = BitVec.ofInt 32 value ↔ (word.toNat : Int) = value % 2 ^ 32 := by
  rw [← BitVec.toNat_inj, BitVec.toNat_ofInt]
  omega

theorem literal_hex_iff (hmark : mark = 'x' ∨ mark = 'X') :
    Literal ('0' :: mark :: text) value ↔ ∃ n : Nat, SpellsUnsigned 16 text n ∧ value = n := by
  constructor
  . intro h
    cases h with
    | hex _ h => exact ⟨_, h, rfl⟩
    | decimal h =>
      -- the mark would have to be a decimal digit
      have hmem : mark ∈ '0' :: mark :: text := List.mem_cons_of_mem _ List.mem_cons_self
      obtain rfl | rfl := hmark
      . exact absurd rfl (h.digitValue?_ne_none (by omega) hmem (by decide))
      . exact absurd rfl (h.digitValue?_ne_none (by omega) hmem (by decide))
  . rintro ⟨n, h, rfl⟩
    exact .hex hmark h

theorem literal_negative_iff :
    Literal ('-' :: text) value ↔ ∃ n : Nat, Spells 10 text n ∧ value = -n := by
  constructor
  . intro h
    cases h with
    | decimal h =>
      exact absurd rfl (h.digitValue?_ne_none (by omega) List.mem_cons_self (by decide))
    | negative h => exact ⟨_, h, rfl⟩
  . rintro ⟨n, h, rfl⟩
    exact .negative h

structure Unmarked (text : List Char) : Prop where
  ne_hex : ∀ mark rest, mark = 'x' ∨ mark = 'X' → text ≠ '0' :: mark :: rest
  ne_negative : ∀ rest, text ≠ '-' :: rest

theorem unmarked_of_ne (hlower : ∀ rest, text ≠ '0' :: 'x' :: rest)
    (hupper : ∀ rest, text ≠ '0' :: 'X' :: rest) (hnegative : ∀ rest, text ≠ '-' :: rest) :
    Unmarked text := by
  refine ⟨?_, hnegative⟩
  rintro mark rest (rfl | rfl)
  . exact hlower rest
  . exact hupper rest

theorem Unmarked.literal_iff (h : Unmarked text) :
    Literal text value ↔ ∃ n : Nat, SpellsUnsigned 10 text n ∧ value = n := by
  constructor
  . intro hliteral
    cases hliteral with
    | hex hmark _ => exact absurd rfl (h.ne_hex _ _ hmark)
    | decimal hspells => exact ⟨_, hspells, rfl⟩
    | negative _ => exact absurd rfl (h.ne_negative _)
  . rintro ⟨n, hspells, rfl⟩
    exact .decimal hspells

theorem Unmarked.not_literal (h : Unmarked text) {c : Char} (hmem : c ∈ text) (hplus : c ≠ '+')
    (hnone : digitValue? 10 c = none) : ¬Literal text value := by
  intro hliteral
  obtain ⟨n, hspells, _⟩ := h.literal_iff.1 hliteral
  exact hspells.digitValue?_ne_none (by omega) hmem hplus hnone

theorem Unmarked.of_head {head : List Char} (h : Unmarked text) (hhead : head <+: text) :
    Unmarked head := by
  obtain ⟨tail, rfl⟩ := hhead
  constructor
  . rintro mark rest hmark rfl
    exact h.ne_hex mark (rest ++ tail) hmark rfl
  . rintro rest rfl
    exact h.ne_negative (rest ++ tail) rfl

theorem Literal.fits_of_zero (h : Literal ['0'] value) : Fits value := by
  have hunmarked : Unmarked ['0'] := ⟨by simp, by simp⟩
  obtain ⟨n, hspells, rfl⟩ := hunmarked.literal_iff.1 h
  have hlt : n < 10 := ((spellsUnsigned_iff_of_ne (by simp)).1 hspells).lt_of_singleton
  rw [fits_natCast_iff]
  omega

/--
A text with some characters in front overflows if its digits do, provided that no initial part of the text that
stops short of the digits does.
-/
theorem overflows_append_iff (front : List Char) {spells : List Char → Nat → Prop}
    {number : Nat → Int} {limit : Nat}
    (hliteral : ∀ digits n, spells digits n → Literal (front ++ digits) (number n))
    (hhead : ∀ head value, head <+: front ++ text → Literal head value → Fits value
      ∨ ∃ digits n, head = front ++ digits ∧ digits <+: text ∧ spells digits n ∧ value = number n)
    (hfits : ∀ n, Fits (number n) ↔ n ≤ limit) :
    Overflows (front ++ text) ↔ ∃ digits n, digits <+: text ∧ spells digits n ∧ limit < n := by
  constructor
  . rintro ⟨head, hinitial, value, h, hnot⟩
    obtain hfit | ⟨digits, n, _, hdigits, hspells, rfl⟩ := hhead head value hinitial h
    . exact absurd hfit hnot
    . rw [hfits, Nat.not_le] at hnot
      exact ⟨digits, n, hdigits, hspells, hnot⟩
  . rintro ⟨digits, n, hdigits, hspells, hpasses⟩
    refine ⟨front ++ digits, ?_, number n, hliteral digits n hspells, ?_⟩
    . rwa [List.prefix_append_right_inj]
    . rwa [hfits, Nat.not_le]

theorem overflows_hex_iff (hmark : mark = 'x' ∨ mark = 'X') :
    Overflows ('0' :: mark :: text) ↔
      ∃ digits n, digits <+: text ∧ SpellsUnsigned 16 digits n ∧ 0xffffffff < n := by
  refine overflows_append_iff ['0', mark] ?_ ?_ (fun _ => fits_natCast_iff)
  . intro digits n hspells
    exact .hex hmark hspells
  . intro head value hinitial h
    obtain rfl | ⟨behind, rfl, hbehind⟩ := List.prefix_cons_iff.1 hinitial
    . exact absurd rfl h.ne_nil
    obtain rfl | ⟨digits, rfl, hdigits⟩ := List.prefix_cons_iff.1 hbehind
    . exact .inl h.fits_of_zero
    . obtain ⟨n, hspells, hvalue⟩ := (literal_hex_iff hmark).1 h
      exact .inr ⟨digits, n, rfl, hdigits, hspells, hvalue⟩

theorem overflows_negative_iff :
    Overflows ('-' :: text) ↔ ∃ digits n, digits <+: text ∧ Spells 10 digits n ∧ 0x80000000 < n := by
  refine overflows_append_iff ['-'] ?_ ?_ (fun _ => fits_neg_natCast_iff)
  . intro digits n hspells
    exact .negative hspells
  . intro head value hinitial h
    obtain rfl | ⟨digits, rfl, hdigits⟩ := List.prefix_cons_iff.1 hinitial
    . exact absurd rfl h.ne_nil
    . obtain ⟨n, hspells, hvalue⟩ := literal_negative_iff.1 h
      exact .inr ⟨digits, n, rfl, hdigits, hspells, hvalue⟩

theorem Unmarked.overflows_iff (hunmarked : Unmarked text) :
    Overflows text ↔ ∃ digits n, digits <+: text ∧ SpellsUnsigned 10 digits n ∧ 0xffffffff < n := by
  refine overflows_append_iff [] ?_ ?_ (fun _ => fits_natCast_iff)
  . intro digits n hspells
    exact .decimal hspells
  . intro head value hinitial h
    obtain ⟨n, hspells, hvalue⟩ := (hunmarked.of_head hinitial).literal_iff.1 h
    exact .inr ⟨head, n, rfl, hinitial, hspells, hvalue⟩

theorem map_eq_ok_iff_fits {result : Except Fault Nat} {spells : Nat → Prop} {limit : Nat}
    {number : Nat → Int} {toWord : Nat → Word} (hread : ∀ n, result = .ok n ↔ spells n ∧ n ≤ limit)
    (hfits : ∀ n, Fits (number n) ↔ n ≤ limit) (hword : ∀ n, BitVec.ofInt 32 (number n) = toWord n) :
    result.map toWord = .ok word ↔
      ∃ value, (∃ n, spells n ∧ value = number n) ∧ Fits value ∧ word = BitVec.ofInt 32 value := by
  rw [Except.map_eq_ok_iff]
  constructor
  . rintro ⟨n, hresult, rfl⟩
    obtain ⟨hspells, hle⟩ := (hread n).1 hresult
    exact ⟨number n, ⟨n, hspells, rfl⟩, (hfits n).2 hle, (hword n).symm⟩
  . rintro ⟨_, ⟨n, hspells, rfl⟩, hfit, rfl⟩
    exact ⟨n, (hread n).2 ⟨hspells, (hfits n).1 hfit⟩, (hword n).symm⟩

theorem map_readUnsigned_eq_ok_iff {base : Nat} (hbase : base ≤ 16) :
    (readUnsigned base 0xffffffff text).map (BitVec.ofNat 32) = .ok word ↔
      ∃ value : Int, (∃ n : Nat, SpellsUnsigned base text n ∧ value = n) ∧ Fits value
        ∧ word = BitVec.ofInt 32 value :=
  map_eq_ok_iff_fits (fun _ => readUnsigned_eq_ok_iff hbase) (fun _ => fits_natCast_iff)
    (BitVec.ofInt_natCast 32)

theorem map_read_eq_ok_iff :
    (Numeral.read 10 0x80000000 text).map (fun n => -BitVec.ofNat 32 n) = .ok word ↔
      ∃ value : Int, (∃ n : Nat, Spells 10 text n ∧ value = -n) ∧ Fits value
        ∧ word = BitVec.ofInt 32 value :=
  map_eq_ok_iff_fits (fun _ => read_eq_ok_iff (by omega)) (fun _ => fits_neg_natCast_iff)
    (fun _ => BitVec.neg_ofNat_eq_ofInt_neg.symm)

theorem readNumber_eq_ok_iff :
    readNumber text = .ok word ↔
      ∃ value, Literal text value ∧ Fits value ∧ word = BitVec.ofInt 32 value := by
  unfold readNumber
  split
  . rw [map_readUnsigned_eq_ok_iff (by omega)]
    simp only [literal_hex_iff (.inl rfl)]
  . rw [map_readUnsigned_eq_ok_iff (by omega)]
    simp only [literal_hex_iff (.inr rfl)]
  . rw [map_read_eq_ok_iff]
    simp only [literal_negative_iff]
  . next hlower hupper hnegative =>
    rw [map_readUnsigned_eq_ok_iff (by omega)]
    simp only [(unmarked_of_ne hlower hupper hnegative).literal_iff]

theorem readNumber_eq_tooLarge_iff : readNumber text = .error .tooLarge ↔ Overflows text := by
  unfold readNumber
  split
  . rw [Except.map_eq_error_iff, readUnsigned_eq_tooLarge_iff (by omega), overflows_hex_iff (.inl rfl)]
  . rw [Except.map_eq_error_iff, readUnsigned_eq_tooLarge_iff (by omega), overflows_hex_iff (.inr rfl)]
  . rw [Except.map_eq_error_iff, read_eq_tooLarge_iff (by omega), overflows_negative_iff]
  . next hlower hupper hnegative =>
    rw [Except.map_eq_error_iff, readUnsigned_eq_tooLarge_iff (by omega)]
    rw [(unmarked_of_ne hlower hupper hnegative).overflows_iff]

theorem readNumber_eq_malformed_iff :
    readNumber text = .error .malformed ↔ (∀ value, ¬Literal text value) ∧ ¬Overflows text := by
  constructor
  . intro h
    have hoverflows : ¬Overflows text := by
      rw [← readNumber_eq_tooLarge_iff, h, Except.error.injEq]
      decide
    refine ⟨?_, hoverflows⟩
    intro value hliteral
    -- a literal that does not fit would be too large as a whole
    have hfits : Fits value := by
      by_contra hfits
      exact hoverflows ⟨text, List.prefix_rfl, value, hliteral, hfits⟩
    have hok := readNumber_eq_ok_iff.2 ⟨value, hliteral, hfits, rfl⟩
    rw [h] at hok
    cases hok
  . rintro ⟨hliteral, hoverflows⟩
    cases h : readNumber text with
    | ok word =>
      obtain ⟨value, hvalue, _⟩ := readNumber_eq_ok_iff.1 h
      exact absurd hvalue (hliteral value)
    | error fault =>
      cases fault with
      | malformed => rfl
      | tooLarge => exact absurd (readNumber_eq_tooLarge_iff.1 h) hoverflows

theorem Literal.isBlank_eq_false_of_mem (h : Literal text value) {c : Char} (hmem : c ∈ text) :
    Text.isBlank c = false := by
  cases h with
  | hex hmark h =>
    rw [List.mem_cons, List.mem_cons] at hmem
    obtain rfl | rfl | hmem := hmem
    . rfl
    . obtain rfl | rfl := hmark
      . rfl
      . rfl
    . exact h.isBlank_eq_false_of_mem (by omega) hmem
  | decimal h => exact h.isBlank_eq_false_of_mem (by omega) hmem
  | negative h =>
    rw [List.mem_cons] at hmem
    obtain rfl | hmem := hmem
    . rfl
    . exact h.isBlank_eq_false_of_mem (by omega) hmem

theorem literal_of_mem_spellings {zeros : Nat} {spelling : String}
    (hmem : spelling ∈ word.spellings zeros) :
    ∃ value, Literal spelling.toList value ∧ Fits value ∧ word = BitVec.ofInt 32 value := by
  have hpadded {base : Nat} (hone : 1 < base) (hbase : base ≤ 16) (n : Nat) :
      Spells base (List.replicate zeros '0' ++ Nat.toDigits base n) n :=
    (spells_toDigits hone hbase n).replicate_zero_append (by omega) zeros
  have hunsigned : Fits word.toNat ∧ word = BitVec.ofInt 32 word.toNat := by
    have hlt := word.isLt
    refine ⟨fits_natCast_iff.2 (by omega), ?_⟩
    rw [BitVec.ofInt_natCast, BitVec.ofNat_toNat, BitVec.setWidth_eq]
  have hsigned : Fits word.toInt ∧ word = BitVec.ofInt 32 word.toInt := by
    have hge := word.le_toInt
    have hlt := word.toInt_lt
    exact ⟨⟨hge, by omega⟩, BitVec.ofInt_toInt.symm⟩
  simp only [spellings, List.mem_cons, List.not_mem_nil, or_false] at hmem
  obtain rfl | rfl | rfl := hmem
  . refine ⟨word.toNat, ?_, hunsigned⟩
    simp only [String.toList_append, String.toList_ofList, digits]
    exact .hex (.inl rfl) (.bare (hpadded (by omega) (by omega) _))
  . refine ⟨word.toNat, ?_, hunsigned⟩
    rw [String.toList_append, String.toList_ofList, toList_decimal]
    exact .decimal (.bare (hpadded (by omega) (by omega) _))
  . refine ⟨word.toInt, ?_, hsigned⟩
    rw [String.toList_append, String.toList_append, String.toList_ofList, toList_decimal]
    split
    . next hnegative =>
      have hvalue : word.toInt = -(word.toInt.natAbs : Int) := by omega
      rw [List.append_assoc]
      nth_rewrite 2 [hvalue]
      exact .negative (hpadded (by omega) (by omega) _)
    . next hnonneg =>
      have hvalue : word.toInt = (word.toInt.natAbs : Int) := by omega
      nth_rewrite 2 [hvalue]
      exact .decimal (.bare (hpadded (by omega) (by omega) _))

end Word

end Mips32
