import Mathlib.Data.List.Nodup
import Mips32.Proofs.Basic
import Mips32.Proofs.Instruction
import Mips32.Proofs.Numeral

/-!
This module contains the verification of assembly text: a line of assembly can be taken apart into the name
and the operands, and an operand into the value of its field. The marks that hold a line together, which
are the blank, the comma and the opening parenthesis, never occur in the text of a field.
-/

namespace Mips32

namespace Register

theorem text_of_lt {index : Nat} (h : index < names.length) : text index = names[index] := by
  unfold text name?
  rw [List.getElem?_eq_getElem h, Option.getD_some]

theorem text_of_ge {index : Nat} (h : names.length ≤ index) :
    text index = Numeral.decimal index := by
  unfold text name?
  rw [List.getElem?_eq_none h, Option.getD_none]

theorem text_ne_text {m n : Nat} (hm : m < names.length) (hn : names.length ≤ n) :
    text m ≠ text n := by
  intro h
  have hmark : '$' ∈ (text m).toList := by
    have hall : ∀ index < names.length, '$' ∈ (text index).toList := by
      decide
    exact hall m hm
  rw [h, text_of_ge hn] at hmark
  have halphanum := Numeral.isAlphanum_of_mem_decimal hmark
  contradiction

theorem text_injective {m n : Nat} (h : text m = text n) : m = n := by
  cases Nat.lt_or_ge m names.length with
  | inl hm =>
    cases Nat.lt_or_ge n names.length with
    | inl hn =>
      have hnodup : names.Nodup := by
        decide
      rw [text_of_lt hm, text_of_lt hn, hnodup.getElem_inj_iff] at h
      exact h
    | inr hn => exact absurd h (text_ne_text hm hn)
  | inr hm =>
    cases Nat.lt_or_ge n names.length with
    | inl hn => exact absurd h.symm (text_ne_text hn hm)
    | inr hn =>
      rw [text_of_ge hm, text_of_ge hn] at h
      exact Numeral.decimal_injective h

end Register

namespace Operand

def admits (c : Char) : Bool :=
  c.isAlphanum || c == '$' || c == '-'

theorem admits_of_isAlphanum {c : Char} (h : c.isAlphanum = true) : admits c = true := by
  unfold admits
  rw [h]
  rfl

theorem admits_of_mem_decimal {n : Nat} {c : Char} (hmem : c ∈ (Numeral.decimal n).toList) :
    admits c = true := by
  apply admits_of_isAlphanum
  exact Numeral.isAlphanum_of_mem_decimal hmem

theorem admits_of_mem_append {mark : String} {n : Nat} {c : Char}
    (hmark : mark.toList.all admits = true)
    (hmem : c ∈ (mark ++ Numeral.decimal n).toList) : admits c = true := by
  rw [String.toList_append, List.mem_append] at hmem
  cases hmem with
  | inl hmem => exact List.all_eq_true.1 hmark c hmem
  | inr hmem => exact admits_of_mem_decimal hmem

theorem admits_of_mem_signed {i : Int} {c : Char} (hmem : c ∈ (Numeral.signed i).toList) :
    admits c = true := by
  cases Numeral.of_mem_signed hmem with
  | inl halphanum => exact admits_of_isAlphanum halphanum
  | inr hsign =>
    rw [hsign]
    rfl

theorem admits_of_mem_register {index : Nat} {c : Char} (hmem : c ∈ (Register.text index).toList) :
    admits c = true := by
  cases Nat.lt_or_ge index Register.names.length with
  | inl hlt =>
    have hall : ∀ index < Register.names.length,
        (Register.text index).toList.all admits = true := by
      decide
    exact List.all_eq_true.1 (hall index hlt) c hmem
  | inr hge =>
    rw [Register.text_of_ge hge] at hmem
    exact admits_of_mem_decimal hmem

theorem Kind.admits_of_mem_text {kind : Kind} {value : Nat} {c : Char}
    (hmem : c ∈ (kind.text value).toList) : admits c = true := by
  cases kind with
  | gpr => exact admits_of_mem_register hmem
  | cop0 => exact admits_of_mem_append rfl hmem
  | fpr => exact admits_of_mem_append rfl hmem
  | immediate => exact admits_of_mem_signed hmem
  | label => exact admits_of_mem_signed hmem
  | amount => exact admits_of_mem_decimal hmem
  | target =>
    apply admits_of_isAlphanum
    exact Numeral.isAlphanum_of_mem_hex hmem

theorem Kind.not_mem_text {kind : Kind} {value : Nat} {mark : Char} (h : admits mark = false) :
    mark ∉ (kind.text value).toList := by
  intro hmem
  rw [admits_of_mem_text hmem] at h
  contradiction

def Kind.Holds : Kind → Nat → Prop
  | .immediate, width => width ≤ 16
  | .label, width => width ≤ 16
  | _, _ => True

instance (kind : Kind) (width : Nat) : Decidable (kind.Holds width) := by
  unfold Kind.Holds
  split <;> infer_instance

theorem signedHalfword_eq_iff {m n : Nat} :
    signedHalfword m = signedHalfword n ↔ m % 2 ^ 16 = n % 2 ^ 16 := by
  unfold signedHalfword
  rw [BitVec.toInt_inj, ← BitVec.toNat_inj, BitVec.toNat_ofNat, BitVec.toNat_ofNat]

theorem signedHalfword_injective {m n : Nat} (hm : m < 2 ^ 16) (hn : n < 2 ^ 16)
    (h : signedHalfword m = signedHalfword n) : m = n := by
  rw [signedHalfword_eq_iff, Nat.mod_eq_of_lt hm, Nat.mod_eq_of_lt hn] at h
  exact h

theorem Kind.text_injective {kind : Kind} {width m n : Nat} (hholds : kind.Holds width)
    (hm : m < 2 ^ width) (hn : n < 2 ^ width) (h : kind.text m = kind.text n) : m = n := by
  have hhalfword (hwidth : width ≤ 16) (h : Numeral.signed (signedHalfword m)
      = Numeral.signed (signedHalfword n)) : m = n := by
    have hle : 2 ^ width ≤ 2 ^ 16 := Nat.pow_le_pow_right (by omega) hwidth
    apply signedHalfword_injective (by omega) (by omega)
    exact Numeral.signed_injective h
  cases kind with
  | gpr => exact Register.text_injective h
  | cop0 =>
    apply Numeral.decimal_injective
    exact (String.append_right_inj "$").1 h
  | fpr =>
    apply Numeral.decimal_injective
    exact (String.append_right_inj "$f").1 h
  | immediate => exact hhalfword hholds h
  | label => exact hhalfword hholds h
  | amount => exact Numeral.decimal_injective h
  | target => exact Numeral.hex_injective h

end Operand

namespace Pattern

def parts : Pattern → List Operand
  | .bare => []
  | .list operands => operands
  | .address register offset base => [⟨.gpr, register⟩, ⟨.immediate, offset⟩, ⟨.gpr, base⟩]

theorem fields_eq (pattern : Pattern) : pattern.fields = pattern.parts.map Operand.field := by
  cases pattern <;> rfl

theorem comma_not_mem_operandsOf {pattern : Pattern} {value : Field → Nat} :
    ∀ operand ∈ pattern.operandsOf value, ',' ∉ operand.toList := by
  intro operand hmem
  cases pattern with
  | bare => contradiction
  | list operands =>
    unfold operandsOf at hmem
    rw [List.mem_map] at hmem
    obtain ⟨_, _, rfl⟩ := hmem
    exact Operand.Kind.not_mem_text rfl
  | address register offset base =>
    simp only [operandsOf, List.mem_cons, List.not_mem_nil, or_false] at hmem
    cases hmem with
    | inl hregister =>
      rw [hregister]
      exact Operand.Kind.not_mem_text rfl
    | inr haddress =>
      rw [haddress]
      have hoffset : ',' ∉ (Operand.Kind.immediate.text (value offset)).toList :=
        Operand.Kind.not_mem_text rfl
      have hbase : ',' ∉ (Operand.Kind.gpr.text (value base)).toList :=
        Operand.Kind.not_mem_text rfl
      simp [hoffset, hbase]

theorem address_injective {offset₁ offset₂ base₁ base₂ : String}
    (h₁ : '(' ∉ offset₁.toList) (h₂ : '(' ∉ offset₂.toList)
    (h : offset₁ ++ "(" ++ base₁ ++ ")" = offset₂ ++ "(" ++ base₂ ++ ")") :
    offset₁ = offset₂ ∧ base₁ = base₂ := by
  rw [String.append_left_inj] at h
  have hlist := congrArg String.toList h
  simp only [String.append_assoc, String.toList_append] at hlist
  obtain ⟨hoffset, hbase⟩ := Separator.cut_unique h₁ h₂ hlist
  exact ⟨String.toList_injective hoffset, String.toList_injective hbase⟩

theorem operandsOf_injective {pattern : Pattern} {value₁ value₂ : Field → Nat}
    (hholds : ∀ operand ∈ pattern.parts, ∃ width, operand.kind.Holds width
      ∧ value₁ operand.field < 2 ^ width ∧ value₂ operand.field < 2 ^ width)
    (h : pattern.operandsOf value₁ = pattern.operandsOf value₂) :
    ∀ field ∈ pattern.fields, value₁ field = value₂ field := by
  have hpart : ∀ operand ∈ pattern.parts,
      operand.kind.text (value₁ operand.field) = operand.kind.text (value₂ operand.field) := by
    cases pattern with
    | bare => intro operand hmem; contradiction
    | list operands => exact List.map_inj_left.1 h
    | address register offset base =>
      simp only [operandsOf, List.cons.injEq, and_true] at h
      obtain ⟨hregister, haddress⟩ := h
      obtain ⟨hoffset, hbase⟩ :=
        address_injective (Operand.Kind.not_mem_text rfl) (Operand.Kind.not_mem_text rfl) haddress
      simp only [parts, List.forall_mem_cons, List.not_mem_nil, false_implies, implies_true, and_true]
      exact ⟨hregister, hoffset, hbase⟩
  intro field hfield
  rw [fields_eq, List.mem_map] at hfield
  obtain ⟨operand, hmem, rfl⟩ := hfield
  obtain ⟨width, hwidth, hlt₁, hlt₂⟩ := hholds operand hmem
  exact Operand.Kind.text_injective hwidth hlt₁ hlt₂ (hpart operand hmem)

end Pattern

namespace Mnemonic

/-- Neither the name nor an operand holds the mark that follows it in the text. -/
structure Separable (mnemonic : Mnemonic) : Prop where
  name : ' ' ∉ mnemonic.name.toList
  operands : ∀ operand ∈ mnemonic.operands, ',' ∉ operand.toList

theorem toList_text_of_ne_nil {mnemonic : Mnemonic} (h : mnemonic.operands ≠ []) :
    mnemonic.text.toList
      =
    mnemonic.name.toList
      ++ ' ' :: [',', ' '].intercalate (mnemonic.operands.map String.toList) := by
  unfold text
  split
  . contradiction
  . simp

theorem text_ne_text {mnemonic₁ mnemonic₂ : Mnemonic} (h₁ : mnemonic₁.Separable)
    (hnil₁ : mnemonic₁.operands = []) (hnil₂ : mnemonic₂.operands ≠ []) :
    mnemonic₁.text ≠ mnemonic₂.text := by
  intro h
  have htext : mnemonic₁.text = mnemonic₁.name := by
    unfold text
    rw [hnil₁]
  have hname := h₁.name
  rw [← htext, h, toList_text_of_ne_nil hnil₂] at hname
  simp at hname

theorem text_injective {mnemonic₁ mnemonic₂ : Mnemonic} (h₁ : mnemonic₁.Separable)
    (h₂ : mnemonic₂.Separable) (h : mnemonic₁.text = mnemonic₂.text) : mnemonic₁ = mnemonic₂ := by
  -- a blank in the text tells whether there are operands
  by_cases hnil₁ : mnemonic₁.operands = []
  . by_cases hnil₂ : mnemonic₂.operands = []
    . unfold text at h
      rw [hnil₁, hnil₂] at h
      rw [Mnemonic.mk.injEq, hnil₁, hnil₂]
      exact ⟨h, rfl⟩
    . exact absurd h (text_ne_text h₁ hnil₁ hnil₂)
  . by_cases hnil₂ : mnemonic₂.operands = []
    . exact absurd h.symm (text_ne_text h₂ hnil₂ hnil₁)
    . have hlist := congrArg String.toList h
      rw [toList_text_of_ne_nil hnil₁, toList_text_of_ne_nil hnil₂] at hlist
      obtain ⟨hname, hrest⟩ := Separator.cut_unique h₁.name h₂.name hlist
      have hoperands := Separator.intercalate_injective
        (by simpa using hnil₁) (by simpa using hnil₂)
        (List.forall_mem_map.2 h₁.operands) (List.forall_mem_map.2 h₂.operands) hrest
      rw [Mnemonic.mk.injEq]
      refine ⟨String.toList_injective hname, ?_⟩
      exact (List.map_inj_right fun _ _ => String.toList_injective).1 hoperands

end Mnemonic

end Mips32
