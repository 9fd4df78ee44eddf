import Mips32.Proofs.Mnemonic
import Mips32.Proofs.Release2

/-!
This module contains the verification of what the text of a legal word tells about the word. In a set whose
names differ the text gives away the instruction and the values that it shows. Where key, constraints and
text together settle all fields, it gives away the word.
-/

namespace Mips32

namespace Instruction

variable {instruction instruction₁ instruction₂ : Instruction} {word₁ word₂ : Word}

@[mk_iff]
structure Legible (instruction : Instruction) : Prop where
  name : ' ' ∉ instruction.name.toList
  operands : ∀ operand ∈ instruction.pattern.parts, ∃ entry ∈ instruction.format.fieldWidths,
    entry.1 = operand.field ∧ operand.kind.Holds entry.2

instance (instruction : Instruction) : Decidable instruction.Legible :=
  decidable_of_iff _ (legible_iff instruction).symm

theorem Legible.separable_canonical (h : instruction.Legible) (fields : Fields) :
    (instruction.canonical fields).Separable := by
  rw [canonical_eq]
  exact ⟨h.name, Pattern.comma_not_mem_operandsOf⟩

theorem Legible.name_eq {fields₁ fields₂ : Fields} (h₁ : instruction₁.Legible)
    (h₂ : instruction₂.Legible)
    (h : (instruction₁.canonical fields₁).text = (instruction₂.canonical fields₂).text) :
    instruction₁.name = instruction₂.name := by
  have hmnemonic := Mnemonic.text_injective
    (h₁.separable_canonical fields₁) (h₂.separable_canonical fields₂) h
  exact congrArg Mnemonic.name hmnemonic

/-- Whether two words agree on the fields that an instruction shows. -/
def ShowsAlike (instruction : Instruction) (word₁ word₂ : Word) : Prop :=
  ∀ field ∈ instruction.pattern.fields,
    (Fields.mk word₁ instruction.format).value field = (Fields.mk word₂ instruction.format).value field

theorem Legible.text_canonical_eq_iff (h : instruction.Legible) :
    (instruction.canonical ⟨word₁, instruction.format⟩).text
        = (instruction.canonical ⟨word₂, instruction.format⟩).text ↔
      instruction.ShowsAlike word₁ word₂ := by
  constructor
  . intro htext
    have hmnemonic := Mnemonic.text_injective
      (h.separable_canonical _) (h.separable_canonical _) htext
    rw [canonical_eq, canonical_eq, Mnemonic.mk.injEq] at hmnemonic
    apply Pattern.operandsOf_injective _ hmnemonic.2
    intro operand hmem
    obtain ⟨⟨_, width⟩, hentry, rfl, hholds⟩ := h.operands operand hmem
    exact ⟨width, hholds, Fields.value_lt hentry, Fields.value_lt hentry⟩
  . intro hvalue
    rw [canonical_eq, canonical_eq, Pattern.operandsOf_congr hvalue]

theorem WellFormed.showsAlike_iff (hwellFormed : instruction.WellFormed) :
    instruction.ShowsAlike word₁ word₂ ↔
      ∀ field ∈ instruction.pattern.fields,
        (Fields.mk word₁ instruction.format).get? field
          = (Fields.mk word₂ instruction.format).get? field := by
  apply forall₂_congr
  intro field hfield
  have hmem := hwellFormed.shown_mem_fields field hfield
  rw [Fields.get?_eq_value hmem, Fields.get?_eq_value hmem, Option.some.injEq]

/-- Whether the key, a constraint or the text tells the value of a field. -/
def Settles (instruction : Instruction) (field : Field) : Prop :=
  field ∈ instruction.key.fields
    ∨ field ∈ instruction.constraints.map Constraint.field
    ∨ field ∈ instruction.pattern.fields

instance (instruction : Instruction) (field : Field) : Decidable (instruction.Settles field) := by
  unfold Settles
  infer_instance

theorem WellFormed.word_eq_of_settles (hwellFormed : instruction.WellFormed)
    (hsettles : ∀ field ∈ instruction.format.fields, instruction.Settles field)
    (hkey₁ : instruction.key = Fields.key ⟨word₁, instruction.format⟩)
    (hkey₂ : instruction.key = Fields.key ⟨word₂, instruction.format⟩)
    (hnil₁ : instruction.violations ⟨word₁, instruction.format⟩ = [])
    (hnil₂ : instruction.violations ⟨word₂, instruction.format⟩ = [])
    (halike : instruction.ShowsAlike word₁ word₂) :
    word₁ = word₂ := by
  have hconstraints := hwellFormed.constraint_mem_fields
  apply Fields.word_eq_of_value_eq
  intro field hfield
  obtain hkey | hconstraint | hpattern := hsettles field hfield
  . unfold Key.fields at hkey
    rw [List.mem_map] at hkey
    obtain ⟨part, hpart, rfl⟩ := hkey
    have hvalue₁ := hwellFormed.key_eq_iff.1 hkey₁ part hpart
    have hvalue₂ := hwellFormed.key_eq_iff.1 hkey₂ part hpart
    rw [Fields.get?_eq_some_iff hfield] at hvalue₁ hvalue₂
    rw [hvalue₁, hvalue₂]
  . rw [List.mem_map] at hconstraint
    obtain ⟨constraint, hmem, rfl⟩ := hconstraint
    rw [(Fields.violations_eq_nil_iff hconstraints).1 hnil₁ constraint hmem]
    rw [(Fields.violations_eq_nil_iff hconstraints).1 hnil₂ constraint hmem]
  . exact halike field hpattern

end Instruction

namespace Release2

/-- The instructions that leave some bits of their words without a meaning. -/
def loose : List String :=
  ["syscall", "break", "tge", "tgeu", "tlt", "tltu", "teq", "tne", "clz", "clo"]

theorem legible_rows : ∀ row ∈ rows, row.Legible := by
  decide +kernel

theorem mem_loose_iff : ∀ row ∈ rows,
    row.name ∈ loose ↔ ∃ field ∈ row.format.fields, ¬ row.Settles field := by
  decide +kernel

theorem nodup_names_rows : (rows.map Instruction.name).Nodup := by
  decide +kernel

theorem name_ne_nop : ∀ row ∈ rows, row.name ≠ "nop" := by
  decide +kernel

end Release2

namespace InstructionSet

variable {word word₁ word₂ : Word} {instruction instruction₁ instruction₂ : Instruction}
variable {disassembly disassembly₁ disassembly₂ : Disassembly}

theorem legible_of_identify? (h : release2.identify? word = some instruction) : instruction.Legible :=
  Release2.legible_rows instruction (mem_of_identify? h)

theorem eq_of_name_eq (h₁ : release2.identify? word₁ = some instruction₁)
    (h₂ : release2.identify? word₂ = some instruction₂)
    (hname : instruction₁.name = instruction₂.name) : instruction₁ = instruction₂ :=
  List.inj_on_of_nodup_map Release2.nodup_names_rows
    (mem_of_identify? h₁) (mem_of_identify? h₂) hname

theorem text_canonical_ne_nop (h : release2.identify? word = some instruction) (fields : Fields) :
    (instruction.canonical fields).text ≠ "nop" := by
  intro htext
  have hnop : (⟨"nop", []⟩ : Mnemonic).Separable := by
    constructor
    . decide
    . intro operand hmem
      contradiction
  have hmnemonic := Mnemonic.text_injective
    ((legible_of_identify? h).separable_canonical fields) hnop htext
  exact Release2.name_ne_nop instruction (mem_of_identify? h) (congrArg Mnemonic.name hmnemonic)

theorem eq_of_decode_eq_legal (h : release2.decode word = .legal disassembly)
    (hidentify : release2.identify? word = some instruction) :
    disassembly = ⟨⟨word, instruction.format⟩,
      if word = 0 then ⟨"nop", []⟩ else instruction.canonical ⟨word, instruction.format⟩⟩ := by
  have hdisassembly := disassembly?_decode hidentify
  rw [h] at hdisassembly
  exact Option.some.inj hdisassembly

theorem violations_eq_nil_of_decode_eq_legal (h : release2.decode word = .legal disassembly)
    (hidentify : release2.identify? word = some instruction) :
    instruction.violations ⟨word, instruction.format⟩ = [] :=
  (exists_decode_eq_legal_iff hidentify).1 ⟨disassembly, h⟩

theorem text_eq_nop_iff (h : release2.decode word = .legal disassembly) :
    disassembly.mnemonic.text = "nop" ↔ word = 0 := by
  obtain ⟨instruction, hidentify, _⟩ := decode_eq_legal_iff.1 h
  rw [eq_of_decode_eq_legal h hidentify]
  by_cases hzero : word = 0
  . rw [if_pos hzero]
    exact iff_of_true rfl hzero
  . rw [if_neg hzero]
    exact iff_of_false (text_canonical_ne_nop hidentify _) hzero

theorem not_mem_loose_of_identify?_zero (h : release2.identify? 0 = some instruction) :
    instruction.name ∉ Release2.loose := by
  rw [identify?_zero, Option.some.injEq] at h
  rw [← h]
  decide

theorem word_eq_of_not_mem_loose (h₁ : release2.decode word₁ = .legal disassembly₁)
    (h₂ : release2.decode word₂ = .legal disassembly₂)
    (hidentify₁ : release2.identify? word₁ = some instruction)
    (hidentify₂ : release2.identify? word₂ = some instruction)
    (hloose : instruction.name ∉ Release2.loose)
    (halike : instruction.ShowsAlike word₁ word₂) :
    word₁ = word₂ := by
  obtain ⟨hmem, hkey₁⟩ := identify?_eq_some_iff_key.1 hidentify₁
  obtain ⟨_, hkey₂⟩ := identify?_eq_some_iff_key.1 hidentify₂
  apply (release2.wellFormed instruction hmem).word_eq_of_settles _ hkey₁ hkey₂
  . exact violations_eq_nil_of_decode_eq_legal h₁ hidentify₁
  . exact violations_eq_nil_of_decode_eq_legal h₂ hidentify₂
  . exact halike
  . intro field hfield
    by_contra hsettles
    exact hloose ((Release2.mem_loose_iff instruction hmem).2 ⟨field, hfield, hsettles⟩)

theorem eq_and_showsAlike_of_text_eq (h₁ : release2.decode word₁ = .legal disassembly₁)
    (h₂ : release2.decode word₂ = .legal disassembly₂)
    (hidentify₁ : release2.identify? word₁ = some instruction₁)
    (hidentify₂ : release2.identify? word₂ = some instruction₂)
    (htext : disassembly₁.mnemonic.text = disassembly₂.mnemonic.text) :
    instruction₁ = instruction₂ ∧ instruction₁.ShowsAlike word₁ word₂ := by
  -- no name in the table is `nop`, so either both words are shown by the alias or none is
  have hnop : word₁ = 0 ↔ word₂ = 0 := by
    rw [← text_eq_nop_iff h₁, ← text_eq_nop_iff h₂, htext]
  by_cases hzero : word₁ = 0
  . rw [hnop.1 hzero] at hidentify₂ ⊢
    rw [hzero] at hidentify₁ ⊢
    rw [hidentify₁, Option.some.injEq] at hidentify₂
    exact ⟨hidentify₂, fun _ _ => rfl⟩
  . rw [eq_of_decode_eq_legal h₁ hidentify₁, eq_of_decode_eq_legal h₂ hidentify₂] at htext
    rw [if_neg hzero, if_neg (mt hnop.2 hzero)] at htext
    have hlegible₁ := legible_of_identify? hidentify₁
    have hlegible₂ := legible_of_identify? hidentify₂
    have heq := eq_of_name_eq hidentify₁ hidentify₂ (hlegible₁.name_eq hlegible₂ htext)
    subst heq
    exact ⟨rfl, hlegible₁.text_canonical_eq_iff.1 htext⟩

theorem text_eq_of_showsAlike (h₁ : release2.decode word₁ = .legal disassembly₁)
    (h₂ : release2.decode word₂ = .legal disassembly₂)
    (hidentify₁ : release2.identify? word₁ = some instruction)
    (hidentify₂ : release2.identify? word₂ = some instruction)
    (halike : instruction.ShowsAlike word₁ word₂) :
    disassembly₁.mnemonic.text = disassembly₂.mnemonic.text := by
  by_cases hzero : word₁ = 0 ∨ word₂ = 0
  -- the word 0 has a text of its own, but no other legal word agrees with it on what `sll` shows
  . have hloose : instruction.name ∉ Release2.loose := by
      cases hzero with
      | inl hzero =>
        rw [hzero] at hidentify₁
        exact not_mem_loose_of_identify?_zero hidentify₁
      | inr hzero =>
        rw [hzero] at hidentify₂
        exact not_mem_loose_of_identify?_zero hidentify₂
    have hword := word_eq_of_not_mem_loose h₁ h₂ hidentify₁ hidentify₂ hloose halike
    rw [hword, h₂, Decoding.legal.injEq] at h₁
    rw [h₁]
  . rw [not_or] at hzero
    rw [eq_of_decode_eq_legal h₁ hidentify₁, eq_of_decode_eq_legal h₂ hidentify₂]
    rw [if_neg hzero.1, if_neg hzero.2]
    exact (legible_of_identify? hidentify₁).text_canonical_eq_iff.2 halike

theorem word_eq_of_text_eq (h₁ : release2.decode word₁ = .legal disassembly₁)
    (h₂ : release2.decode word₂ = .legal disassembly₂)
    (hloose : disassembly₁.mnemonic.name ∉ Release2.loose)
    (htext : disassembly₁.mnemonic.text = disassembly₂.mnemonic.text) : word₁ = word₂ := by
  obtain ⟨instruction₁, hidentify₁, _⟩ := decode_eq_legal_iff.1 h₁
  obtain ⟨instruction₂, hidentify₂, _⟩ := decode_eq_legal_iff.1 h₂
  obtain ⟨rfl, halike⟩ := eq_and_showsAlike_of_text_eq h₁ h₂ hidentify₁ hidentify₂ htext
  apply word_eq_of_not_mem_loose h₁ h₂ hidentify₁ hidentify₂ _ halike
  by_cases hzero : word₁ = 0
  . rw [hzero] at hidentify₁
    exact not_mem_loose_of_identify?_zero hidentify₁
  . rw [eq_of_decode_eq_legal h₁ hidentify₁, if_neg hzero] at hloose
    exact hloose

/--
Legal words of Release 2 have the same text exactly if they have the same key and agree on what their
instruction shows. Unless the instruction is a loose one they are then the same word.
-/
theorem text_eq_iff_of_decode_eq_legal (h₁ : release2.decode word₁ = .legal disassembly₁)
    (h₂ : release2.decode word₂ = .legal disassembly₂) :
    (∃ instruction, release2.identify? word₁ = some instruction
        ∧ (disassembly₁.mnemonic.text = disassembly₂.mnemonic.text ↔
            disassembly₁.fields.key = disassembly₂.fields.key
              ∧ ∀ field ∈ instruction.pattern.fields,
                disassembly₁.fields.get? field = disassembly₂.fields.get? field))
      ∧ (∀ row ∈ release2.instructions,
          row.name ∈ Release2.loose ↔ ∃ field ∈ row.format.fields, ¬ row.Settles field)
      ∧ (disassembly₁.mnemonic.name ∉ Release2.loose →
          disassembly₁.mnemonic.text = disassembly₂.mnemonic.text → word₁ = word₂)
      ∧ (disassembly₁.mnemonic.text = "nop" ↔ word₁ = 0) := by
  obtain ⟨instruction₁, hidentify₁, _⟩ := decode_eq_legal_iff.1 h₁
  obtain ⟨instruction₂, hidentify₂, _⟩ := decode_eq_legal_iff.1 h₂
  have hfields₁ : disassembly₁.fields = ⟨word₁, instruction₁.format⟩ := by
    rw [eq_of_decode_eq_legal h₁ hidentify₁]
  have hfields₂ : disassembly₂.fields = ⟨word₂, instruction₂.format⟩ := by
    rw [eq_of_decode_eq_legal h₂ hidentify₂]
  have hwellFormed := wellFormed_of_identify? hidentify₁
  refine ⟨⟨instruction₁, hidentify₁, ?_⟩, Release2.mem_loose_iff, ?_, text_eq_nop_iff h₁⟩
  . rw [hfields₁, hfields₂, key_eq_key_iff hidentify₁ hidentify₂]
    constructor
    . intro htext
      obtain ⟨rfl, halike⟩ := eq_and_showsAlike_of_text_eq h₁ h₂ hidentify₁ hidentify₂ htext
      exact ⟨rfl, hwellFormed.showsAlike_iff.1 halike⟩
    . rintro ⟨rfl, halike⟩
      exact text_eq_of_showsAlike h₁ h₂ hidentify₁ hidentify₂ (hwellFormed.showsAlike_iff.2 halike)
  . exact word_eq_of_text_eq h₁ h₂

/-- Traps with different codes are different words with the same text. -/
theorem text_eq_of_decode_tge :
    let fields₁ : Fields := ⟨0x01090030, .register⟩
    let fields₂ : Fields := ⟨0x010907f0, .register⟩
    let mnemonic : Mnemonic := ⟨"tge", ["$t0", "$t1"]⟩
    release2.decode fields₁.word = .legal ⟨fields₁, mnemonic⟩
      ∧ release2.decode fields₂.word = .legal ⟨fields₂, mnemonic⟩
      ∧ fields₁.key = fields₂.key
      ∧ fields₁.word ≠ fields₂.word := by
  have h₁ : release2.decode 0x01090030
      = .legal ⟨⟨0x01090030, .register⟩, ⟨"tge", ["$t0", "$t1"]⟩⟩ := by
    decide +kernel
  have h₂ : release2.decode 0x010907f0
      = .legal ⟨⟨0x010907f0, .register⟩, ⟨"tge", ["$t0", "$t1"]⟩⟩ := by
    decide +kernel
  obtain ⟨⟨_, _, htext⟩, _⟩ := text_eq_iff_of_decode_eq_legal h₁ h₂
  exact ⟨h₁, h₂, (htext.1 rfl).1, by decide⟩

end InstructionSet

end Mips32
