import Mathlib.Data.List.Nodup
import Mips32.Proofs.Release2

/-!
This module contains `Fields.repair`, which puts the expected values into fields that break constraints. A
repaired word is the same instruction, shown by the same text, and breaks exactly the constraints that the
repair left out.
-/

namespace Mips32

namespace Fields

/-- The word in which each field that a chosen violation names holds the expected value instead. -/
def repair (fields : Fields) (chosen : List Violation) : Word :=
  fields.format.assemble fun field =>
    match chosen.find? fun violation => violation.constraint.field = field with
    | some violation => violation.constraint.expected
    | none => fields.value field

theorem mem_violations_iff {fields : Fields} {constraints : List Constraint}
    (hmem : ∀ constraint ∈ constraints, constraint.field ∈ fields.format.fields)
    {violation : Violation} :
    violation ∈ fields.violations constraints ↔
      violation.constraint ∈ constraints
        ∧ fields.value violation.constraint.field ≠ violation.constraint.expected
        ∧ violation.actual = fields.value violation.constraint.field := by
  rw [violations_eq_map hmem, List.mem_map]
  constructor
  . rintro ⟨constraint, hconstraint, rfl⟩
    rw [List.mem_filter, decide_eq_true_eq] at hconstraint
    obtain ⟨hconstraint, hne⟩ := hconstraint
    rw [ne_eq, get?_eq_some_iff (hmem constraint hconstraint)] at hne
    exact ⟨hconstraint, hne, rfl⟩
  . rintro ⟨hconstraint, hne, hactual⟩
    refine ⟨violation.constraint, ?_, ?_⟩
    . rw [List.mem_filter, decide_eq_true_eq, ne_eq, get?_eq_some_iff (hmem _ hconstraint)]
      exact ⟨hconstraint, hne⟩
    . rw [← hactual]

theorem value_repair_of_unchosen {fields : Fields} {chosen : List Violation} {field : Field}
    (hfield : field ∈ fields.format.fields)
    (hunchosen : ∀ violation ∈ chosen, violation.constraint.field ≠ field) :
    (Fields.mk (fields.repair chosen) fields.format).value field = fields.value field := by
  obtain ⟨width, hentry⟩ := Format.mem_fields_iff.1 hfield
  have hfind : (chosen.find? fun violation => violation.constraint.field = field) = none := by
    rw [List.find?_eq_none]
    intro violation hviolation
    simpa using hunchosen violation hviolation
  unfold repair
  rw [value_assemble hentry]
  . rw [hfind]
  . rw [hfind]
    exact value_lt hentry

end Fields

namespace Instruction

variable {instruction : Instruction} {word : Word} {chosen : List Violation}

theorem Separate.constraint_eq (hseparate : instruction.Separate) {constraint₁ constraint₂ : Constraint}
    (hmem₁ : constraint₁ ∈ instruction.constraints) (hmem₂ : constraint₂ ∈ instruction.constraints)
    (hfield : constraint₁.field = constraint₂.field) : constraint₁ = constraint₂ :=
  List.inj_on_of_nodup_map hseparate.constrained_once hmem₁ hmem₂ hfield

theorem eq_of_mem_chosen (hwellFormed : instruction.WellFormed) (hseparate : instruction.Separate)
    (hchosen : chosen ⊆ instruction.violations ⟨word, instruction.format⟩) {constraint : Constraint}
    (hconstraint : constraint ∈ instruction.constraints) {violation : Violation}
    (hviolation : violation ∈ chosen) (hfield : violation.constraint.field = constraint.field) :
    violation = ⟨constraint, (Fields.mk word instruction.format).value constraint.field⟩ := by
  have hmem := Fields.mem_violations_iff hwellFormed.constraint_mem_fields |>.1 (hchosen hviolation)
  obtain ⟨hconstraint', _, hactual⟩ := hmem
  have heq := hseparate.constraint_eq hconstraint' hconstraint hfield
  obtain ⟨constraint', actual⟩ := violation
  dsimp at heq hactual
  subst heq
  rw [hactual]

theorem value_repair_of_mem (hwellFormed : instruction.WellFormed) (hseparate : instruction.Separate)
    (hchosen : chosen ⊆ instruction.violations ⟨word, instruction.format⟩) {constraint : Constraint}
    (hconstraint : constraint ∈ instruction.constraints) :
    (Fields.mk (Fields.repair ⟨word, instruction.format⟩ chosen) instruction.format).value
        constraint.field
      =
    if ⟨constraint, (Fields.mk word instruction.format).value constraint.field⟩ ∈ chosen then
      constraint.expected
    else (Fields.mk word instruction.format).value constraint.field := by
  have hfield := hwellFormed.constraint_mem_fields constraint hconstraint
  split
  . next hmem =>
    obtain ⟨width, hentry⟩ := Format.mem_fields_iff.1 hfield
    have hfind : ∃ violation, (chosen.find? fun violation =>
        violation.constraint.field = constraint.field) = some violation := by
      rw [← Option.isSome_iff_exists, List.find?_isSome]
      exact ⟨_, hmem, by simp⟩
    obtain ⟨violation, hfind⟩ := hfind
    -- the search asks for the field only, but a field is constrained once
    have hviolation := eq_of_mem_chosen hwellFormed hseparate hchosen hconstraint
      (List.mem_of_find?_eq_some hfind) (by simpa using List.find?_some hfind)
    unfold Fields.repair
    rw [Fields.value_assemble hentry]
    . rw [hfind, hviolation]
    . rw [hfind, hviolation]
      exact hseparate.expected_fits constraint hconstraint _ hentry rfl
  . next hnotMem =>
    apply Fields.value_repair_of_unchosen hfield
    intro violation hviolation heq
    rw [eq_of_mem_chosen hwellFormed hseparate hchosen hconstraint hviolation heq] at hviolation
    contradiction

theorem value_repair_of_unconstrained (hwellFormed : instruction.WellFormed)
    (hchosen : chosen ⊆ instruction.violations ⟨word, instruction.format⟩) {field : Field}
    (hfield : field ∈ instruction.format.fields)
    (hunconstrained : ∀ constraint ∈ instruction.constraints, constraint.field ≠ field) :
    (Fields.mk (Fields.repair ⟨word, instruction.format⟩ chosen) instruction.format).value field
      =
    (Fields.mk word instruction.format).value field := by
  apply Fields.value_repair_of_unchosen hfield
  intro violation hviolation
  have hmem := Fields.mem_violations_iff hwellFormed.constraint_mem_fields |>.1 (hchosen hviolation)
  exact hunconstrained violation.constraint hmem.1

theorem violations_repair (hwellFormed : instruction.WellFormed) (hseparate : instruction.Separate)
    (hchosen : chosen ⊆ instruction.violations ⟨word, instruction.format⟩) :
    instruction.violations ⟨Fields.repair ⟨word, instruction.format⟩ chosen, instruction.format⟩
      =
    (instruction.violations ⟨word, instruction.format⟩).filter (· ∉ chosen) := by
  -- both sides go through the constraints in order, so they can be compared one by one
  unfold violations Fields.violations at hchosen ⊢
  rw [List.filter_filterMap]
  apply List.filterMap_congr
  intro constraint hconstraint
  have hfield := hwellFormed.constraint_mem_fields constraint hconstraint
  have hvalue := value_repair_of_mem hwellFormed hseparate hchosen hconstraint
  rw [Constraint.violation?_eq hfield, Constraint.violation?_eq hfield, hvalue]
  by_cases hholds : (Fields.mk word instruction.format).value constraint.field = constraint.expected
  . simp [hholds]
  . rw [if_neg hholds, Option.filter_some]
    split
    . next hmem => simp [hmem]
    . next hnotMem => simp [hnotMem]

theorem canonical_repair (hwellFormed : instruction.WellFormed) (hseparate : instruction.Separate)
    (hchosen : chosen ⊆ instruction.violations ⟨word, instruction.format⟩) :
    instruction.canonical ⟨Fields.repair ⟨word, instruction.format⟩ chosen, instruction.format⟩
      =
    instruction.canonical ⟨word, instruction.format⟩ := by
  rw [canonical_eq, canonical_eq]
  congr 1
  apply Pattern.operandsOf_congr
  intro field hfield
  apply value_repair_of_unconstrained hwellFormed hchosen (hwellFormed.shown_mem_fields field hfield)
  rintro constraint hconstraint rfl
  exact hseparate.constrained_not_shown constraint hconstraint hfield

end Instruction

namespace InstructionSet

variable {instruction : Instruction} {word : Word} {chosen : List Violation}

theorem identify?_repair {set : InstructionSet} (hidentify : set.identify? word = some instruction)
    (hseparate : instruction.Separate)
    (hchosen : chosen ⊆ instruction.violations ⟨word, instruction.format⟩) :
    set.identify? (Fields.repair ⟨word, instruction.format⟩ chosen) = some instruction := by
  have hwellFormed := wellFormed_of_identify? hidentify
  rw [identify?_eq_some_iff] at hidentify ⊢
  refine ⟨hidentify.1, ?_⟩
  intro part hpart
  have hkey := Key.mem_fields_of_mem_parts hpart
  have hfield := hwellFormed.mem_fields_of_mem_key hkey
  rw [Fields.get?_eq_some_iff hfield]
  rw [Instruction.value_repair_of_unconstrained hwellFormed hchosen hfield]
  . exact (Fields.get?_eq_some_iff hfield).1 (hidentify.2 part hpart)
  . rintro constraint hconstraint heq
    rw [← heq] at hkey
    exact hseparate.constrained_not_key constraint hconstraint hkey

/-- Repairing a word of Release 2 leaves the violations that were not chosen, and what the word shows. -/
theorem decode_repair {disassembly : Disassembly} {violations : List Violation}
    (hdecode : release2.decode word = .illegal disassembly violations) (hchosen : chosen ⊆ violations) :
    let repaired := disassembly.fields.repair chosen
    (∃ instruction, release2.identify? word = some instruction
        ∧ release2.identify? repaired = some instruction)
      ∧ (release2.decode repaired).violations = violations.filter (· ∉ chosen)
      ∧ ((∃ legal, release2.decode repaired = .legal legal) ↔ violations ⊆ chosen)
      ∧ (release2.decode repaired).disassembly?.map Disassembly.mnemonic
          = some (if repaired = 0 then ⟨"nop", []⟩ else disassembly.mnemonic)
      ∧ (repaired = 0 → disassembly.mnemonic.text = "sll $zero, $zero, 0") := by
  obtain ⟨instruction, hidentify, rfl, hne, rfl⟩ := decode_eq_illegal_iff.1 hdecode
  have hwellFormed := wellFormed_of_identify? hidentify
  have hseparate := separate_of_identify? hidentify
  have hrepaired := identify?_repair hidentify hseparate hchosen
  have hviolations := Instruction.violations_repair hwellFormed hseparate hchosen
  have hcanonical := Instruction.canonical_repair hwellFormed hseparate hchosen
  dsimp only
  refine ⟨⟨instruction, hidentify, hrepaired⟩, ?_, ?_, ?_, ?_⟩
  . rw [violations_decode hrepaired, hviolations]
  . rw [exists_decode_eq_legal_iff hrepaired, hviolations, List.filter_eq_nil_iff]
    apply forall₂_congr
    intro violation _
    simp
  . rw [disassembly?_decode hrepaired, hcanonical]
    rfl
  . intro hzero
    rw [hzero] at hrepaired hcanonical
    rw [← hcanonical]
    exact text_canonical_zero hrepaired

/-- Of the two reserved fields of a product that are not zero, one is repaired. -/
theorem decode_repair_mult :
    let product : Fields := ⟨0x01091958, .register⟩
    let rd : Violation := ⟨.zero .rd, 3⟩
    let shamt : Violation := ⟨.zero .shamt, 5⟩
    release2.decode product.word = .illegal ⟨product, ⟨"mult", ["$t0", "$t1"]⟩⟩ [rd, shamt]
      ∧ [shamt] ⊆ [rd, shamt]
      ∧ (release2.decode (product.repair [shamt])).violations = [rd]
      ∧ ¬ ∃ legal, release2.decode (product.repair [shamt]) = .legal legal := by
  have hdecode : release2.decode 0x01091958
      = .illegal ⟨⟨0x01091958, .register⟩, ⟨"mult", ["$t0", "$t1"]⟩⟩
        [⟨.zero .rd, 3⟩, ⟨.zero .shamt, 5⟩] := by
    decide +kernel
  have hchosen : [(⟨.zero .shamt, 5⟩ : Violation)] ⊆ [⟨.zero .rd, 3⟩, ⟨.zero .shamt, 5⟩] := by
    simp
  obtain ⟨_, hviolations, hlegal, _⟩ := decode_repair hdecode hchosen
  refine ⟨hdecode, hchosen, ?_, ?_⟩
  . rw [hviolations]
    decide
  . rw [hlegal]
    decide

end InstructionSet

end Mips32
