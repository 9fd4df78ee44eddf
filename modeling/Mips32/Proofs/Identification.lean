import Mathlib.Data.List.Basic
import Mips32.Decoding
import Mips32.Proofs.Fields

/-!
This module contains the laws of identification. A set takes a word for an instruction exactly if the word
holds the values of the instruction's key; it then has the instruction's format as well.
-/

namespace Mips32

namespace Format

theorem mem_fields_of_mem_keyFields {format : Format} {opcode : Nat} {field : Field}
    (hmem : field ∈ format.keyFields opcode) : field ∈ format.fields := by
  have hsubset : ∀ field ∈ format.keyFields opcode, field ∈ format.fields := by
    refine Key.Scheme.forall_fields (fun fields => ∀ field ∈ fields, field ∈ format.fields) ?_ ?_ opcode
    . cases format <;> decide
    . cases format <;> decide
  exact hsubset field hmem

theorem nodup_keyFields (format : Format) (opcode : Nat) : (format.keyFields opcode).Nodup := by
  refine Key.Scheme.forall_fields List.Nodup ?_ ?_ opcode
  . cases format <;> decide
  . cases format <;> decide

end Format

namespace Key

theorem mem_parts_of_get? {key : Key} {field : Field} {n : Nat} (hget : key.get? field = some n) :
    (field, n) ∈ key.parts := by
  obtain ⟨earlier, later, hparts, _⟩ := List.lookup_eq_some_iff.1 hget
  rw [hparts]
  simp

theorem get?_eq_some_iff {key : Key} (hnodup : key.fields.Nodup) {field : Field} {n : Nat} :
    key.get? field = some n ↔ (field, n) ∈ key.parts := by
  constructor
  . exact mem_parts_of_get?
  . intro hmem
    obtain ⟨earlier, later, hparts⟩ := List.append_of_mem hmem
    unfold fields at hnodup
    rw [hparts, List.map_append, List.map_cons, List.nodup_append] at hnodup
    refine List.lookup_eq_some_iff.2 ⟨earlier, later, hparts, ?_⟩
    intro part hpart
    have hne := hnodup.2.2 part.1 (List.mem_map_of_mem hpart) field List.mem_cons_self
    simpa using Ne.symm hne

theorem mem_fields_of_mem_parts {key : Key} {part : Field × Nat} (hmem : part ∈ key.parts) :
    part.1 ∈ key.fields :=
  List.mem_map_of_mem hmem

end Key

namespace Fields

theorem parts_key (fields : Fields) :
    fields.key.parts
      =
    (fields.format.keyFields fields.opcode).map fun field => (field, fields.value field) := by
  unfold key
  rw [← List.filterMap_eq_map]
  apply List.filterMap_congr
  intro field hmem
  rw [get?_eq_value (Format.mem_fields_of_mem_keyFields hmem)]
  rfl

theorem fields_key (fields : Fields) : fields.key.fields = fields.format.keyFields fields.opcode := by
  unfold Key.fields
  rw [parts_key, List.map_map]
  apply List.map_id

theorem get?_of_mem_parts_key {fields : Fields} {part : Field × Nat} (hmem : part ∈ fields.key.parts) :
    fields.get? part.1 = some part.2 := by
  rw [parts_key, List.mem_map] at hmem
  obtain ⟨field, hfield, rfl⟩ := hmem
  exact get?_eq_value (Format.mem_fields_of_mem_keyFields hfield)

theorem eq_key_iff {fields : Fields} {key : Key} :
    key = fields.key ↔
      key.fields = fields.format.keyFields fields.opcode
        ∧ ∀ part ∈ key.parts, fields.get? part.1 = some part.2 := by
  constructor
  . rintro rfl
    exact ⟨fields.fields_key, fun _ => get?_of_mem_parts_key⟩
  . rintro ⟨hfields, hparts⟩
    have hpart : ∀ part ∈ key.parts, part = (part.1, fields.value part.1) := by
      intro part hmem
      unfold value
      rw [hparts part hmem]
      rfl
    rw [Key.mk.injEq, parts_key, ← hfields, Key.fields, List.map_map]
    calc
      key.parts = key.parts.map id := (List.map_id _).symm
      _ = _ := List.map_congr_left hpart

end Fields

namespace Instruction

variable {instruction : Instruction}

theorem WellFormed.nodup_fields_key (hwellFormed : instruction.WellFormed) :
    instruction.key.fields.Nodup := by
  obtain ⟨opcode, _, _, hfields⟩ := hwellFormed.key_follows_format
  rw [hfields]
  apply Format.nodup_keyFields

theorem WellFormed.mem_fields_of_mem_key (hwellFormed : instruction.WellFormed) {field : Field}
    (hmem : field ∈ instruction.key.fields) : field ∈ instruction.format.fields := by
  obtain ⟨opcode, _, _, hfields⟩ := hwellFormed.key_follows_format
  rw [hfields] at hmem
  exact Format.mem_fields_of_mem_keyFields hmem

theorem WellFormed.ofWord?_eq_some (hwellFormed : instruction.WellFormed) {word : Word}
    {format : Format} (hkey : instruction.key = Fields.key ⟨word, format⟩) :
    Format.ofWord? word = some instruction.format := by
  obtain ⟨opcode, hget, hformat, _⟩ := hwellFormed.key_follows_format
  have hmem := Key.mem_parts_of_get? hget
  rw [hkey] at hmem
  have hopcode : word.opcode = opcode := by
    simpa [Fields.get?_opcode, Fields.opcode] using Fields.get?_of_mem_parts_key hmem
  rw [← hopcode] at hformat
  exact hformat

theorem WellFormed.key_eq_iff (hwellFormed : instruction.WellFormed) {word : Word} :
    instruction.key = Fields.key ⟨word, instruction.format⟩ ↔
      ∀ part ∈ instruction.key.parts, (Fields.mk word instruction.format).get? part.1 = some part.2 := by
  rw [Fields.eq_key_iff]
  constructor
  . exact And.right
  . intro hparts
    obtain ⟨opcode, hget, _, hfields⟩ := hwellFormed.key_follows_format
    have hopcode := hparts _ (Key.mem_parts_of_get? hget)
    rw [Fields.get?_opcode, Option.some.injEq] at hopcode
    rw [hopcode]
    exact ⟨hfields, hparts⟩

end Instruction

namespace InstructionSet

def identify? (set : InstructionSet) (word : Word) : Option Instruction := do
  set.find? (Fields.key ⟨word, ← Format.ofWord? word⟩)

variable {set : InstructionSet} {word : Word} {instruction : Instruction}

theorem identify?_eq_find? {format : Format} (hformat : Format.ofWord? word = some format) :
    set.identify? word = set.find? (Fields.key ⟨word, format⟩) := by
  simp [identify?, hformat]

theorem identify?_eq_some_iff_key :
    set.identify? word = some instruction ↔
      instruction ∈ set.instructions ∧ instruction.key = Fields.key ⟨word, instruction.format⟩ := by
  constructor
  . intro h
    obtain ⟨format, hformat, hfind⟩ := Option.bind_eq_some_iff.1 h
    obtain ⟨hmem, hkey⟩ := find?_eq_some_iff.1 hfind
    have hown := (set.wellFormed _ hmem).ofWord?_eq_some hkey
    rw [hformat, Option.some.injEq] at hown
    rw [← hown]
    exact ⟨hmem, hkey⟩
  . rintro ⟨hmem, hkey⟩
    rw [identify?_eq_find? ((set.wellFormed _ hmem).ofWord?_eq_some hkey)]
    exact find?_eq_some_iff.2 ⟨hmem, hkey⟩

theorem identify?_eq_some_iff :
    set.identify? word = some instruction ↔
      instruction ∈ set.instructions
        ∧ ∀ part ∈ instruction.key.parts,
            (Fields.mk word instruction.format).get? part.1 = some part.2 := by
  rw [identify?_eq_some_iff_key]
  apply and_congr_right
  intro hmem
  exact (set.wellFormed _ hmem).key_eq_iff

theorem ofWord?_of_identify? (h : set.identify? word = some instruction) :
    Format.ofWord? word = some instruction.format := by
  obtain ⟨hmem, hkey⟩ := identify?_eq_some_iff_key.1 h
  exact (set.wellFormed _ hmem).ofWord?_eq_some hkey

theorem format_eq_of_identify? {format : Format} (hformat : Format.ofWord? word = some format)
    (h : set.identify? word = some instruction) : instruction.format = format := by
  have hown := ofWord?_of_identify? h
  rw [hformat, Option.some.injEq] at hown
  exact hown.symm

theorem key_eq_key_iff {word₁ word₂ : Word} {instruction₁ instruction₂ : Instruction}
    (h₁ : set.identify? word₁ = some instruction₁) (h₂ : set.identify? word₂ = some instruction₂) :
    Fields.key ⟨word₁, instruction₁.format⟩ = Fields.key ⟨word₂, instruction₂.format⟩ ↔
      instruction₁ = instruction₂ := by
  obtain ⟨hmem₁, hkey₁⟩ := identify?_eq_some_iff_key.1 h₁
  obtain ⟨hmem₂, hkey₂⟩ := identify?_eq_some_iff_key.1 h₂
  rw [← hkey₁, ← hkey₂]
  constructor
  . intro hkey
    have hfind₁ := find?_eq_some_iff.2 ⟨hmem₁, hkey⟩
    have hfind₂ := find?_eq_some_iff.2 ⟨hmem₂, rfl⟩
    rw [hfind₁, Option.some.injEq] at hfind₂
    exact hfind₂
  . rintro rfl
    rfl

end InstructionSet

end Mips32
