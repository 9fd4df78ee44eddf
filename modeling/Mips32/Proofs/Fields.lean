import Mips32.Fields
import Mips32.Proofs.Layout

/-!
This module contains the laws of reading fields. A word is determined by the values of its fields, and a
word that is assembled from values has these values in its fields.
-/

namespace Mips32

namespace Word

theorem opcode_eq (word : Word) : word.opcode = (word >>> 26).toNat := by
  have hword := word.isLt
  unfold opcode
  rw [slice_eq, BitVec.toNat_ushiftRight, Nat.shiftRight_eq_div_pow]
  apply Nat.mod_eq_of_lt
  omega

end Word

namespace Format

theorem nodup_fields (format : Format) : format.fields.Nodup := by
  cases format <;> decide

theorem mem_fields_iff {format : Format} {field : Field} :
    field ∈ format.fields ↔ ∃ width, (field, width) ∈ format.fieldWidths := by
  simp [fields]

theorem assemble_congr {format : Format} {value₁ value₂ : Field → Nat}
    (h : ∀ field ∈ format.fields, value₁ field = value₂ field) :
    format.assemble value₁ = format.assemble value₂ := by
  unfold assemble
  rw [List.map_congr_left h]

end Format

namespace Fields

theorem get?_getElem (fields : Fields) {index : Nat} (hindex : index < fields.format.fields.length) :
    fields.get? fields.format.fields[index] = fields.values[index]? := by
  have hposition : fields.format.position? fields.format.fields[index] = some index := by
    unfold Format.position?
    rw [List.idxOf?_eq_some_iff]
    refine ⟨hindex, rfl, ?_⟩
    intro earlier hearlier
    apply List.pairwise_iff_getElem.1 fields.format.nodup_fields
    exact hearlier
  simp [get?, hposition]

theorem values_assemble (format : Format) (value : Field → Nat) :
    (Fields.mk (format.assemble value) format).values
      =
    format.fieldWidths.map fun (field, width) => value field % 2 ^ width := by
  have hlength : (format.fields.map value).length = format.layout.widths.length := by
    rw [List.length_map, Format.length_fields]
    rfl
  unfold values Format.assemble
  rw [Layout.split_join _ hlength]
  simp [Format.layout, Format.widths, Format.fields, List.zipWith_map, List.zipWith_self]

theorem get?_assemble {format : Format} {field : Field} {width : Nat}
    (hmem : (field, width) ∈ format.fieldWidths) (value : Field → Nat) :
    (Fields.mk (format.assemble value) format).get? field = some (value field % 2 ^ width) := by
  obtain ⟨index, hindex, helem⟩ := List.getElem_of_mem hmem
  have hlt : index < format.fields.length := by simpa [Format.fields] using hindex
  have hfield : format.fields[index] = field := by simp [Format.fields, helem]
  have hget := get?_getElem (Fields.mk (format.assemble value) format) hlt
  rw [values_assemble] at hget
  simpa [hfield, hindex, helem] using hget

/-- The value of a field. A field that the format lacks counts as zero. -/
def value (fields : Fields) (field : Field) : Nat :=
  (fields.get? field).getD 0

theorem get?_eq_value {fields : Fields} {field : Field} (hmem : field ∈ fields.format.fields) :
    fields.get? field = some (fields.value field) := by
  obtain ⟨value, hvalue⟩ := Option.isSome_iff_exists.1 (isSome_get?_iff.2 hmem)
  simp [Fields.value, hvalue]

theorem get?_eq_some_iff {fields : Fields} {field : Field} (hmem : field ∈ fields.format.fields)
    {n : Nat} : fields.get? field = some n ↔ fields.value field = n := by
  rw [get?_eq_value hmem, Option.some.injEq]

theorem map_value (fields : Fields) : fields.format.fields.map fields.value = fields.values := by
  apply List.ext_getElem?
  intro index
  rw [List.getElem?_map]
  cases Nat.lt_or_ge index fields.format.fields.length with
  | inl hlt =>
    rw [← fields.get?_getElem hlt, List.getElem?_eq_getElem hlt, Option.map_some]
    rw [get?_eq_value (List.getElem_mem hlt)]
  | inr hge =>
    rw [List.getElem?_eq_none hge]
    rw [List.getElem?_eq_none (by rw [length_values]; exact hge)]
    rfl

theorem assemble_value (fields : Fields) : fields.format.assemble fields.value = fields.word := by
  unfold Format.assemble
  rw [map_value]
  apply Layout.join_split

theorem value_lt {fields : Fields} {field : Field} {width : Nat}
    (hmem : (field, width) ∈ fields.format.fieldWidths) : fields.value field < 2 ^ width := by
  have hget := get?_assemble hmem fields.value
  rw [assemble_value] at hget
  have hvalue : fields.value field = fields.value field % 2 ^ width := by
    rw [← get?_eq_some_iff (Format.mem_fields_iff.2 ⟨width, hmem⟩)]
    exact hget
  rw [hvalue]
  exact Nat.mod_lt _ (Nat.two_pow_pos width)

theorem value_assemble {format : Format} {field : Field} {width : Nat}
    (hmem : (field, width) ∈ format.fieldWidths) {value : Field → Nat}
    (hvalue : value field < 2 ^ width) :
    (Fields.mk (format.assemble value) format).value field = value field := by
  rw [← get?_eq_some_iff (Format.mem_fields_iff.2 ⟨width, hmem⟩)]
  rw [get?_assemble hmem, Nat.mod_eq_of_lt hvalue]

theorem word_eq_of_value_eq {word₁ word₂ : Word} {format : Format}
    (h : ∀ field ∈ format.fields,
      (Fields.mk word₁ format).value field = (Fields.mk word₂ format).value field) :
    word₁ = word₂ :=
  calc
    word₁ = format.assemble (Fields.mk word₁ format).value := (assemble_value ⟨word₁, format⟩).symm
    _ = format.assemble (Fields.mk word₂ format).value := Format.assemble_congr h
    _ = word₂ := assemble_value ⟨word₂, format⟩

end Fields

end Mips32
