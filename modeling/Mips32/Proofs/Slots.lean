import Mathlib.Data.List.Nodup
import Mips32.Key
import Mips32.Proofs.Basic
import Mips32.Proofs.Decoding
import Mips32.Proofs.Numeral

/-!
This module contains the verification that keys are canonical. Slots that hold the same parts are the same, whether
the parts were copied into them or put there one at a time, so keys can be compared slot by slot or as text.
What a set finds for a word depends on its key only.
-/

namespace Mips32

namespace Key.Slots

variable {parts parts₁ parts₂ more : List (Field × Nat)} {part : Field × Nat}

def Filled (slots : Vector (Field × Nat) maxParts) (parts : List (Field × Nat)) : Prop :=
  slots.toList = parts ++ List.replicate (maxParts - parts.length) filler

structure Holds (slots : Slots) (parts : List (Field × Nat)) : Prop where
  filled : Filled slots.slots parts
  used_eq : slots.used = parts.length

theorem filled_replicate : Filled (Vector.replicate maxParts filler) [] :=
  rfl

theorem Filled.set {slots : Vector (Field × Nat) maxParts} (h : Filled slots parts)
    (hlt : parts.length < maxParts) (part : Field × Nat) :
    Filled (slots.set parts.length part hlt) (parts ++ [part]) := by
  unfold Filled at h ⊢
  rw [Vector.toList_set, h, List.set_append_right _ _ (Nat.le_refl _), Nat.sub_self]
  -- the first of the fillers gives way to the part
  have hcount : maxParts - parts.length = maxParts - (parts ++ [part]).length + 1 := by
    rw [List.length_append, List.length_singleton]
    omega
  rw [hcount, List.replicate_succ, List.set_cons_zero, List.append_cons]

theorem Filled.copy {slots : Vector (Field × Nat) maxParts} (h : Filled slots parts)
    (hle : (parts ++ more).length ≤ maxParts) :
    ∃ slots', Slots.copy slots parts.length more = some slots' ∧ Filled slots' (parts ++ more) := by
  induction more generalizing slots parts with
  | nil =>
    rw [List.append_nil]
    exact ⟨slots, rfl, h⟩
  | cons part rest ih =>
    have hlt : parts.length < maxParts := by
      rw [List.length_append, List.length_cons] at hle
      omega
    rw [List.append_cons] at hle ⊢
    obtain ⟨slots', hcopy, hfilled⟩ := ih (h.set hlt part) hle
    refine ⟨slots', ?_, hfilled⟩
    rw [List.length_append, List.length_singleton] at hcopy
    rw [Slots.copy, dif_pos hlt, hcopy]

theorem exists_ofParts? (hle : parts.length ≤ maxParts) :
    ∃ slots, ofParts? parts = some slots ∧ Holds slots parts := by
  obtain ⟨slots, hcopy, hfilled⟩ := filled_replicate.copy hle
  refine ⟨⟨slots, parts.length⟩, ?_, hfilled, rfl⟩
  unfold ofParts?
  rw [if_pos hle]
  rw [List.length_nil] at hcopy
  rw [hcopy, Option.map_some]

variable {slots slots₁ slots₂ : Slots}

theorem holds_empty : Holds empty [] :=
  ⟨filled_replicate, rfl⟩

theorem Holds.push? (h : Holds slots parts) (hlt : parts.length < maxParts) (part : Field × Nat) :
    ∃ slots', slots.push? part = some slots' ∧ Holds slots' (parts ++ [part]) := by
  obtain ⟨slots, _⟩ := slots
  obtain ⟨hfilled, rfl⟩ := h
  unfold Slots.push?
  rw [dif_pos hlt]
  refine ⟨_, rfl, hfilled.set hlt part, ?_⟩
  rw [List.length_append, List.length_singleton]

theorem Holds.foldlM_push? (h : Holds slots parts) (hle : (parts ++ more).length ≤ maxParts) :
    ∃ slots', more.foldlM Slots.push? slots = some slots' ∧ Holds slots' (parts ++ more) := by
  induction more generalizing slots parts with
  | nil =>
    rw [List.append_nil]
    exact ⟨slots, rfl, h⟩
  | cons part rest ih =>
    have hlt : parts.length < maxParts := by
      rw [List.length_append, List.length_cons] at hle
      omega
    obtain ⟨next, hpush, hnext⟩ := h.push? hlt part
    rw [List.append_cons] at hle ⊢
    obtain ⟨slots', hrest, hholds⟩ := ih hnext hle
    refine ⟨slots', ?_, hholds⟩
    rw [List.foldlM_cons, hpush]
    exact hrest

theorem Holds.parts_eq (h : Holds slots parts) : slots.parts = parts := by
  unfold Slots.parts
  rw [h.filled, h.used_eq]
  exact List.take_left

/-- The slots that hold some parts are determined by them, for the filler is always the same. -/
theorem Holds.eq_iff (h₁ : Holds slots₁ parts₁) (h₂ : Holds slots₂ parts₂) :
    slots₁ = slots₂ ↔ parts₁ = parts₂ := by
  constructor
  . rintro rfl
    rw [← h₁.parts_eq, h₂.parts_eq]
  . rintro rfl
    rw [Slots.mk.injEq]
    refine ⟨?_, ?_⟩
    . rw [← Vector.toList_inj, h₁.filled, h₂.filled]
    . rw [h₁.used_eq, h₂.used_eq]

theorem foldlM_pushField? (fields : Fields) (list : List Field) (slots : Slots) :
    list.foldlM (pushField? fields) slots
      =
    (list.filterMap fun field => (fields.get? field).map (field, ·)).foldlM push? slots := by
  induction list generalizing slots with
  | nil => rfl
  | cons field rest ih =>
    rw [List.foldlM_cons, List.filterMap_cons]
    cases h : fields.get? field with
    | none =>
      have hpush : pushField? fields slots field = some slots := by
        unfold pushField?
        rw [h]
      rw [hpush]
      exact ih slots
    | some value =>
      have hpush : pushField? fields slots field = slots.push? (field, value) := by
        unfold pushField?
        rw [h]
      rw [hpush, Option.map_some, List.foldlM_cons]
      cases slots.push? (field, value) with
      | none => rfl
      | some next => exact ih next

end Key.Slots

namespace Field

theorem mem_all (field : Field) : field ∈ all := by
  cases field <;> decide

theorem name_injective {field₁ field₂ : Field} (h : field₁.name = field₂.name) : field₁ = field₂ := by
  have hnodup : (all.map name).Nodup := by
    decide
  exact List.inj_on_of_nodup_map hnodup field₁.mem_all field₂.mem_all h

theorem isAlphanum_of_mem_name {field : Field} {c : Char} (hmem : c ∈ field.name.toList) :
    c.isAlphanum = true := by
  have hall : ∀ field ∈ all, field.name.toList.all Char.isAlphanum = true := by
    decide
  exact List.all_eq_true.1 (hall field field.mem_all) c hmem

end Field

namespace Key

variable {key key₁ key₂ : Key} {part₁ part₂ : Field × Nat}

theorem ofParts?_of_length_le {parts : List (Field × Nat)} (hle : parts.length ≤ maxParts) :
    ofParts? parts = some ⟨parts, hle⟩ := by
  unfold ofParts?
  rw [dif_pos hle]

theorem eq_iff_parts_eq : key₁ = key₂ ↔ key₁.parts = key₂.parts := by
  rw [Key.mk.injEq]

theorem toList_partText (part : Field × Nat) :
    (partText part).toList = part.1.name.toList ++ '=' :: (Numeral.hex part.2).toList := by
  unfold partText
  rw [String.toList_append, String.toList_append, List.append_assoc]
  rfl

theorem partText_injective (h : partText part₁ = partText part₂) : part₁ = part₂ := by
  have hmark (field : Field) : '=' ∉ field.name.toList := fun hmem =>
    absurd (Field.isAlphanum_of_mem_name hmem) (by decide)
  have hlist := congrArg String.toList h
  rw [toList_partText, toList_partText] at hlist
  obtain ⟨hname, hvalue⟩ := Separator.cut_unique (hmark part₁.1) (hmark part₂.1) hlist
  rw [Prod.ext_iff]
  refine ⟨Field.name_injective (String.toList_injective hname), ?_⟩
  exact Numeral.hex_injective (String.toList_injective hvalue)

theorem comma_not_mem_partText (part : Field × Nat) : ',' ∉ (partText part).toList := by
  rw [toList_partText, List.mem_append, List.mem_cons]
  rintro (hname | hmark | hvalue)
  . exact absurd (Field.isAlphanum_of_mem_name hname) (by decide)
  . exact absurd hmark (by decide)
  . exact absurd (Numeral.isAlphanum_of_mem_hex hvalue) (by decide)

theorem toList_text (key : Key) :
    key.text.toList = [',', ' '].intercalate ((key.parts.map partText).map String.toList) := by
  unfold text
  rw [String.toList_intercalate]
  rfl

theorem text_eq_empty_iff : key.text = "" ↔ key.parts = [] := by
  rw [← String.toList_eq_nil_iff, toList_text]
  cases key.parts with
  | nil => simp
  | cons part rest =>
    cases rest with
    | nil => simp [toList_partText]
    | cons next rest => simp [List.intercalate_cons_cons]

theorem text_injective (h : key₁.text = key₂.text) : key₁ = key₂ := by
  have hmark (key : Key) : ∀ item ∈ (key.parts.map partText).map String.toList, ',' ∉ item := by
    rw [List.forall_mem_map, List.forall_mem_map]
    exact fun part _ => comma_not_mem_partText part
  rw [eq_iff_parts_eq]
  -- a text that is empty may be taken apart as no part or as an empty one
  by_cases hnil₁ : key₁.parts = []
  . have hnil₂ : key₂.parts = [] := by
      rwa [← text_eq_empty_iff, h, text_eq_empty_iff] at hnil₁
    rw [hnil₁, hnil₂]
  . have hnil₂ : key₂.parts ≠ [] := by
      rwa [← text_eq_empty_iff, h, text_eq_empty_iff] at hnil₁
    have hlist := congrArg String.toList h
    rw [toList_text, toList_text] at hlist
    have hparts := Separator.intercalate_injective (by simpa using hnil₁) (by simpa using hnil₂)
      (hmark key₁) (hmark key₂) hlist
    rw [List.map_inj_right fun _ _ => String.toList_injective] at hparts
    exact (List.map_inj_right fun _ _ => partText_injective).1 hparts

end Key

namespace Fields

variable {fields fields₁ fields₂ : Fields}

theorem exists_slots? (fields : Fields) :
    ∃ slots, fields.slots? = some slots ∧ slots.Holds fields.key.parts := by
  unfold slots?
  rw [Key.Slots.foldlM_pushField?]
  exact Key.Slots.holds_empty.foldlM_push? fields.key.length_le

theorem key_eq_of_slots?_eq (h : fields₁.slots? = fields₂.slots?) : fields₁.key = fields₂.key := by
  obtain ⟨slots₁, hslots₁, hholds₁⟩ := fields₁.exists_slots?
  obtain ⟨slots₂, hslots₂, hholds₂⟩ := fields₂.exists_slots?
  rw [hslots₁, hslots₂, Option.some.injEq, hholds₁.eq_iff hholds₂] at h
  exact Key.eq_iff_parts_eq.2 h

theorem get?_opcode_key (fields : Fields) : fields.key.get? .opcode = some fields.opcode := by
  unfold Key.get?
  rw [parts_key]
  unfold Format.keyFields Key.Scheme.fields
  rw [List.cons_append, List.map_cons, List.lookup_cons_self]
  unfold value
  rw [get?_opcode, Option.getD_some]

theorem map_parts_key (fields : Fields) :
    fields.key.parts.map (fun (field, value) => (field, some value))
      =
    (fields.format.scheme.fields fields.opcode).map fun field => (field, fields.get? field) := by
  rw [parts_key, List.map_map]
  apply List.map_congr_left
  intro field hmem
  rw [get?_eq_value (Format.mem_fields_of_mem_keyFields hmem)]
  rfl

end Fields

namespace InstructionSet

variable {word₁ word₂ : Word} {format₁ format₂ : Format}

theorem opcode_eq_of_key_eq (h : Fields.key ⟨word₁, format₁⟩ = Fields.key ⟨word₂, format₂⟩) :
    word₁.opcode = word₂.opcode := by
  have hget₁ := Fields.get?_opcode_key ⟨word₁, format₁⟩
  rw [h, Fields.get?_opcode_key, Option.some.injEq] at hget₁
  exact hget₁.symm

theorem identify?_congr (set : InstructionSet) (hformat₁ : Format.ofWord? word₁ = some format₁)
    (hformat₂ : Format.ofWord? word₂ = some format₂)
    (h : Fields.key ⟨word₁, format₁⟩ = Fields.key ⟨word₂, format₂⟩) :
    set.identify? word₁ = set.identify? word₂ := by
  rw [identify?_eq_find? hformat₁, identify?_eq_find? hformat₂, h]

theorem decode_of_key_eq (set : InstructionSet) (hformat₁ : Format.ofWord? word₁ = some format₁)
    (hformat₂ : Format.ofWord? word₂ = some format₂)
    (h : Fields.key ⟨word₁, format₁⟩ = Fields.key ⟨word₂, format₂⟩) :
    (∃ cause₁ cause₂, set.decode word₁ = .unknown cause₁ ∧ set.decode word₂ = .unknown cause₂
        ∧ cause₁.reason = cause₂.reason)
      ∨ ∃ instruction, set.identify? word₁ = some instruction ∧ set.identify? word₂ = some instruction
          ∧ (set.decode word₁).disassembly?.isSome ∧ (set.decode word₂).disassembly?.isSome := by
  have hidentify := set.identify?_congr hformat₁ hformat₂ h
  rw [isSome_disassembly?_decode, isSome_disassembly?_decode, ← hidentify]
  cases hfind : set.identify? word₁ with
  | none =>
    rw [hfind] at hidentify
    refine .inl ⟨_, _, decode_of_identify?_eq_none hformat₁ hfind,
      decode_of_identify?_eq_none hformat₂ hidentify.symm, ?_⟩
    exact congrArg (fun key => "no instruction matches " ++ Key.text key) h
  | some instruction => exact .inr ⟨instruction, rfl, rfl, rfl, rfl⟩

end InstructionSet

namespace Key.Slots

/--
Slots are the same exactly if the parts are, and so are the texts of the keys. The key of a word has a slot for
every field of the scheme, and is the same as if its parts had been copied. Two words with the same key have
the same opcode and the same format, and no set tells them apart.
-/
theorem slots_canonical :
    (∀ parts₁ parts₂ : List (Field × Nat), parts₁.length ≤ maxParts → parts₂.length ≤ maxParts →
        ∃ slots₁ slots₂ key₁ key₂, ofParts? parts₁ = some slots₁ ∧ ofParts? parts₂ = some slots₂
          ∧ Key.ofParts? parts₁ = some key₁ ∧ Key.ofParts? parts₂ = some key₂
          ∧ slots₁.parts = key₁.parts ∧ slots₂.parts = key₂.parts
          ∧ (slots₁ = slots₂ ↔ parts₁ = parts₂)
          ∧ (key₁ = key₂ ↔ parts₁ = parts₂)
          ∧ (key₁.text = key₂.text ↔ parts₁ = parts₂))
      ∧ (∀ fields : Fields, ∃ slots, fields.slots? = some slots
          ∧ slots.parts.map (fun (field, value) => (field, some value))
            = (fields.format.scheme.fields fields.opcode).map (fun field => (field, fields.get? field))
          ∧ ofParts? slots.parts = some slots
          ∧ fields.key.parts = slots.parts)
      ∧ ∀ word₁ word₂ format₁ format₂, Format.ofWord? word₁ = some format₁ →
          Format.ofWord? word₂ = some format₂ →
          Fields.slots? ⟨word₁, format₁⟩ = Fields.slots? ⟨word₂, format₂⟩ →
          word₁.opcode = word₂.opcode ∧ format₁ = format₂
            ∧ ∀ set : InstructionSet,
                (∃ cause₁ cause₂, set.decode word₁ = .unknown cause₁ ∧ set.decode word₂ = .unknown cause₂
                    ∧ cause₁.reason = cause₂.reason)
                  ∨ ∃ instruction, set.identify? word₁ = some instruction
                      ∧ set.identify? word₂ = some instruction
                      ∧ (set.decode word₁).disassembly?.isSome ∧ (set.decode word₂).disassembly?.isSome := by
  refine ⟨?_, ?_, ?_⟩
  . intro parts₁ parts₂ hle₁ hle₂
    obtain ⟨slots₁, hslots₁, hholds₁⟩ := exists_ofParts? hle₁
    obtain ⟨slots₂, hslots₂, hholds₂⟩ := exists_ofParts? hle₂
    refine ⟨slots₁, slots₂, _, _, hslots₁, hslots₂, ofParts?_of_length_le hle₁, ofParts?_of_length_le hle₂,
      hholds₁.parts_eq, hholds₂.parts_eq, hholds₁.eq_iff hholds₂, eq_iff_parts_eq, ?_⟩
    constructor
    . intro h
      exact eq_iff_parts_eq.1 (text_injective h)
    . rintro rfl
      rfl
  . intro fields
    obtain ⟨slots, hslots, hholds⟩ := fields.exists_slots?
    obtain ⟨slots', hslots', hholds'⟩ := exists_ofParts? fields.key.length_le
    refine ⟨slots, hslots, ?_, ?_, hholds.parts_eq.symm⟩
    . rw [hholds.parts_eq]
      exact fields.map_parts_key
    . rw [hholds.parts_eq, hslots', Option.some.injEq, hholds'.eq_iff hholds]
  . intro word₁ word₂ format₁ format₂ hformat₁ hformat₂ h
    have hkey := Fields.key_eq_of_slots?_eq h
    have hopcode := InstructionSet.opcode_eq_of_key_eq hkey
    have hformat : format₁ = format₂ := by
      unfold Format.ofWord? at hformat₁ hformat₂
      rw [hopcode, hformat₂, Option.some.injEq] at hformat₁
      exact hformat₁.symm
    exact ⟨hopcode, hformat, fun set => set.decode_of_key_eq hformat₁ hformat₂ hkey⟩

/-- The filler as the only part, and two words that differ in what their key leaves out. -/
theorem slots_canonical_filler :
    [(Field.opcode, 0)].length ≤ maxParts
      ∧ (∃ slots₁ slots₂, ofParts? [(.opcode, 0)] = some slots₁ ∧ ofParts? [] = some slots₂
          ∧ slots₁.slots = slots₂.slots ∧ slots₁ ≠ slots₂)
      ∧ Format.ofWord? 0x012a4020 = some .register ∧ Format.ofWord? 0x00000020 = some .register
      ∧ Fields.slots? ⟨0x012a4020, .register⟩ = Fields.slots? ⟨0x00000020, .register⟩
      ∧ ∀ set : InstructionSet,
          (set.decode 0x012a4020).disassembly?.isSome = (set.decode 0x00000020).disassembly?.isSome := by
  obtain ⟨hparts, _, hwords⟩ := slots_canonical
  have hle : [(Field.opcode, 0)].length ≤ maxParts := by
    decide
  have hformat₁ : Format.ofWord? 0x012a4020 = some .register := by
    decide
  have hformat₂ : Format.ofWord? 0x00000020 = some .register := by
    decide
  have hslots : Fields.slots? ⟨0x012a4020, .register⟩ = Fields.slots? ⟨0x00000020, .register⟩ := by
    decide
  refine ⟨hle, ?_, hformat₁, hformat₂, hslots, ?_⟩
  . obtain ⟨slots₁, slots₂, _, _, hslots₁, hslots₂, _, _, _, _, hiff, _⟩ :=
      hparts [(.opcode, 0)] [] hle (by decide)
    refine ⟨slots₁, slots₂, hslots₁, hslots₂, ?_, ?_⟩
    . cases hslots₁
      cases hslots₂
      rfl
    . rw [Ne, hiff]
      exact List.cons_ne_nil _ _
  . intro set
    obtain ⟨_, _, hset⟩ := hwords _ _ _ _ hformat₁ hformat₂ hslots
    obtain ⟨cause₁, cause₂, hdecode₁, hdecode₂, _⟩ | ⟨_, _, _, hsome₁, hsome₂⟩ := hset set
    . rw [hdecode₁, hdecode₂]
      rfl
    . rw [hsome₁, hsome₂]

end Key.Slots

end Mips32
