import Mathlib.Data.List.Perm.Subperm
import Mips32.InstructionSet.Release2
import Mips32.Proofs.Decoding
import Mips32.Proofs.InstructionSet

/-!
This module contains the verification that decoding does not depend on the order in which instructions are
listed, and that leaving instructions out affects only the words of these instructions.
-/

namespace Mips32

namespace InstructionSet

variable {smaller set : InstructionSet} {word : Word} {instruction : Instruction}

theorem exists_of_subperm {instructions : List Instruction}
    (h : instructions.Subperm set.instructions) :
    ∃ smaller : InstructionSet, smaller.instructions = instructions := by
  obtain ⟨inOrder, hperm, hsublist⟩ := h
  obtain ⟨smaller, rfl⟩ := exists_of_sublist hsublist
  refine ⟨⟨instructions, ?_, ?_⟩, rfl⟩
  . intro instruction hmem
    exact smaller.wellFormed instruction (hperm.mem_iff.2 hmem)
  . exact hperm.pairwise smaller.distinct Ne.symm

theorem decode_eq_of_identify?_eq {set₁ set₂ : InstructionSet}
    (h : set₁.identify? word = set₂.identify? word) : set₁.decode word = set₂.decode word := by
  cases hformat : Format.ofWord? word with
  | none => rw [decode_of_ofWord?_eq_none hformat, decode_of_ofWord?_eq_none hformat]
  | some format =>
    cases hidentify : set₂.identify? word with
    | none =>
      rw [hidentify] at h
      rw [decode_of_identify?_eq_none hformat h, decode_of_identify?_eq_none hformat hidentify]
    | some instruction =>
      rw [hidentify] at h
      rw [decode_of_identify? h, decode_of_identify? hidentify]

theorem identify?_of_subset (hsubset : smaller.instructions ⊆ set.instructions)
    (h : smaller.identify? word = some instruction) : set.identify? word = some instruction := by
  rw [identify?_eq_some_iff_key] at h ⊢
  exact ⟨hsubset h.1, h.2⟩

theorem decode_of_subset (hsubset : smaller.instructions ⊆ set.instructions) {format : Format}
    (hformat : Format.ofWord? word = some format) :
    smaller.decode word
      =
    if ∃ instruction ∈ smaller.instructions, instruction.key = Fields.key ⟨word, format⟩ then
      set.decode word
    else
      .unknown (.instruction ⟨word, format⟩) := by
  split
  . next hfound =>
    obtain ⟨instruction, hmem, hkey⟩ := hfound
    have hidentify : smaller.identify? word = some instruction := by
      rw [identify?_eq_find? hformat]
      exact find?_eq_some_iff.2 ⟨hmem, hkey⟩
    apply decode_eq_of_identify?_eq
    rw [hidentify, identify?_of_subset hsubset hidentify]
  . next hmissing =>
    apply decode_of_identify?_eq_none hformat
    rw [identify?_eq_find? hformat, find?_eq_none_iff]
    intro instruction hmem hkey
    exact hmissing ⟨instruction, hmem, hkey⟩

theorem decode_eq_of_perm {set₁ set₂ : InstructionSet}
    (hperm : set₁.instructions.Perm set₂.instructions) : set₁.decode = set₂.decode := by
  funext word
  apply decode_eq_of_identify?_eq
  apply Option.ext
  intro instruction
  constructor
  . exact identify?_of_subset hperm.subset
  . exact identify?_of_subset hperm.symm.subset

/--
Some of the instructions of a set make up a set in any order. It decodes the words that have the key of one
of these instructions as before, and no other words. If no instruction is left out nothing changes.
-/
theorem decode_of_subperm {instructions : List Instruction} (hbuild : build instructions = .ok set)
    {chosen : List Instruction} (hchosen : chosen.Subperm instructions) :
    ∃ smaller, build chosen = .ok smaller
      ∧ (∀ word, Format.ofWord? word = none → smaller.decode word = set.decode word)
      ∧ (∀ word format, Format.ofWord? word = some format →
          smaller.decode word
            = if ∃ instruction ∈ chosen, instruction.key = Fields.key ⟨word, format⟩ then
                set.decode word
              else
                .unknown (.instruction ⟨word, format⟩))
      ∧ (chosen.Perm instructions → smaller.decode = set.decode) := by
  rw [build_eq_ok_iff] at hbuild
  subst hbuild
  obtain ⟨smaller, rfl⟩ := exists_of_subperm hchosen
  refine ⟨smaller, build_eq_ok_iff.2 rfl, ?_, ?_, decode_eq_of_perm⟩
  . intro word hformat
    rw [decode_of_ofWord?_eq_none hformat, decode_of_ofWord?_eq_none hformat]
  . intro word format hformat
    exact decode_of_subset hchosen.subset hformat

/-- Of all rows only two that have changed places: an addition is decoded as before, a shift no more. -/
theorem decode_of_subperm_sub_add :
    let sub := Release2.special "sub" 0x22 Release2.rdRsRt [.shamt]
    let add := Release2.special "add" 0x20 Release2.rdRsRt [.shamt]
    build Release2.rows = .ok release2
      ∧ [sub, add].Subperm Release2.rows
      ∧ ∃ smaller, build [sub, add] = .ok smaller
        ∧ smaller.decode 0x01014820#32 = release2.decode 0x01014820#32
        ∧ smaller.decode 0x00094882#32 = .unknown (.instruction ⟨0x00094882#32, .register⟩) := by
  have hbuild : build Release2.rows = .ok release2 := build_eq_ok_iff.2 rfl
  have hchosen : [Release2.special "sub" 0x22 Release2.rdRsRt [.shamt],
      Release2.special "add" 0x20 Release2.rdRsRt [.shamt]].Subperm Release2.rows :=
    List.subperm_of_subset (by decide) (by decide +kernel)
  obtain ⟨smaller, hsmaller, _, hdecode, _⟩ := decode_of_subperm hbuild hchosen
  refine ⟨hbuild, hchosen, smaller, hsmaller, ?_, ?_⟩
  . rw [hdecode _ .register rfl, if_pos (by decide)]
  . rw [hdecode _ .register rfl, if_neg (by decide)]

end InstructionSet

end Mips32
