import Mips32.InstructionSet

/-!
This module contains the laws of building instruction sets. Building accepts a list exactly if there is a
set with these instructions, and then it answers with that set.
-/

namespace Mips32

namespace InstructionSet

theorem eq_of_instructions_eq {set₁ set₂ : InstructionSet}
    (h : set₁.instructions = set₂.instructions) : set₁ = set₂ := by
  cases set₁
  cases set₂
  dsimp at h
  subst h
  rfl

theorem exists_of_sublist {set : InstructionSet} {instructions : List Instruction}
    (h : instructions.Sublist set.instructions) :
    ∃ smaller : InstructionSet, smaller.instructions = instructions := by
  refine ⟨⟨instructions, ?_, set.distinct.sublist h⟩, rfl⟩
  intro instruction hmem
  exact set.wellFormed instruction (h.subset hmem)

theorem insert_eq_ok_iff {set result : InstructionSet} {instruction : Instruction} :
    set.insert instruction = .ok result ↔
      result.instructions = set.instructions ++ [instruction] := by
  unfold insert
  constructor
  . intro h
    split at h
    . contradiction
    . split at h
      . contradiction
      . rw [Except.ok.injEq] at h
        rw [← h]
  . intro h
    have hmem : instruction ∈ result.instructions := by simp [h]
    have hdefect := Instruction.defect?_eq_none_iff.2 (result.wellFormed instruction hmem)
    have hfind : set.find? instruction.key = none := by
      have hdistinct := result.distinct
      rw [h, List.pairwise_append] at hdistinct
      rw [find?_eq_none_iff]
      intro earlier hearlier
      exact hdistinct.2.2 earlier hearlier instruction List.mem_cons_self
    split
    . simp_all
    . split
      . simp_all
      . congr 1
        exact eq_of_instructions_eq h.symm

theorem foldlM_insert_eq_ok_iff {set result : InstructionSet} {instructions : List Instruction} :
    instructions.foldlM insert set = .ok result ↔
      result.instructions = set.instructions ++ instructions := by
  induction instructions generalizing set with
  | nil =>
    rw [List.foldlM_nil, List.append_nil]
    constructor
    . intro h
      cases h
      rfl
    . intro h
      rw [eq_of_instructions_eq h]
      rfl
  | cons instruction rest ih =>
    rw [List.foldlM_cons]
    constructor
    . intro h
      cases hinsert : set.insert instruction with
      | error defect =>
        rw [hinsert] at h
        contradiction
      | ok next =>
        rw [hinsert] at h
        rw [ih.1 h, insert_eq_ok_iff.1 hinsert]
        simp
    . intro h
      -- the instructions up to this one already make up a set, since those of the result do
      have hsublist : (set.instructions ++ [instruction]).Sublist result.instructions := by
        rw [h, List.append_cons set.instructions instruction rest]
        apply List.sublist_append_left
      obtain ⟨next, hnext⟩ := exists_of_sublist hsublist
      rw [insert_eq_ok_iff.2 hnext]
      apply ih.2
      rw [h, hnext]
      simp

theorem build_eq_foldlM (instructions : List Instruction) :
    build instructions = instructions.foldlM insert empty := by
  have hformats : Format.all.findSome? Format.defect? = none := by
    rw [List.findSome?_eq_none_iff]
    intro format _
    exact format.defect?_eq_none
  unfold build
  rw [hformats]

theorem build_eq_ok_iff {instructions : List Instruction} {set : InstructionSet} :
    build instructions = .ok set ↔ set.instructions = instructions := by
  rw [build_eq_foldlM]
  apply foldlM_insert_eq_ok_iff

end InstructionSet

end Mips32
