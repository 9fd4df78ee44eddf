import Mathlib.Data.List.DropRight
import Mips32.Text

/-!
This module contains the verification of trimming. Every text is its trimmed form with blanks around it,
and as a trimmed text neither starts nor ends with a blank, there is only one such form.
-/

namespace Mips32

namespace Text

def AllBlank (text : String) : Prop :=
  ∀ c ∈ text.toList, isBlank c = true

instance (text : String) : Decidable (AllBlank text) :=
  List.decidableBAll (fun c => isBlank c = true) text.toList

structure Trimmed (text : String) : Prop where
  head_eq_false : ∀ c ∈ text.toList.head?, isBlank c = false
  last_eq_false : ∀ c ∈ text.toList.getLast?, isBlank c = false

variable {text trimmed before after : String}

theorem toList_trim (text : String) :
    (trim text).toList = (text.toList.dropWhile isBlank).rdropWhile isBlank := by
  unfold trim
  rw [String.toList_ofList]
  rfl

theorem AllBlank.dropWhile_append (h : AllBlank before) (rest : List Char) :
    (before.toList ++ rest).dropWhile isBlank = rest.dropWhile isBlank :=
  List.dropWhile_append_of_pos h

theorem AllBlank.rdropWhile_append (h : AllBlank after) (rest : List Char) :
    (rest ++ after.toList).rdropWhile isBlank = rest.rdropWhile isBlank := by
  unfold List.rdropWhile
  rw [List.reverse_append, List.dropWhile_append_of_pos]
  intro c hmem
  exact h c (List.mem_reverse.1 hmem)

theorem trim_surrounded (hbefore : AllBlank before) (hafter : AllBlank after)
    (htrimmed : Trimmed trimmed) : trim (before ++ trimmed ++ after) = trimmed := by
  apply String.toList_injective
  rw [toList_trim, String.toList_append, String.toList_append, List.append_assoc]
  rw [hbefore.dropWhile_append]
  have hhead := htrimmed.head_eq_false
  have hlast := htrimmed.last_eq_false
  cases h : trimmed.toList with
  | nil =>
    have hdrop : after.toList.dropWhile isBlank = [] := List.dropWhile_eq_nil_iff.2 hafter
    rw [List.nil_append, hdrop, List.rdropWhile_nil]
  | cons c rest =>
    rw [h] at hhead hlast
    have hc : ¬isBlank c = true := by simpa using hhead
    rw [List.cons_append, List.dropWhile_cons_of_neg hc, ← List.cons_append]
    rw [hafter.rdropWhile_append, List.rdropWhile_eq_self_iff]
    intro hne
    simpa using hlast _ (List.getLast?_eq_some_getLast hne)

theorem trimmed_trim (text : String) : Trimmed (trim text) := by
  constructor
  all_goals
    rw [toList_trim]
    intro c hc
  . obtain ⟨rest, hrest⟩ := List.rdropWhile_prefix isBlank (text.toList.dropWhile isBlank)
    have hhead : c ∈ (text.toList.dropWhile isBlank).head? := by
      rw [← hrest, List.head?_append, Option.mem_def, Option.or_eq_some_iff]
      exact .inl hc
    have hdrop := text.toList.head?_dropWhile_not isBlank
    rw [Option.mem_def.1 hhead] at hdrop
    exact hdrop
  . obtain ⟨hne, hlast⟩ := List.mem_getLast?_eq_getLast hc
    rw [hlast]
    simpa using (text.toList.dropWhile isBlank).rdropWhile_last_not isBlank hne

theorem exists_eq_surrounded (text : String) :
    ∃ before after, AllBlank before ∧ AllBlank after ∧ text = before ++ trim text ++ after := by
  refine ⟨String.ofList (text.toList.takeWhile isBlank),
    String.ofList ((text.toList.dropWhile isBlank).rtakeWhile isBlank), ?_, ?_, ?_⟩
  . intro c hmem
    rw [String.toList_ofList] at hmem
    exact List.mem_takeWhile_imp hmem
  . intro c hmem
    rw [String.toList_ofList] at hmem
    exact List.mem_rtakeWhile_imp hmem
  . apply String.toList_injective
    rw [String.toList_append, String.toList_append, String.toList_ofList, String.toList_ofList]
    rw [toList_trim, List.append_assoc, List.rdropWhile_append_rtakeWhile]
    rw [List.takeWhile_append_dropWhile]

theorem trim_eq_iff :
    trim text = trimmed ↔
      Trimmed trimmed
        ∧ ∃ before after, AllBlank before ∧ AllBlank after ∧ text = before ++ trimmed ++ after := by
  constructor
  . rintro rfl
    exact ⟨trimmed_trim text, exists_eq_surrounded text⟩
  . rintro ⟨htrimmed, before, after, hbefore, hafter, rfl⟩
    exact trim_surrounded hbefore hafter htrimmed

theorem trim_append_of_allBlank (h : AllBlank after) : trim (text ++ after) = trim text := by
  obtain ⟨before, rest, hbefore, hrest, htext⟩ := exists_eq_surrounded text
  rw [trim_eq_iff]
  refine ⟨trimmed_trim text, before, rest ++ after, hbefore, ?_, ?_⟩
  . intro c hmem
    rw [String.toList_append, List.mem_append] at hmem
    exact hmem.elim (hrest c) (h c)
  . rw [← String.append_assoc, ← htext]

theorem Trimmed.trim_eq (h : Trimmed text) : trim text = text := by
  rw [trim_eq_iff]
  exact ⟨h, "", "", by decide, by decide, by simp⟩

theorem trim_trim (text : String) : trim (trim text) = trim text :=
  (trimmed_trim text).trim_eq

theorem trimmed_of_forall_not_blank (h : ∀ c ∈ text.toList, isBlank c = false) : Trimmed text := by
  constructor
  . intro c hc
    exact h c (List.mem_of_mem_head? hc)
  . intro c hc
    exact h c (List.mem_of_mem_getLast? hc)

end Text

end Mips32
