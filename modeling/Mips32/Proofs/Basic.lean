/-!
This module contains facts about results, lists and joined texts that the verification rests on and that are not
about instructions.
-/

namespace Except

variable {ε α β : Type} {f : α → β} {result : Except ε α}

theorem map_eq_ok_iff {b : β} : result.map f = .ok b ↔ ∃ a, result = .ok a ∧ f a = b := by
  cases result with
  | ok a => simp [Except.map]
  | error e => simp [Except.map]

theorem map_eq_error_iff {e : ε} : result.map f = .error e ↔ result = .error e := by
  cases result with
  | ok a => simp [Except.map]
  | error e => simp [Except.map]

end Except

namespace List

variable {α β : Type} {list : List α}

theorem mapM_eq_some_map {f : α → Option β} {g : α → β} (h : ∀ a ∈ list, f a = some (g a)) :
    list.mapM f = some (list.map g) := by
  induction list with
  | nil => rfl
  | cons a rest ih =>
    rw [List.forall_mem_cons] at h
    rw [List.mapM_cons, h.1, ih h.2]
    rfl

theorem findM?_eq_some_find? {f : α → Option Bool} {g : α → Bool} (h : ∀ a ∈ list, f a = some (g a)) :
    list.findM? f = some (list.find? g) := by
  induction list with
  | nil => rfl
  | cons a rest ih =>
    rw [List.forall_mem_cons] at h
    rw [List.findM?, List.find?_cons, h.1, ih h.2]
    cases g a <;> rfl

theorem exists_first {p : α → Prop} [DecidablePred p] (h : ¬∀ a ∈ list, p a) :
    ∃ before a after, list = before ++ a :: after ∧ (∀ earlier ∈ before, p earlier) ∧ ¬p a := by
  cases hfind : list.find? fun a => !decide (p a) with
  | none => exact absurd (by simpa using hfind) h
  | some a =>
    obtain ⟨hnot, before, after, hlist, hbefore⟩ := List.find?_eq_some_iff_append.1 hfind
    exact ⟨before, a, after, hlist, by simpa using hbefore, by simpa using hnot⟩

end List

namespace Mips32

/-! Text that is joined by a mark which occurs in none of its parts can be taken apart in one way only. -/

namespace Separator

variable {mark : Char} {left₁ left₂ right₁ right₂ : List Char}

theorem cut_unique (h₁ : mark ∉ left₁) (h₂ : mark ∉ left₂)
    (h : left₁ ++ mark :: right₁ = left₂ ++ mark :: right₂) : left₁ = left₂ ∧ right₁ = right₂ := by
  induction left₁ generalizing left₂ with
  | nil =>
    cases left₂ with
    | nil => simpa using h
    | cons c left₂ =>
      simp only [List.nil_append, List.cons_append, List.cons.injEq] at h
      rw [h.1] at h₂
      exact absurd List.mem_cons_self h₂
  | cons c left₁ ih =>
    cases left₂ with
    | nil =>
      simp only [List.nil_append, List.cons_append, List.cons.injEq] at h
      rw [h.1] at h₁
      exact absurd List.mem_cons_self h₁
    | cons d left₂ =>
      simp only [List.cons_append, List.cons.injEq] at h
      rw [List.mem_cons, not_or] at h₁ h₂
      obtain ⟨rfl, htail⟩ := h
      obtain ⟨rfl, hright⟩ := ih h₁.2 h₂.2 htail
      exact ⟨rfl, hright⟩

theorem mem_intercalate_cons_cons {tail item next : List Char} {items : List (List Char)} :
    mark ∈ (mark :: tail).intercalate (item :: next :: items) := by
  simp [List.intercalate_cons_cons]

theorem intercalate_injective {tail : List Char} {items₁ items₂ : List (List Char)}
    (hnil₁ : items₁ ≠ []) (hnil₂ : items₂ ≠ []) (hmark₁ : ∀ item ∈ items₁, mark ∉ item)
    (hmark₂ : ∀ item ∈ items₂, mark ∉ item)
    (h : (mark :: tail).intercalate items₁ = (mark :: tail).intercalate items₂) : items₁ = items₂ := by
  induction items₁ generalizing items₂ with
  | nil => contradiction
  | cons item₁ rest₁ ih =>
    cases items₂ with
    | nil => contradiction
    | cons item₂ rest₂ =>
      rw [List.forall_mem_cons] at hmark₁ hmark₂
      cases rest₁ with
      | nil =>
        cases rest₂ with
        | nil => simpa using h
        | cons next₂ rest₂ =>
          rw [List.intercalate_singleton] at h
          rw [h] at hmark₁
          exact absurd mem_intercalate_cons_cons hmark₁.1
      | cons next₁ rest₁ =>
        cases rest₂ with
        | nil =>
          rw [List.intercalate_singleton] at h
          rw [← h] at hmark₂
          exact absurd mem_intercalate_cons_cons hmark₂.1
        | cons next₂ rest₂ =>
          simp only [List.intercalate_cons_cons, List.append_assoc, List.cons_append] at h
          obtain ⟨rfl, htail⟩ := cut_unique hmark₁.1 hmark₂.1 h
          rw [List.append_cancel_left_eq] at htail
          rw [ih (by simp) (by simp) hmark₁.2 hmark₂.2 htail]

end Separator

end Mips32
