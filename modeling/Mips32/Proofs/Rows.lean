import Mathlib.Data.List.Forall2
import Mips32.Proofs.OneLine

/-!
This module contains the verification of the plain listing. It can be cut into its rows again, and a row
tells the number of its line and all that the line turned out to be, although it shows but a part of it: the
digits of a word settle how the word is decoded.
-/

namespace Mips32

theorem Word.ReadError.message_injective {e₁ e₂ : Word.ReadError} (h : e₁.message = e₂.message) :
    e₁ = e₂ := by
  have hlist := congrArg String.toList h
  unfold message at h hlist
  -- messages of different kinds differ in their first letter
  cases e₁ with
  | empty =>
    cases e₂ with
    | empty => rfl
    | malformed input₂ => simp at hlist
    | outOfRange input₂ => simp at hlist
  | malformed input₁ =>
    cases e₂ with
    | empty => simp at hlist
    | malformed input₂ =>
      rw [String.append_right_inj] at h
      rw [Text.quote_injective h]
    | outOfRange input₂ => simp at hlist
  | outOfRange input₁ =>
    cases e₂ with
    | empty => simp at hlist
    | malformed input₂ => simp at hlist
    | outOfRange input₂ =>
      rw [String.append_right_inj] at h
      rw [Text.quote_injective h]

namespace Entry

variable {entry : Entry}

theorem toList_row_of_ok {decoding : Decoding} (h : entry.outcome = .ok decoding) :
    ∃ rest, entry.row.toList
      =
    (Numeral.decimal entry.number).toList
      ++ ' ' :: ((Numeral.hex8 decoding.word.toNat).toList ++ ' ' :: rest) := by
  unfold row
  rw [h]
  cases decoding with
  | legal disassembly => simp [Decoding.text, Disassembly.text, Decoding.word]
  | illegal disassembly violations => simp [Decoding.text, Disassembly.text, Decoding.word]
  | unknown cause => simp [Decoding.word]

theorem toList_row_of_error {e : Word.ReadError} (h : entry.outcome = .error e) :
    entry.row.toList
      =
    (Numeral.decimal entry.number).toList
      ++ ' ' :: ("invalid".toList ++ ' ' :: ("input: " ++ e.message).toList) := by
  unfold row
  rw [h]
  simp

theorem cut_number {n₁ n₂ : Nat} {rest₁ rest₂ : List Char}
    (h : (Numeral.decimal n₁).toList ++ ' ' :: rest₁ = (Numeral.decimal n₂).toList ++ ' ' :: rest₂) :
    n₁ = n₂ ∧ rest₁ = rest₂ := by
  obtain ⟨hnumber, hrest⟩ :=
    Separator.cut_unique (Numeral.not_mem_decimal rfl) (Numeral.not_mem_decimal rfl) h
  exact ⟨Numeral.decimal_injective (String.toList_injective hnumber), hrest⟩

variable {entry₁ entry₂ : Entry}

theorem word_eq_of_row_eq {decoding₁ decoding₂ : Decoding} (h₁ : entry₁.outcome = .ok decoding₁)
    (h₂ : entry₂.outcome = .ok decoding₂) (h : entry₁.row = entry₂.row) :
    entry₁.number = entry₂.number ∧ decoding₁.word = decoding₂.word := by
  obtain ⟨rest₁, hrow₁⟩ := toList_row_of_ok h₁
  obtain ⟨rest₂, hrow₂⟩ := toList_row_of_ok h₂
  rw [← h, hrow₁] at hrow₂
  obtain ⟨hnumber, hrest⟩ := cut_number hrow₂
  obtain ⟨hword, _⟩ :=
    Separator.cut_unique (Numeral.not_mem_hex8 rfl) (Numeral.not_mem_hex8 rfl) hrest
  constructor
  . exact hnumber
  . apply BitVec.eq_of_toNat_eq
    exact Numeral.hex8_injective (String.toList_injective hword)

theorem error_eq_of_row_eq {e₁ e₂ : Word.ReadError} (h₁ : entry₁.outcome = .error e₁)
    (h₂ : entry₂.outcome = .error e₂) (h : entry₁.row = entry₂.row) :
    entry₁.number = entry₂.number ∧ e₁ = e₂ := by
  have hrow₂ := toList_row_of_error h₂
  rw [← h, toList_row_of_error h₁] at hrow₂
  obtain ⟨hnumber, hrest⟩ := cut_number hrow₂
  rw [List.append_cancel_left_eq, List.cons.injEq, String.toList_inj] at hrest
  constructor
  . exact hnumber
  . exact Word.ReadError.message_injective ((String.append_right_inj _).1 hrest.2)

theorem row_ne_row {decoding : Decoding} {e : Word.ReadError} (h₁ : entry₁.outcome = .ok decoding)
    (h₂ : entry₂.outcome = .error e) : entry₁.row ≠ entry₂.row := by
  intro h
  obtain ⟨rest, hrow⟩ := toList_row_of_ok h₁
  rw [h, toList_row_of_error h₂] at hrow
  obtain ⟨_, hrest⟩ := cut_number hrow
  -- the eight digits of a word are longer than what stands there otherwise
  obtain ⟨hword, _⟩ := Separator.cut_unique (by decide) (Numeral.not_mem_hex8 rfl) hrest
  have hlength := Numeral.length_hex8 decoding.word.toNat
  rw [← hword] at hlength
  contradiction

end Entry

namespace Line

variable {set : InstructionSet} {line₁ line₂ : Line}

theorem outcome_entry (set : InstructionSet) (line : Line) :
    (∃ e, (line.entry set).outcome = .error e)
      ∨ ∃ word, (line.entry set).outcome = .ok (set.decode word) := by
  unfold entry
  cases Word.read line.text with
  | error e => exact .inl ⟨e, rfl⟩
  | ok word => exact .inr ⟨word, rfl⟩

theorem row_entry_eq_iff :
    (line₁.entry set).row = (line₂.entry set).row ↔
      (line₁.entry set).number = (line₂.entry set).number
        ∧ (line₁.entry set).outcome = (line₂.entry set).outcome := by
  constructor
  . intro h
    cases line₁.outcome_entry set with
    | inl h₁ =>
      obtain ⟨e₁, h₁⟩ := h₁
      cases line₂.outcome_entry set with
      | inl h₂ =>
        obtain ⟨e₂, h₂⟩ := h₂
        obtain ⟨hnumber, rfl⟩ := Entry.error_eq_of_row_eq h₁ h₂ h
        exact ⟨hnumber, h₁.trans h₂.symm⟩
      | inr h₂ =>
        obtain ⟨word₂, h₂⟩ := h₂
        exact absurd h.symm (Entry.row_ne_row h₂ h₁)
    | inr h₁ =>
      obtain ⟨word₁, h₁⟩ := h₁
      cases line₂.outcome_entry set with
      | inl h₂ =>
        obtain ⟨e₂, h₂⟩ := h₂
        exact absurd h (Entry.row_ne_row h₁ h₂)
      | inr h₂ =>
        obtain ⟨word₂, h₂⟩ := h₂
        obtain ⟨hnumber, hword⟩ := Entry.word_eq_of_row_eq h₁ h₂ h
        rw [InstructionSet.word_decode, InstructionSet.word_decode] at hword
        subst hword
        exact ⟨hnumber, h₁.trans h₂.symm⟩
  . rintro ⟨hnumber, houtcome⟩
    unfold Entry.row
    rw [hnumber, houtcome]

end Line

namespace Listing

open InstructionSet

theorem toList_rows (entries : List Entry) :
    (rows entries).toList = entries.flatMap fun entry => entry.row.toList ++ ['\n'] := by
  unfold rows
  rw [String.toList_join, List.flatMap_map]
  simp

theorem splitOn_rows {entries : List Entry} (h : ∀ entry ∈ entries, Text.OneLine entry.row) :
    (rows entries).toList.splitOn '\n' = entries.map (·.row.toList) ++ [[]] := by
  rw [toList_rows]
  induction entries with
  | nil => rfl
  | cons entry rest ih =>
    rw [List.forall_mem_cons] at h
    rw [List.flatMap_cons, List.append_assoc, List.singleton_append, List.map_cons, List.cons_append]
    rw [List.splitOn_append_cons_self_of_not_mem h.1.not_mem_feed, ih h.2]

theorem oneLine_rows_release2 (lines : List Line) :
    ∀ entry ∈ lines.map (·.entry release2), Text.OneLine entry.row := by
  rw [List.forall_mem_map]
  intro line _
  exact line.oneLine_row_entry namesOneLine_release2

theorem rows_eq_rows_iff_map_row {entries₁ entries₂ : List Entry}
    (h₁ : ∀ entry ∈ entries₁, Text.OneLine entry.row)
    (h₂ : ∀ entry ∈ entries₂, Text.OneLine entry.row) :
    rows entries₁ = rows entries₂ ↔ entries₁.map Entry.row = entries₂.map Entry.row := by
  constructor
  . intro h
    have hsplit := splitOn_rows h₁
    rw [h, splitOn_rows h₂, List.append_cancel_right_eq] at hsplit
    apply (List.map_inj_right fun _ _ => String.toList_injective).1
    rw [List.map_map, List.map_map]
    exact hsplit.symm
  . intro h
    have hrows (entries : List Entry) :
        rows entries = String.join ((entries.map Entry.row).map (· ++ "\n")) := by
      rw [List.map_map]
      rfl
    rw [hrows, hrows, h]

/--
A plain listing has a row for each line, in order, and no other line breaks. Two batches have the same
listing exactly if their lines, one by one, have the same numbers and turned out to be the same.
-/
theorem rows_eq_rows_iff (threads₁ threads₂ : Option Nat) (lines₁ lines₂ : List Line) :
    ∃ entries₁ entries₂, ofLines release2 threads₁ lines₁ = .ok entries₁
      ∧ ofLines release2 threads₂ lines₂ = .ok entries₂
      ∧ entries₁.map Entry.number = lines₁.map Line.number
      ∧ (rows entries₁).toList = (entries₁.flatMap fun entry => entry.row.toList ++ ['\n'])
      ∧ (∀ entry ∈ entries₁, Text.OneLine entry.row)
      ∧ (rows entries₁ = rows entries₂ ↔
          List.Forall₂ (fun entry₁ entry₂ =>
            entry₁.number = entry₂.number ∧ entry₁.outcome = entry₂.outcome) entries₁ entries₂) := by
  refine ⟨_, _, ofLines_eq_ok .., ofLines_eq_ok .., List.map_map, toList_rows _,
    oneLine_rows_release2 lines₁, ?_⟩
  rw [rows_eq_rows_iff_map_row (oneLine_rows_release2 lines₁) (oneLine_rows_release2 lines₂)]
  rw [← List.forall₂_eq_eq_eq]
  simp only [List.forall₂_map_left_iff, List.forall₂_map_right_iff, Line.row_entry_eq_iff]

/--
A batch is decoded line by line. No decoding is left over, each line that holds no word is warned about, and
another text in one line changes neither the entry nor the row of any other line.
-/
theorem ofLines_eq_map_entry (threads : Option Nat) (lines : List Line) :
    ofLines release2 threads lines = .ok (lines.map (·.entry release2))
      ∧ deal (lines.map Line.read) (release2.decodeAll threads (words lines))
        = .ok (lines.map (·.entry release2), [])
      ∧ warnings (lines.map (·.entry release2)) = lines.filterMap (fun line =>
          match Word.read line.text with
          | .ok _ => none
          | .error e => some {
              level := .warn
              message := "unparsable input line"
              fields := [("line", Numeral.decimal line.number), ("error", e.message)]
            })
      ∧ ∀ (index : Nat) (text : String) (other : Nat), other ≠ index →
          let changed := lines.modify index fun line => { line with text := text }
          (changed.map (·.entry release2))[other]? = (lines.map (·.entry release2))[other]?
            ∧ ((rows (changed.map (·.entry release2))).toList.splitOn '\n')[other]?
              = ((rows (lines.map (·.entry release2))).toList.splitOn '\n')[other]? := by
  refine ⟨ofLines_eq_ok .., deal_decodeAll .., warnings_map_entry .., ?_⟩
  intro index text other hne changed
  have hother : changed[other]? = lines[other]? := by
    unfold changed
    rw [List.getElem?_modify_ne _ _ hne.symm]
  have hlength : changed.length = lines.length := List.length_modify ..
  constructor
  . rw [List.getElem?_map, List.getElem?_map, hother]
  . rw [splitOn_rows (oneLine_rows_release2 _), splitOn_rows (oneLine_rows_release2 _)]
    rw [List.getElem?_append, List.getElem?_append]
    simp only [List.getElem?_map, List.length_map, hother, hlength]

end Listing

end Mips32
