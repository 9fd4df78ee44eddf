import Mips32.Proofs.LineBreak
import Mips32.Proofs.OneLine

/-!
This module contains the verification of tables for readers that end a record at any line break. All that a table says
about a line fits in one line, but for the text of the line itself. A carriage return alone does not put the text
between quotation marks, so the record of such a line is read as two.
-/

namespace Mips32

theorem Csv.sealed_of_oneLine {text : String} (h : Text.OneLine text) : Sealed text := by
  rw [sealed_iff]
  intro _ hmem
  exact (h _ hmem).2 rfl

namespace Text

theorem oneLine_getD {value : Option String} (h : ∀ text, value = some text → OneLine text) :
    OneLine (value.getD "") := by
  cases value with
  | none => decide
  | some text => exact h text rfl

theorem oneLine_getD_map {α : Type} {toText : α → String} (h : ∀ a, OneLine (toText a))
    (value : Option α) : OneLine ((value.map toText).getD "") := by
  apply oneLine_getD
  intro text hmap
  obtain ⟨a, _, rfl⟩ := Option.map_eq_some_iff.1 hmap
  exact h a

end Text

theorem Entry.Status.oneLine_name (status : Entry.Status) : Text.OneLine status.name := by
  cases status <;> decide

theorem Unknown.oneLine_reason (unknown : Unknown) : Text.OneLine unknown.reason :=
  (Text.oneLine_append.1 unknown.oneLine_text).2

theorem InstructionSet.NamesOneLine.disassembly? {set : InstructionSet} (hnames : set.NamesOneLine)
    {word : Word} {disassembly : Disassembly} (h : (set.decode word).disassembly? = some disassembly) :
    Text.OneLine disassembly.mnemonic.text := by
  obtain ⟨_, _, hdecode⟩ | ⟨_, _, _, hdecode⟩ | ⟨_, hidentify, _, hdecode⟩ | ⟨_, hidentify, _, hdecode⟩ :=
    set.decode_cases word
  all_goals
    rw [hdecode] at h
    cases h
  . exact hnames.render (mem_of_identify? hidentify) _
  . exact hnames.canonical (mem_of_identify? hidentify) _

namespace Line

variable {set : InstructionSet}

theorem oneLine_mnemonic?_entry (hnames : set.NamesOneLine) (line : Line) :
    Text.OneLine ((line.entry set).mnemonic?.getD "") := by
  apply Text.oneLine_getD
  intro text h
  obtain ⟨disassembly, hdisassembly, rfl⟩ := Option.map_eq_some_iff.1 h
  obtain ⟨decoding, hdecoding, hshown⟩ := Option.bind_eq_some_iff.1 hdisassembly
  unfold Entry.decoding? entry at hdecoding
  cases hread : Word.read line.text with
  | error e =>
    rw [hread] at hdecoding
    contradiction
  | ok word =>
    rw [hread] at hdecoding
    cases hdecoding
    exact hnames.disassembly? hshown

theorem oneLine_detail?_entry (line : Line) :
    Text.OneLine ((line.entry set).detail?.getD "") := by
  apply Text.oneLine_getD
  intro text h
  unfold Entry.detail? at h
  split at h
  all_goals
    cases h
  . exact Violation.oneLine_listText _
  . exact Unknown.oneLine_reason _
  . exact Word.ReadError.oneLine_message _

theorem cells_entry (hnames : set.NamesOneLine) (line : Line) :
    ∃ rest, (line.entry set).cells = Numeral.decimal line.number :: Text.trim line.text :: rest
      ∧ ∀ text ∈ rest, Text.OneLine text := by
  refine ⟨_, rfl, ?_⟩
  simp only [List.forall_mem_cons]
  refine ⟨?_, ?_, ?_, ?_, ?_, ?_, ?_, by simp⟩
  . exact Text.oneLine_getD_map (fun _ => Numeral.oneLine_hex8 _) _
  . exact Entry.Status.oneLine_name _
  . exact Text.oneLine_getD_map (fun _ => Format.oneLine_letter _) _
  . exact Text.oneLine_getD_map (fun _ => Fields.oneLine_bracketed Numeral.oneLine_decimal _) _
  . exact Text.oneLine_getD_map (fun _ => Fields.oneLine_bracketed Fields.oneLine_hexNumeral _) _
  . exact oneLine_mnemonic?_entry hnames line
  . exact oneLine_detail?_entry line

/--
A line break within the text of a line ends no record: there is no carriage return, or another character calls for
quotation marks.
-/
def Contained (line : Line) : Prop :=
  let text := (Text.trim line.text).toList
  '\r' ∈ text → ',' ∈ text ∨ '"' ∈ text ∨ '\n' ∈ text

theorem contained_iff {line : Line} : line.Contained ↔ Csv.Sealed (Text.trim line.text) := by
  have hquotes {text : List Char} :
      Csv.needsQuotes text = true ↔ ',' ∈ text ∨ '"' ∈ text ∨ '\n' ∈ text := by
    simp [Csv.needsQuotes, and_or_left, exists_or, or_assoc]
  unfold Contained
  dsimp only
  rw [Csv.sealed_iff, ← hquotes, ← Bool.not_eq_true]
  exact Decidable.not_imp_not.symm

theorem forall_sealed_cells_iff (hnames : set.NamesOneLine) {line : Line} :
    (∀ text ∈ (line.entry set).cells, Csv.Sealed text) ↔ line.Contained := by
  obtain ⟨rest, hcells, hrest⟩ := line.cells_entry hnames
  rw [hcells, List.forall_mem_cons, List.forall_mem_cons, contained_iff]
  constructor
  . intro h
    exact h.2.1
  . intro h
    refine ⟨Csv.sealed_of_oneLine (Numeral.oneLine_decimal _), h, ?_⟩
    intro text hmem
    exact Csv.sealed_of_oneLine (hrest text hmem)

theorem length_eq_one_of_not_sealed (hnames : set.NamesOneLine) {line : Line} {before after : List String}
    {text : String} (hcells : (line.entry set).cells = before ++ text :: after)
    (hsealed : ¬Csv.Sealed text) : before.length = 1 := by
  obtain ⟨rest, hentry, hrest⟩ := line.cells_entry hnames
  rw [hentry] at hcells
  cases before with
  | nil =>
    rw [List.nil_append, List.cons.injEq] at hcells
    rw [← hcells.1] at hsealed
    exact absurd (Csv.sealed_of_oneLine (Numeral.oneLine_decimal _)) hsealed
  | cons number before =>
    cases before with
    | nil => rfl
    | cons first before =>
      simp only [List.cons_append, List.cons.injEq] at hcells
      have hmem : text ∈ rest := by simp [hcells.2.2]
      exact absurd (Csv.sealed_of_oneLine (hrest text hmem)) hsealed

end Line

namespace Listing

open InstructionSet Csv

theorem sealed_of_mem_columns : ∀ text ∈ columns, Sealed text := by
  decide

theorem forall_sealed_iff (lines : List Line) :
    (∀ texts ∈ columns :: (lines.map (·.entry release2)).map Entry.cells, ∀ text ∈ texts, Sealed text) ↔
      ∀ line ∈ lines, line.Contained := by
  rw [List.forall_mem_cons, and_iff_right sealed_of_mem_columns, List.forall_mem_map, List.forall_mem_map]
  apply forall₂_congr
  intro line _
  exact Line.forall_sealed_cells_iff namesOneLine_release2

theorem ne_nil_of_mem_table (lines : List Line) :
    ∀ texts ∈ columns :: (lines.map (·.entry release2)).map Entry.cells, texts ≠ [] := by
  rw [List.forall_mem_cons, List.forall_mem_map]
  exact ⟨by decide, fun _ _ => List.cons_ne_nil _ _⟩

theorem exists_length_eq_two_of_cut {lines : List Line} {read : List (List String)}
    (h : Cut (columns :: (lines.map (·.entry release2)).map Entry.cells) read) :
    ∃ record ∈ read, record.length = 2 := by
  obtain ⟨earlier, later, before, after, text, head, hsealed, _, hread, hwritten⟩ := (cut_iff ..).1 h
  refine ⟨before ++ [String.ofList head], hread.subset (by simp), ?_⟩
  have hmem : before ++ text :: after ∈ columns :: (lines.map (·.entry release2)).map Entry.cells := by
    rw [hwritten]
    simp
  rw [List.mem_cons] at hmem
  have hlength : before.length = 1 := by
    cases hmem with
    | inl hcolumns => exact absurd (sealed_of_mem_columns text (by rw [← hcolumns]; simp)) hsealed
    | inr hmem =>
      rw [List.map_map] at hmem
      obtain ⟨line, _, hcells⟩ := List.mem_map.1 hmem
      exact Line.length_eq_one_of_not_sealed namesOneLine_release2 hcells hsealed
  rw [List.length_append, List.length_singleton, hlength]

theorem readBreaks?_table_of_contained {lines : List Line} (h : ∀ line ∈ lines, line.Contained) :
    readBreaks? (table (lines.map (·.entry release2)))
      =
    some (columns :: (lines.map (·.entry release2)).map Entry.cells) := by
  apply readBreaks?_text_of_sealed
  . exact (forall_sealed_iff lines).2 h
  . exact ne_nil_of_mem_table lines

theorem contained_of_readBreaks?_table {lines : List Line} {records : List (List String)}
    (h : readBreaks? (table (lines.map (·.entry release2))) = some (columns :: records))
    (hlength : ∀ record ∈ records, record.length = 9) : ∀ line ∈ lines, line.Contained := by
  rw [← forall_sealed_iff]
  by_contra hnot
  obtain ⟨record, hmem, htwo⟩ :=
    exists_length_eq_two_of_cut (cut_of_not_sealed hnot (ne_nil_of_mem_table lines) h)
  have hnine : ∀ record ∈ columns :: records, record.length = 9 := by
    rw [List.forall_mem_cons]
    exact ⟨rfl, hlength⟩
  have := hnine record hmem
  omega

/--
The table of a batch is read line by line, where any line break ends a record, exactly if no text of a line has a
carriage return inside but neither a comma nor a quotation mark nor a line feed. Otherwise there is a cell that is left
as it is although it holds a line break, and some record has not its nine cells.
-/
theorem readBreaks?_table_iff (threads : Option Nat) (lines : List Line) :
    ∃ entries, ofLines release2 threads lines = .ok entries
      ∧ ((∀ entry ∈ entries, ∀ text ∈ entry.cells, Sealed text) ↔ ∀ line ∈ lines, line.Contained)
      ∧ (readBreaks? (table entries) = some (columns :: entries.map Entry.cells) ↔
          ∀ line ∈ lines, line.Contained)
      ∧ ((∃ records, readBreaks? (table entries) = some (columns :: records)
            ∧ ∀ record ∈ records, record.length = 9) ↔
          ∀ line ∈ lines, line.Contained) := by
  have hnine : ∀ record ∈ (lines.map (·.entry release2)).map Entry.cells, record.length = 9 := by
    rw [List.forall_mem_map]
    exact fun _ _ => rfl
  refine ⟨_, ofLines_eq_ok .., ?_, ?_, ?_⟩
  . rw [← forall_sealed_iff, List.forall_mem_cons, and_iff_right sealed_of_mem_columns]
    rw [List.forall_mem_map, List.forall_mem_map, List.forall_mem_map]
  . constructor
    . intro h
      exact contained_of_readBreaks?_table h hnine
    . exact readBreaks?_table_of_contained
  . constructor
    . rintro ⟨records, hrecords, hlength⟩
      exact contained_of_readBreaks?_table hrecords hlength
    . intro h
      exact ⟨_, readBreaks?_table_of_contained h, hnine⟩

/-- A text with a carriage return inside is cut in two, and so is its record. -/
theorem readBreaks?_table_carriage_return :
    ∃ entries, ofLines release2 none [⟨1, "a\rb"⟩] = .ok entries
      ∧ entries.flatMap Entry.cells
        = ["1", "a\rb", "", "invalid", "", "", "", "",
            "not a decimal or 0x-prefixed hexadecimal number: \"a\\rb\""]
      ∧ ¬Sealed "a\rb"
      ∧ readBreaks? (table entries)
        = some [columns, ["1", "a"], ["b", "", "invalid", "", "", "", "",
            "not a decimal or 0x-prefixed hexadecimal number: \"a\\rb\""]] := by
  refine ⟨_, rfl, ?_, ?_, ?_⟩
  . decide +kernel
  . decide
  . decide +kernel

end Listing

end Mips32
