import Mips32.Listing.Style
import Mips32.Proofs.Listing

/-!
This module contains the verification of comma-separated values: whatever the cells hold, reading the
records that have been written gives back these records, cell by cell. So a table tells the columns of all
its lines exactly. The runs over cells, records and texts are stated for any way of reading that does in a cell
what `Csv.Reader` does there.
-/

namespace Mips32

namespace Csv

theorem toList_cell_of_needsQuotes {text : String} (h : needsQuotes text.toList = true) :
    (cell text).toList = '"' :: (doubleQuotes text.toList ++ ['"']) := by
  unfold cell
  rw [if_pos h]
  simp

theorem cell_of_needsQuotes_eq_false {text : String} (h : needsQuotes text.toList = false) :
    cell text = text := by
  unfold cell
  rw [h, if_neg Bool.false_ne_true]

theorem needsQuotes_eq_false_iff {text : List Char} :
    needsQuotes text = false ↔ ∀ c ∈ text, c ≠ ',' ∧ c ≠ '"' ∧ c ≠ '\n' := by
  simp [needsQuotes, and_assoc]

theorem needsQuotes_cons_eq_false_iff {c : Char} {rest : List Char} :
    needsQuotes (c :: rest) = false ↔
      (c ≠ ',' ∧ c ≠ '"' ∧ c ≠ '\n') ∧ needsQuotes rest = false := by
  rw [needsQuotes_eq_false_iff, needsQuotes_eq_false_iff, List.forall_mem_cons]

namespace Reader

variable {records : List (List String)} {cells : List String} {part : List Char} {mark : Char}

theorem foldlM_bare {text : List Char} (h : needsQuotes text = false) :
    text.foldlM step ⟨.bare, records, cells, part⟩
      =
    some ⟨.bare, records, cells, part ++ text⟩ := by
  induction text generalizing part with
  | nil => simp
  | cons c rest ih =>
    obtain ⟨⟨hcomma, _, hfeed⟩, hrest⟩ := needsQuotes_cons_eq_false_iff.1 h
    have hstep : step ⟨.bare, records, cells, part⟩ c
        = some ⟨.bare, records, cells, part ++ [c]⟩ := by
      simp [step, separate?, push, hcomma, hfeed]
    rw [List.foldlM_cons, hstep, Option.bind_eq_bind, Option.bind_some, ih hrest]
    simp

theorem step_mark {place : Place} (hplace : place ≠ .quoted) (hmark : mark = ',' ∨ mark = '\n') :
    step ⟨place, records, cells, part⟩ mark = separate? ⟨.start, records, cells, part⟩ mark := by
  cases hmark with
  | inl hcomma =>
    subst hcomma
    cases place with
    | quoted => contradiction
    | start => rfl
    | bare => rfl
    | closed => rfl
  | inr hfeed =>
    subst hfeed
    cases place with
    | quoted => contradiction
    | start => rfl
    | bare => rfl
    | closed => rfl

theorem foldlM_unquoted {text : List Char} (h : needsQuotes text = false) :
    ∃ place, place ≠ .quoted
      ∧ text.foldlM step ⟨.start, records, cells, []⟩ = some ⟨place, records, cells, text⟩ := by
  cases text with
  | nil => exact ⟨.start, by decide, rfl⟩
  | cons c rest =>
    obtain ⟨⟨hcomma, hquote, hfeed⟩, hrest⟩ := needsQuotes_cons_eq_false_iff.1 h
    have hstart : step ⟨.start, records, cells, []⟩ c = some ⟨.bare, records, cells, [c]⟩ := by
      simp [step, separate?, push, hcomma, hquote, hfeed]
    refine ⟨.bare, by decide, ?_⟩
    rw [List.foldlM_cons, hstart, Option.bind_eq_bind, Option.bind_some, foldlM_bare hrest]
    rfl

section

variable {σ : Type} {next : σ → Char → Option σ} {lift : Reader → σ} {text : String}

/-- A way of reading, with states that are made from those of `Reader`, does at a character what `Reader` does. -/
def Follows (next : σ → Char → Option σ) (lift : Reader → σ) (reader : Reader) (c : Char) : Prop :=
  next (lift reader) c = (reader.step c).map lift

theorem foldlM_follows {text : List Char} (h : ∀ c ∈ text, ∀ reader, Follows next lift reader c)
    (reader : Reader) :
    text.foldlM next (lift reader) = (text.foldlM step reader).map lift := by
  induction text generalizing reader with
  | nil => rfl
  | cons c rest ih =>
    rw [List.forall_mem_cons] at h
    have hstep : next (lift reader) c = (reader.step c).map lift := h.1 reader
    rw [List.foldlM_cons, List.foldlM_cons, hstep]
    cases reader.step c with
    | none => rfl
    | some behind => exact ih h.2 behind

theorem foldlM_doubleQuotes
    (h : ∀ reader c, reader.place = .quoted ∨ c = '"' → Follows next lift reader c) (text : List Char) :
    (doubleQuotes text).foldlM next (lift ⟨.quoted, records, cells, part⟩)
      =
    some (lift ⟨.quoted, records, cells, part ++ text⟩) := by
  unfold Follows at h
  unfold doubleQuotes
  induction text generalizing part with
  | nil => simp
  | cons c rest ih =>
    have hstep : (if c = '"' then ['"', '"'] else [c]).foldlM next
          (lift ⟨.quoted, records, cells, part⟩)
        = some (lift ⟨.quoted, records, cells, part ++ [c]⟩) := by
      split
      . next hquote => simp [h, step, push, hquote]
      . next hquote => simp [h, step, push, hquote]
    rw [List.flatMap_cons, List.foldlM_append, hstep, Option.bind_eq_bind, Option.bind_some, ih]
    simp

/-- It follows `Reader` between quotation marks, at the marks, and in a text that is written without them. -/
def FollowsCell (next : σ → Char → Option σ) (lift : Reader → σ) (text : String) : Prop :=
  ∀ reader c, reader.place = .quoted ∨ c ∈ [',', '"', '\n']
    ∨ needsQuotes text.toList = false ∧ c ∈ text.toList → Follows next lift reader c

theorem FollowsCell.foldlM_cell (h : FollowsCell next lift text) :
    ∃ place, place ≠ .quoted
      ∧ (cell text).toList.foldlM next (lift ⟨.start, records, cells, []⟩)
          = some (lift ⟨place, records, cells, text.toList⟩) := by
  cases hquotes : needsQuotes text.toList with
  | false =>
    obtain ⟨place, hplace, hrun⟩ := foldlM_unquoted hquotes
    refine ⟨place, hplace, ?_⟩
    rw [cell_of_needsQuotes_eq_false hquotes]
    rw [foldlM_follows fun c hmem reader => h reader c (.inr (.inr ⟨hquotes, hmem⟩)), hrun]
    rfl
  | true =>
    have hquoted : ∀ reader c, reader.place = .quoted ∨ c = '"' → Follows next lift reader c := by
      rintro reader c (hplace | rfl)
      . exact h reader c (.inl hplace)
      . exact h reader _ (.inr (.inl (by decide)))
    have hopen : next (lift ⟨.start, records, cells, []⟩) '"'
        = some (lift ⟨.quoted, records, cells, []⟩) := hquoted _ _ (.inr rfl)
    have hclose : next (lift ⟨.quoted, records, cells, text.toList⟩) '"'
        = some (lift ⟨.closed, records, cells, text.toList⟩) := hquoted _ _ (.inr rfl)
    refine ⟨.closed, by decide, ?_⟩
    rw [toList_cell_of_needsQuotes hquotes, List.foldlM_cons, hopen, Option.bind_eq_bind]
    rw [Option.bind_some, List.foldlM_append, foldlM_doubleQuotes hquoted, Option.bind_eq_bind]
    rw [Option.bind_some, List.nil_append, List.foldlM_cons, hclose]
    rfl

/-- It takes the cell that this text is written as, with the separator behind it, as `Reader` does. -/
def Takes (next : σ → Char → Option σ) (lift : Reader → σ) (text : String) : Prop :=
  ∀ (records : List (List String)) (cells : List String) (mark : Char), mark = ',' ∨ mark = '\n' →
    ((cell text).toList ++ [mark]).foldlM next (lift ⟨.start, records, cells, []⟩)
      =
    (separate? ⟨.start, records, cells, text.toList⟩ mark).map lift

theorem FollowsCell.takes (h : FollowsCell next lift text) : Takes next lift text := by
  intro records cells mark hmark
  obtain ⟨place, hplace, hrun⟩ := h.foldlM_cell
  have hmem : mark ∈ [',', '"', '\n'] := by
    obtain rfl | rfl := hmark
    . decide
    . decide
  have hstep : next (lift ⟨place, records, cells, text.toList⟩) mark
      = (separate? ⟨.start, records, cells, text.toList⟩ mark).map lift := by
    rw [← step_mark hplace hmark]
    exact h _ _ (.inr (.inl hmem))
  rw [List.foldlM_append, hrun, Option.bind_eq_bind, Option.bind_some, List.foldlM_cons, hstep]
  simp

theorem takes_step (text : String) : Takes step id text := by
  apply FollowsCell.takes
  intro reader c _
  unfold Follows
  rw [Option.map_id]
  rfl

theorem Takes.foldlM_comma (h : Takes next lift text) :
    ((cell text).toList ++ [',']).foldlM next (lift ⟨.start, records, cells, []⟩)
      =
    some (lift ⟨.start, records, cells ++ [text], []⟩) := by
  rw [h _ _ _ (.inl rfl)]
  simp [separate?, endCell]

theorem Takes.foldlM_feed (h : Takes next lift text) :
    ((cell text).toList ++ ['\n']).foldlM next (lift ⟨.start, records, cells, []⟩)
      =
    some (lift ⟨.start, records ++ [cells ++ [text]], [], []⟩) := by
  rw [h _ _ _ (.inr rfl)]
  simp [separate?, endRecord, endCell]

theorem toList_record_singleton (text : String) :
    (record [text]).toList = (cell text).toList ++ ['\n'] := by
  simp [record]

/-- A comma follows each cell but the last, which the line feed ends together with the record. -/
theorem toList_record_append (before : List String) (text : String) (after : List String) :
    (record (before ++ text :: after)).toList
      =
    (before.flatMap fun text => (cell text).toList ++ [',']) ++ (record (text :: after)).toList := by
  induction before with
  | nil => rfl
  | cons first rest ih =>
    have hne : (rest ++ text :: after).map cell ≠ [] := by simp
    unfold record at ih ⊢
    rw [List.cons_append, List.map_cons, String.intercalate_cons_of_ne_nil hne]
    simp only [String.toList_append] at ih ⊢
    rw [List.append_assoc, ih]
    simp

theorem foldlM_commas {texts : List String} (h : ∀ text ∈ texts, Takes next lift text) :
    (texts.flatMap fun text => (cell text).toList ++ [',']).foldlM next
        (lift ⟨.start, records, cells, []⟩)
      =
    some (lift ⟨.start, records, cells ++ texts, []⟩) := by
  induction texts generalizing cells with
  | nil => simp
  | cons text rest ih =>
    rw [List.forall_mem_cons] at h
    rw [List.flatMap_cons, List.foldlM_append, h.1.foldlM_comma]
    rw [Option.bind_eq_bind, Option.bind_some, ih h.2]
    simp

theorem foldlM_record {texts : List String} (h : ∀ text ∈ texts, Takes next lift text)
    (hne : texts ≠ []) :
    (record texts).toList.foldlM next (lift ⟨.start, records, cells, []⟩)
      =
    some (lift ⟨.start, records ++ [cells ++ texts], [], []⟩) := by
  obtain ⟨before, last, hconcat⟩ := (List.eq_nil_or_concat texts).resolve_left hne
  rw [List.concat_eq_append] at hconcat
  subst hconcat
  rw [List.forall_mem_append, List.forall_mem_singleton] at h
  rw [toList_record_append, toList_record_singleton, List.foldlM_append, foldlM_commas h.1]
  rw [Option.bind_eq_bind, Option.bind_some, h.2.foldlM_feed]
  simp

theorem foldlM_text {written : List (List String)}
    (h : ∀ texts ∈ written, ∀ text ∈ texts, Takes next lift text)
    (hne : ∀ texts ∈ written, texts ≠ []) :
    (Csv.text written).toList.foldlM next (lift ⟨.start, records, [], []⟩)
      =
    some (lift ⟨.start, records ++ written, [], []⟩) := by
  unfold Csv.text
  induction written generalizing records with
  | nil => simp
  | cons texts rest ih =>
    rw [List.forall_mem_cons] at h hne
    rw [List.map_cons, String.join_cons, String.toList_append, List.foldlM_append]
    rw [foldlM_record h.1 hne.1, Option.bind_eq_bind, Option.bind_some, ih h.2 hne.2]
    simp

end

end Reader

theorem read?_text {records : List (List String)} (hne : ∀ record ∈ records, record ≠ []) :
    read? (text records) = some records := by
  have hrun : (text records).toList.foldlM Reader.step .init = some ⟨.start, records, [], []⟩ :=
    Reader.foldlM_text (fun _ _ text _ => Reader.takes_step text) hne
  unfold read?
  rw [hrun]
  rfl

end Csv

namespace Listing

/--
A table is read as the columns and one record of nine cells for each line, in order. The cells are those of
the line before they were written.
-/
theorem read?_table (set : InstructionSet) (threads : Option Nat) (lines : List Line) :
    ∃ entries records, ofLines set threads lines = .ok entries
      ∧ Csv.read? (table entries) = some (columns :: records)
      ∧ (∀ record ∈ columns :: records, record.length = 9)
      ∧ records = lines.map (fun line =>
          let entry := line.entry set
          [Numeral.decimal line.number, Text.trim line.text, entry.word?.getD "", entry.status.name,
           entry.format?.getD "", (entry.fields?.map Fields.decimalText).getD "",
           (entry.fields?.map Fields.hexText).getD "", entry.mnemonic?.getD "",
           entry.detail?.getD ""]) := by
  have hlength : ∀ record ∈ columns :: (lines.map (·.entry set)).map Entry.cells,
      record.length = 9 := by
    rw [List.forall_mem_cons, List.forall_mem_map]
    exact ⟨rfl, fun _ _ => rfl⟩
  refine ⟨_, _, ofLines_eq_ok .., Csv.read?_text ?_, hlength, List.map_map⟩
  intro record hmem hnil
  have hrecord := hlength record hmem
  rw [hnil] at hrecord
  contradiction

end Listing

end Mips32
