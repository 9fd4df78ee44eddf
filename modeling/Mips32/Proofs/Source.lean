import Mips32.CommandLine
import Mips32.Proofs.Blank
import Mips32.Proofs.Listing

/-!
This module contains the verification of source texts. A source that has the words of a list on its lines, one on
each, is listed just as the list itself: neither the line breaks nor the blanks beside a word leave a trace in
the listing.
-/

namespace Mips32

theorem Word.read_trim (text : String) : read (Text.trim text) = read text := by
  unfold read
  rw [Text.trim_trim]

theorem Line.entry_trim (set : InstructionSet) (number : Nat) (text : String) :
    Line.entry set ⟨number, Text.trim text⟩ = Line.entry set ⟨number, text⟩ := by
  unfold entry
  rw [Text.trim_trim, Word.read_trim]

namespace Listing

theorem isContent_iff {text : String} :
    isContent text = true ↔ text ≠ "" ∧ text.toList.head? ≠ some '#' := by
  unfold isContent
  rw [Ne, ← String.toList_eq_nil_iff]
  cases text.toList with
  | nil => simp
  | cons c rest => simp

def segmentLines (number : Nat) (segments : List (List Char)) : List Line :=
  (segments.zipIdx number).filterMap fun (segment, number) =>
    let text := Text.trim (String.ofList segment)
    if isContent text then some ⟨number, text⟩ else none

theorem sourceLines_eq_segmentLines (source : String) :
    sourceLines source = segmentLines 1 (source.toList.splitOn '\n') :=
  rfl

theorem segmentLines_append (number : Nat) (segments₁ segments₂ : List (List Char)) :
    segmentLines number (segments₁ ++ segments₂)
      =
    segmentLines number segments₁ ++ segmentLines (number + segments₁.length) segments₂ := by
  unfold segmentLines
  rw [List.zipIdx_append, List.filterMap_append]

theorem segmentLines_nil_segment (number : Nat) : segmentLines number [[]] = [] :=
  rfl

theorem segmentLines_of_content {words : List String} (number : Nat)
    (hwords : ∀ word ∈ words, isContent (Text.trim word) = true) :
    segmentLines number (words.map String.toList)
      =
    (words.zipIdx number).map fun (word, number) => ⟨number, Text.trim word⟩ := by
  induction words generalizing number with
  | nil => rfl
  | cons word rest ih =>
    rw [List.forall_mem_cons] at hwords
    unfold segmentLines at ih ⊢
    simp only [List.map_cons, List.zipIdx_cons, List.filterMap_cons, String.ofList_toList]
    rw [if_pos hwords.1, ih _ hwords.2]

variable {words : List String} {ending : String}

theorem splitOn_intercalate_append (hne : words ≠ []) (hfeed : ∀ word ∈ words, '\n' ∉ word.toList)
    (hending : ending = "" ∨ ending = "\n") :
    ∃ rest, ("\n".intercalate words ++ ending).toList.splitOn '\n' = words.map String.toList ++ rest
      ∧ (rest = [] ∨ rest = [[]]) := by
  have hsplit {words : List String} (hne : words ≠ []) (hfeed : ∀ word ∈ words, '\n' ∉ word.toList) :
      ("\n".intercalate words).toList.splitOn '\n' = words.map String.toList := by
    rw [String.toList_intercalate]
    apply List.splitOn_intercalate
    . rwa [List.forall_mem_map]
    . simpa using hne
  cases hending with
  | inl hempty =>
    refine ⟨[], ?_, .inl rfl⟩
    rw [hempty, String.append_empty, hsplit hne hfeed, List.append_nil]
  | inr hlast =>
    -- a line feed at the end puts an empty word on a line of its own
    have hjoin : "\n".intercalate words ++ "\n" = "\n".intercalate (words ++ [""]) := by
      rw [String.intercalate_append_of_ne_nil hne (by simp), String.intercalate_singleton]
      rw [String.append_empty]
    refine ⟨[[]], ?_, .inr rfl⟩
    rw [hlast, hjoin, hsplit (by simp)]
    . simp
    . rw [List.forall_mem_append]
      exact ⟨hfeed, by simp⟩

theorem sourceLines_intercalate_append (hfeed : ∀ word ∈ words, '\n' ∉ word.toList)
    (hcontent : ∀ word ∈ words, isContent (Text.trim word) = true)
    (hending : ending = "" ∨ ending = "\n") :
    sourceLines ("\n".intercalate words ++ ending)
      =
    (words.zipIdx 1).map fun (word, number) => ⟨number, Text.trim word⟩ := by
  cases words with
  | nil =>
    cases hending with
    | inl hempty => rw [hempty]; rfl
    | inr hlast => rw [hlast]; rfl
  | cons word rest =>
    obtain ⟨tail, hsplit, htail⟩ := splitOn_intercalate_append (by simp) hfeed hending
    rw [sourceLines_eq_segmentLines, hsplit, segmentLines_append, segmentLines_of_content 1 hcontent]
    cases htail with
    | inl hnil => rw [hnil]; exact List.append_nil _
    | inr hsegment => rw [hsegment, segmentLines_nil_segment, List.append_nil]

theorem map_entry_sourceLines (set : InstructionSet) (hfeed : ∀ word ∈ words, '\n' ∉ word.toList)
    (hcontent : ∀ word ∈ words, isContent (Text.trim word) = true)
    (hending : ending = "" ∨ ending = "\n") :
    (sourceLines ("\n".intercalate words ++ ending)).map (·.entry set)
      =
    (wordLines words).map (·.entry set) := by
  rw [sourceLines_intercalate_append hfeed hcontent hending]
  unfold wordLines
  rw [List.map_map, List.map_map]
  apply List.map_congr_left
  intro numbered _
  simp only [Function.comp_apply]
  rw [Line.entry_trim]

end Listing

namespace CommandLine

open Listing

variable {words : List String} {ending : String}

theorem listContents_toUTF8 (options : Options) (input : Input) (source : String) :
    listContents options input (.ok source.toUTF8) = list options (sourceLines source) := by
  have hvalid : source.toUTF8.IsValidUTF8 := source.isValidUTF8
  have hsource : String.fromUTF8? source.toUTF8 = some source := by
    unfold String.fromUTF8?
    rw [dif_pos hvalid]
    rfl
  unfold listContents
  simp only [hsource]

/--
Whether words are given one by one, or on the lines of a file that may or may not end in a line feed, makes no
difference to any listing of them, nor to what is reported besides it. Only words that a source would leave
out or break apart are excluded.
-/
theorem list_sourceLines_eq (hwords : ∀ word ∈ words, '\n' ∉ word.toList
      ∧ Text.trim word ≠ "" ∧ (Text.trim word).toList.head? ≠ some '#')
    (hending : ending = "" ∨ ending = "\n") :
    let source := "\n".intercalate words ++ ending
    (∀ set threads₁ threads₂ style, ∃ entries₁ entries₂,
        ofLines set threads₁ (sourceLines source) = .ok entries₁
          ∧ ofLines set threads₂ (wordLines words) = .ok entries₂
          ∧ render style entries₁ = render style entries₂)
      ∧ ∀ options input,
          listContents options input (.ok source.toUTF8) = list options (wordLines words)
            ∧ ∃ text log, list options (wordLines words) = .listing text log := by
  intro source
  have hfeed : ∀ word ∈ words, '\n' ∉ word.toList := fun word hmem => (hwords word hmem).1
  have hcontent : ∀ word ∈ words, isContent (Text.trim word) = true := fun word hmem =>
    isContent_iff.2 (hwords word hmem).2
  have hentries (set : InstructionSet) := map_entry_sourceLines set hfeed hcontent hending
  constructor
  . intro set threads₁ threads₂ style
    refine ⟨_, _, ofLines_eq_ok .., ofLines_eq_ok .., ?_⟩
    rw [hentries]
  . intro options input
    rw [listContents_toUTF8]
    unfold list
    rw [ofLines_eq_ok, ofLines_eq_ok, hentries]
    exact ⟨rfl, _, _, rfl⟩

/-- Blanks, a carriage return and a text that is no word, on the lines of a file and as they are. -/
theorem list_sourceLines_eq_carriage_return :
    let words := ["0x71014802\r", "\u3000-1", "no word"]
    (∀ word ∈ words, '\n' ∉ word.toList
        ∧ Text.trim word ≠ "" ∧ (Text.trim word).toList.head? ≠ some '#')
      ∧ ∀ options input,
          listContents options input (.ok ("0x71014802\r\n\u3000-1\nno word\n").toUTF8)
            = list options (wordLines words) := by
  intro words
  have hwords : ∀ word ∈ words, '\n' ∉ word.toList
      ∧ Text.trim word ≠ "" ∧ (Text.trim word).toList.head? ≠ some '#' := by
    decide
  have hending : "\n" = "" ∨ "\n" = "\n" := .inr rfl
  obtain ⟨_, hlist⟩ := list_sourceLines_eq hwords hending
  exact ⟨hwords, fun options input => (hlist options input).1⟩

end CommandLine

end Mips32
