import Mips32.Listing

/-!
This module contains the verification of batches. The words of a batch are decoded apart from the lines
that hold them, but dealing never gets out of step: every line gets the decoding of its own word, and no
decoding is left over.
-/

namespace Mips32

def Line.entry (set : InstructionSet) (line : Line) : Entry where
  number := line.number
  text := Text.trim line.text
  outcome := (Word.read line.text).map set.decode

namespace Listing

variable {set : InstructionSet}

def words (lines : List Line) : List Word :=
  (lines.map Line.read).filterMap (·.word.toOption)

theorem words_cons_of_ok {line : Line} {word : Word} (h : Word.read line.text = .ok word)
    (rest : List Line) : words (line :: rest) = word :: words rest := by
  unfold words Line.read
  simp [h, Except.toOption]

theorem words_cons_of_error {line : Line} {e : Word.ReadError} (h : Word.read line.text = .error e)
    (rest : List Line) : words (line :: rest) = words rest := by
  unfold words Line.read
  simp [h, Except.toOption]

theorem deal_append (lines : List Line) (left : List Decoding) :
    deal (lines.map Line.read) ((words lines).map set.decode ++ left)
      =
    .ok (lines.map (·.entry set), left) := by
  induction lines with
  | nil => rfl
  | cons line rest ih =>
    -- whether the line takes a decoding or not, the others find theirs at the front
    cases hread : Word.read line.text with
    | error e =>
      rw [words_cons_of_error hread]
      simp only [List.map_cons, deal, Line.read, Line.entry, hread]
      rw [ih]
      rfl
    | ok word =>
      rw [words_cons_of_ok hread]
      simp only [List.map_cons, List.cons_append, deal, Line.read, Line.entry, hread]
      rw [ih]
      rfl

theorem deal_decodeAll (set : InstructionSet) (threads : Option Nat) (lines : List Line) :
    deal (lines.map Line.read) (set.decodeAll threads (words lines))
      =
    .ok (lines.map (·.entry set), []) := by
  rw [InstructionSet.decodeAll_eq_map]
  rw [← List.append_nil ((words lines).map set.decode)]
  exact deal_append lines []

theorem ofLines_eq_ok (set : InstructionSet) (threads : Option Nat) (lines : List Line) :
    ofLines set threads lines = .ok (lines.map (·.entry set)) := by
  have hdeal := deal_decodeAll set threads lines
  unfold words at hdeal
  unfold ofLines
  dsimp only
  rw [hdeal]
  rfl

theorem warnings_map_entry (set : InstructionSet) (lines : List Line) :
    warnings (lines.map (·.entry set))
      =
    lines.filterMap fun line =>
      match Word.read line.text with
      | .ok _ => none
      | .error e => some {
          level := .warn
          message := "unparsable input line"
          fields := [("line", Numeral.decimal line.number), ("error", e.message)]
        } := by
  unfold warnings
  rw [List.filterMap_map]
  congr 1
  funext line
  unfold Entry.warning? Line.entry
  cases hread : Word.read line.text with
  | error e => simp [hread, Except.map]
  | ok word => simp [hread, Except.map]

end Listing

end Mips32
