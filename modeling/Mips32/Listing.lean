import Mips32.Decoding
import Mips32.Word.Reader

/-!
This module contains listings, which show what each line of an input turned out to be. The lines come from
a list of words or from a source text, which holds one word on each line with blank lines and comments between
them. The words of a batch are decoded apart from the lines, on several threads if that is asked for, and the
decodings are dealt back to the lines that hold a word.
-/

namespace Mips32

structure Line where
  number : Nat
  text : String
  deriving DecidableEq

structure Reading where
  number : Nat
  text : String
  word : Except Word.ReadError Word

structure Entry where
  number : Nat
  text : String
  outcome : Except Word.ReadError Decoding

def Line.read (line : Line) : Reading where
  number := line.number
  text := Text.trim line.text
  word := Word.read line.text

def Entry.warning? (entry : Entry) : Option Event :=
  match entry.outcome with
  | .ok _ => none
  | .error e => some {
      level := .warn
      message := "unparsable input line"
      fields := [("line", Numeral.decimal entry.number), ("error", e.message)]
    }

namespace InstructionSet

/-- Cut a list into consecutive parts of `size + 1` members, the last of which may be shorter. -/
def decodeAll.parts {α : Type} (size : Nat) : List α → List (List α)
  | [] => []
  | a :: rest => (a :: rest.take size) :: parts size (rest.drop size)
termination_by list => list.length
decreasing_by simp only [List.length_drop, List.length_cons]; omega

theorem decodeAll.flatten_parts {α : Type} (size : Nat) (list : List α) :
    (parts size list).flatten = list := by
  fun_induction parts size list with
  | case1 => rfl
  | case2 a rest ih => simp [ih]

/--
Decode words, in order. On several threads each one takes an equal share of the words; the decodings do
not depend on how many there are. Starting the threads always succeeds here: that a system refuses to start
them, which leaves a batch without a listing, has no counterpart.
-/
def decodeAll (set : InstructionSet) (threads : Option Nat) (words : List Word) : List Decoding :=
  let threads := threads.getD 0
  if threads ≤ 1 then words.map set.decode
  else
    let shares := decodeAll.parts (words.length / threads) words
    let tasks := shares.map fun share => Task.spawn fun _ => share.map set.decode
    tasks.flatMap Task.get

theorem decodeAll_eq_map (set : InstructionSet) (threads : Option Nat) (words : List Word) :
    set.decodeAll threads words = words.map set.decode := by
  unfold decodeAll
  dsimp only
  split
  . rfl
  . rw [List.flatMap_map]
    conv => rhs; rw [← decodeAll.flatten_parts (words.length / threads.getD 0) words]
    simp [List.map_flatten, List.flatMap_def, Task.spawn]

end InstructionSet

namespace Listing

/--
Why there is no listing. A refusal to start threads is not among the reasons, because `InstructionSet.decodeAll`
leaves it out.
-/
inductive Fault
  | tooFewDecodings
  deriving DecidableEq

def Fault.message : Fault → String
  | .tooFewDecodings => "decoder returned too few results"

/-- Deal decodings out to the lines that hold a word. The decodings left over come last. -/
def deal : List Reading → List Decoding → Except Fault (List Entry × List Decoding)
  | [], decodings => .ok ([], decodings)
  | reading :: readings, decodings =>
    match reading.word, decodings with
    | .error e, decodings => do
      let (entries, left) ← deal readings decodings
      return (⟨reading.number, reading.text, .error e⟩ :: entries, left)
    | .ok _, decoding :: decodings => do
      let (entries, left) ← deal readings decodings
      return (⟨reading.number, reading.text, .ok decoding⟩ :: entries, left)
    | .ok _, [] => .error .tooFewDecodings

/-- What the lines of an input turn out to be. A line that holds no word does not stop the others. -/
def ofLines (set : InstructionSet) (threads : Option Nat) (lines : List Line) :
    Except Fault (List Entry) := do
  let readings := lines.map Line.read
  let words := readings.filterMap (·.word.toOption)
  let (entries, _) ← deal readings (set.decodeAll threads words)
  return entries

def warnings (entries : List Entry) : List Event :=
  entries.filterMap Entry.warning?

def isContent (text : String) : Bool :=
  match text.toList with
  | [] => false
  | c :: _ => c != '#'

/--
The lines of a source that hold something, without the blanks around them. Each has its number in the
source, so the lines that are left out count too. Lines end in a line feed; a carriage return before it
is a blank at the end of the line.
-/
def sourceLines (source : String) : List Line :=
  ((source.toList.splitOn '\n').zipIdx 1).filterMap fun (segment, number) =>
    let text := Text.trim (String.ofList segment)
    if isContent text then some ⟨number, text⟩ else none

def wordLines (words : List String) : List Line :=
  (words.zipIdx 1).map fun (word, number) => ⟨number, word⟩

end Listing

end Mips32
