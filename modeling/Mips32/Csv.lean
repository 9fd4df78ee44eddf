/-!
This module contains comma-separated values: how records of cells are written so that commas, quotation marks
and line feeds inside a cell do not end it, and two readers of what is written.

For `Csv.Reader` a cell that starts with a quotation mark goes on to the mark that closes it, any other cell goes
on to the next comma or line feed, and a line feed outside quotation marks ends the record. For
`Csv.BreakReader` a record ends at any line break outside quotation marks: at a line feed, at a carriage return,
or at both in this order.
-/

namespace Mips32

namespace Csv

def needsQuotes (cell : List Char) : Bool :=
  cell.any fun c => c == ',' || c == '"' || c == '\n'

def doubleQuotes (cell : List Char) : List Char :=
  cell.flatMap fun c => if c = '"' then ['"', '"'] else [c]

def cell (text : String) : String :=
  if needsQuotes text.toList then "\"" ++ String.ofList (doubleQuotes text.toList) ++ "\"" else text

def record (cells : List String) : String :=
  ",".intercalate (cells.map cell) ++ "\n"

def text (records : List (List String)) : String :=
  String.join (records.map record)

inductive Reader.Place
  | start
  | bare
  | quoted
  /-- Behind a quotation mark, which closes the cell unless another one follows. -/
  | closed
  deriving DecidableEq

/-- What has been read: whole records, then whole cells of the next record, then a part of the next cell. -/
structure Reader where
  place : Reader.Place
  records : List (List String)
  cells : List String
  part : List Char

namespace Reader

def init : Reader where
  place := .start
  records := []
  cells := []
  part := []

def push (reader : Reader) (place : Place) (c : Char) : Reader :=
  { reader with place := place, part := reader.part ++ [c] }

def endCell (reader : Reader) : Reader :=
  { reader with place := .start, cells := reader.cells ++ [String.ofList reader.part], part := [] }

def endRecord (reader : Reader) : Reader :=
  let reader := reader.endCell
  { reader with records := reader.records ++ [reader.cells], cells := [] }

def separate? (reader : Reader) (c : Char) : Option Reader :=
  if c = ',' then some reader.endCell
  else if c = '\n' then some reader.endRecord
  else none

/-- Read a character. Only a separator may follow the mark that closes a cell. -/
def step (reader : Reader) (c : Char) : Option Reader :=
  match reader.place with
  | .start =>
    if c = '"' then some { reader with place := .quoted }
    else (reader.separate? c).or (some (reader.push .bare c))
  | .bare => (reader.separate? c).or (some (reader.push .bare c))
  | .quoted =>
    if c = '"' then some { reader with place := .closed } else some (reader.push .quoted c)
  | .closed => if c = '"' then some (reader.push .quoted c) else reader.separate? c

end Reader

/-- The records of a text, unless it ends within one or something follows a closed cell. -/
def read? (text : String) : Option (List (List String)) := do
  let reader ← text.toList.foldlM Reader.step .init
  if reader.place = .start ∧ reader.cells = [] then some reader.records else none

/-- A reader together with whether it has just met a carriage return that ended a record. -/
structure BreakReader where
  reader : Reader
  returned : Bool

namespace BreakReader

def lift (reader : Reader) : BreakReader where
  reader := reader
  returned := false

/--
Read a character. A carriage return outside quotation marks does what a line feed does there, and a line feed right
behind it belongs to the same line break.
-/
def step (state : BreakReader) (c : Char) : Option BreakReader :=
  if c = '\r' ∧ state.reader.place ≠ .quoted then
    (state.reader.step '\n').map fun reader => ⟨reader, true⟩
  else if c = '\n' ∧ state.returned then some (lift state.reader)
  else (state.reader.step c).map lift

end BreakReader

def readBreaks? (text : String) : Option (List (List String)) := do
  let state ← text.toList.foldlM BreakReader.step (.lift .init)
  if state.reader.place = .start ∧ state.reader.cells = [] then some state.reader.records else none

end Csv

end Mips32
