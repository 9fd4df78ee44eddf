import Mips32.Csv
import Mips32.Json
import Mips32.Listing

/-!
This module contains the forms in which a listing can be shown, each with one row or record for each line of
input: plain rows of text, JSON, and a table of comma-separated values.
-/

namespace Mips32

inductive Entry.Status
  | legal
  | illegal
  | unknown
  | invalid
  deriving DecidableEq

def Entry.Status.name : Entry.Status → String
  | .legal => "success"
  | .illegal => "partial"
  | .unknown => "unknown"
  | .invalid => "invalid"

namespace Entry

def status (entry : Entry) : Status :=
  match entry.outcome with
  | .ok (.legal _) => .legal
  | .ok (.illegal ..) => .illegal
  | .ok (.unknown _) => .unknown
  | .error _ => .invalid

def detail? (entry : Entry) : Option String :=
  match entry.outcome with
  | .ok (.legal _) => none
  | .ok (.illegal _ violations) => some (Violation.listText violations)
  | .ok (.unknown cause) => some cause.reason
  | .error e => some e.message

def decoding? (entry : Entry) : Option Decoding :=
  entry.outcome.toOption

def word? (entry : Entry) : Option String :=
  entry.decoding?.map fun decoding => Numeral.hex8 decoding.word.toNat

def fields? (entry : Entry) : Option Fields :=
  entry.decoding?.bind Decoding.fields?

def format? (entry : Entry) : Option String :=
  entry.fields?.map (·.format.letter)

def mnemonic? (entry : Entry) : Option String :=
  (entry.decoding?.bind Decoding.disassembly?).map (·.mnemonic.text)

end Entry

def Entry.row (entry : Entry) : String :=
  Numeral.decimal entry.number ++ " " ++
    match entry.outcome with
    | .ok (.unknown cause) => Numeral.hex8 cause.word.toNat ++ " " ++ cause.text
    | .ok decoding => decoding.text
    | .error e => "invalid input: " ++ e.message

def Listing.rows (entries : List Entry) : String :=
  String.join (entries.map fun entry => entry.row ++ "\n")

/-- What a JSON listing says about a line. What a line does not have is null. -/
structure Listing.Record where
  line : Nat
  input : String
  status : Entry.Status
  word : Option String
  format : Option String
  fields : Option (List Nat)
  mnemonic : Option String
  violations : List Violation
  error : Option String

def Entry.record (entry : Entry) : Listing.Record where
  line := entry.number
  input := entry.text
  status := entry.status
  word := entry.word?
  format := entry.format?
  fields := entry.fields?.map Fields.values
  mnemonic := entry.mnemonic?
  violations := (entry.decoding?.map Decoding.violations).getD []
  error := match entry.outcome with
    | .ok (.unknown cause) => some cause.reason
    | .ok _ => none
    | .error e => some e.message

def Json.orNull {α : Type} (toJson : α → Json) : Option α → Json
  | some a => toJson a
  | none => .null

def Violation.toJson (violation : Violation) : Json :=
  .object [
    ("field", .string violation.constraint.field.name),
    ("expected", .number violation.constraint.expected),
    ("actual", .number violation.actual)]

namespace Listing

def Record.toJson (record : Record) : Json :=
  .object [
    ("line", .number record.line),
    ("input", .string record.input),
    ("status", .string record.status.name),
    ("word", .orNull .string record.word),
    ("format", .orNull .string record.format),
    ("fields", .orNull (fun values => .array (values.map .number)) record.fields),
    ("mnemonic", .orNull .string record.mnemonic),
    ("violations", .array (record.violations.map Violation.toJson)),
    ("error", .orNull .string record.error)]

def records (entries : List Entry) : String :=
  Json.pretty 0 (.array (entries.map fun entry => entry.record.toJson)) ++ "\n"

end Listing

def Listing.columns : List String :=
  ["line", "input", "word", "status", "format", "fields", "fields_hex", "mnemonic", "detail"]

/-- The cells of a line, one for each column. What a line does not have is left empty. -/
def Entry.cells (entry : Entry) : List String :=
  [Numeral.decimal entry.number,
   entry.text,
   entry.word?.getD "",
   entry.status.name,
   entry.format?.getD "",
   (entry.fields?.map Fields.decimalText).getD "",
   (entry.fields?.map Fields.hexText).getD "",
   entry.mnemonic?.getD "",
   entry.detail?.getD ""]

def Listing.table (entries : List Entry) : String :=
  Csv.text (columns :: entries.map Entry.cells)

namespace Listing

inductive Style
  | text
  | json
  | csv
  deriving DecidableEq

def Style.all : List Style :=
  [.text, .json, .csv]

def Style.name : Style → String
  | .text => "text"
  | .json => "json"
  | .csv => "csv"

def Style.ofName? (name : String) : Option Style :=
  Style.all.find? (·.name == name)

def render (style : Style) (entries : List Entry) : String :=
  match style with
  | .text => rows entries
  | .json => records entries
  | .csv => table entries

end Listing

end Mips32
