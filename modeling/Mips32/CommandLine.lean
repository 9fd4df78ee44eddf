import Mips32.CommandLine.Arguments
import Mips32.InstructionSet.Release2

/-!
This module contains the program behind the command line. It does not depend on how inputs are read, so
it can be run on any file system.
-/

namespace Mips32

namespace CommandLine

inductive Input
  | standardInput
  | file (path : String)
  deriving DecidableEq

def Input.ofPath (path : String) : Input :=
  if path = "-" then .standardInput else .file path

def Input.name : Input → String
  | .standardInput => "stdin"
  | .file path => path

inductive ReadFailure
  | notFound
  | isDirectory
  | notText
  | other (reason : String)
  deriving DecidableEq

def ReadFailure.message : ReadFailure → String
  | .notFound => "No such file or directory (os error 2)"
  | .isDirectory => "Is a directory (os error 21)"
  | .notText => "stream did not contain valid UTF-8"
  | .other reason => reason

inductive Failure
  | unreadable (input : Input) (failure : ReadFailure)
  | listing (fault : Listing.Fault)
  deriving DecidableEq

def Failure.message : Failure → String
  | .unreadable input failure => "Failed to read " ++ input.name ++ ": " ++ failure.message
  | .listing fault => fault.message

inductive Answer
  | listing (text : String) (log : List Event)
  | about (text : String)
  | usage (error : UsageError)
  | failed (failure : Failure)

namespace Answer

def exitStatus : Answer → Nat
  | .listing .. => 0
  | .about _ => 0
  | .failed _ => 1
  | .usage _ => 2

def output : Answer → String
  | .listing text _ => text
  | .about text => text
  | .usage _ => ""
  | .failed _ => ""

def diagnostics : Answer → List String
  | .listing _ log => log.map Event.text
  | .about _ => []
  | .usage error => ["error: " ++ error.message]
  | .failed failure => ["Error: " ++ failure.message]

end Answer

def versionText : String :=
  "mips32dec 0.1.0\n"

def helpText : String :=
  "MIPS32 instruction word decoder\n\n"
    ++ "Usage: mips32dec [OPTIONS] decode WORD...\n"
    ++ "       mips32dec [OPTIONS] file PATH\n\n"
    ++ "Options:\n"
    ++ "  -f, --format FORMAT  text, json or csv\n"
    ++ "  -j, --threads N      number of threads\n"
    ++ "  -v, --verbose        report diagnostics\n"
    ++ "  -h, --help           show this text\n"
    ++ "  -V, --version        show the version\n"

/-- The events that a listing reports: warnings always, and on request what decoding has to say. -/
def log (verbose : Bool) (entries : List Entry) : List Event :=
  let decodings := entries.filterMap Entry.decoding?
  let events := InstructionSet.release2.builtEvent :: decodings.filterMap Decoding.event?
  (if verbose then events.filter (·.level ≠ .trace) else []) ++ Listing.warnings entries

def list (options : Options) (lines : List Line) : Answer :=
  match Listing.ofLines .release2 options.threads lines with
  | .ok entries =>
    .listing (Listing.render (options.style.getD .text) entries) (log options.verbose entries)
  | .error fault => .failed (.listing fault)

def listContents (options : Options) (input : Input) (contents : Except ReadFailure ByteArray) :
    Answer :=
  match contents with
  | .error failure => .failed (.unreadable input failure)
  | .ok bytes =>
    match String.fromUTF8? bytes with
    | some source => list options (Listing.sourceLines source)
    | none => .failed (.unreadable input .notText)

def run {m : Type → Type} [Monad m] (read : Input → m (Except ReadFailure ByteArray))
    (arguments : List String) : m Answer := do
  match parse arguments with
  | .error (.usage error) => return .usage error
  | .error .version => return .about versionText
  | .error .help => return .about helpText
  | .ok { command := .decode words, options } => return list options (Listing.wordLines words)
  | .ok { command := .file path, options } =>
    let input := Input.ofPath path
    return listContents options input (← read input)

end CommandLine

end Mips32
