import Mips32.Listing.Style

/-!
This module contains the arguments of the command line and what they ask for. Arguments are read from
left to right, and the first one that cannot be taken, or that asks for help or for the version, ends the
reading.
-/

namespace Mips32

namespace CommandLine

inductive Setting
  | style
  | threads
  deriving DecidableEq

def Setting.name : Setting → String
  | .style => "--format"
  | .threads => "--threads"

inductive UsageError
  | noCommand
  | unknownCommand (name : String)
  | unknownOption (name : String)
  | repeatedOption (name : String)
  | noValue (name : String)
  | badValue (name value : String)
  | noArgument (name : String)
  | unexpectedArgument (argument : String)
  deriving DecidableEq

def UsageError.message : UsageError → String
  | .noCommand => "a command is required: decode or file"
  | .unknownCommand name => "unknown command " ++ Text.quote name
  | .unknownOption name => "unknown option " ++ Text.quote name
  | .repeatedOption name => "option " ++ name ++ " is given more than once"
  | .noValue name => "option " ++ name ++ " requires a value"
  | .badValue name value => "bad value " ++ Text.quote value ++ " for " ++ name
  | .noArgument name => "an argument is required: " ++ name
  | .unexpectedArgument argument => "unexpected argument " ++ Text.quote argument

inductive Interruption
  | usage (error : UsageError)
  | version
  | help
  deriving DecidableEq

structure Options where
  style : Option Listing.Style := none
  threads : Option Nat := none
  verbose : Bool := false
  deriving DecidableEq

namespace Options

def flag (options : Options) : Except Interruption Options :=
  if options.verbose then .error (.usage (.repeatedOption "--verbose"))
  else .ok { options with verbose := true }

def set (options : Options) : Setting → String → Except Interruption Options
  | .style, value =>
    if options.style.isSome then .error (.usage (.repeatedOption Setting.style.name))
    else
      match Listing.Style.ofName? value with
      | some style => .ok { options with style := some style }
      | none => .error (.usage (.badValue Setting.style.name value))
  | .threads, value =>
    if options.threads.isSome then .error (.usage (.repeatedOption Setting.threads.name))
    else
      match Numeral.readUnsigned 10 0xffffffffffffffff value.toList with
      | .ok threads => .ok { options with threads := some threads }
      | .error _ => .error (.usage (.badValue Setting.threads.name value))

/-- The options of two levels. What is set at the inner level counts there. -/
def orElse (inner outer : Options) : Options where
  style := inner.style <|> outer.style
  threads := inner.threads <|> outer.threads
  verbose := inner.verbose || outer.verbose

end Options

inductive Shape
  /-- The mark behind which no argument is an option. -/
  | separator
  | long (name : String) (value? : Option String)
  | short (letters : List Char)
  /-- Anything else. A dash alone is no option. -/
  | plain
  deriving DecidableEq

def Shape.ofArgument (argument : String) : Shape :=
  match argument.toList with
  | ['-'] => .plain
  | ['-', '-'] => .separator
  | '-' :: '-' :: rest =>
    let name := String.ofList (rest.takeWhile (· != '='))
    match rest.dropWhile (· != '=') with
    | [] => .long name none
    | _ :: value => .long name (some (String.ofList value))
  | '-' :: letters => .short letters
  | _ => .plain

/--
Whether the text behind a dash makes it a negative number: digits, which a point and more digits may
follow, and then an exponent. The mark of the exponent is a letter in either case, and the exponent itself
has no sign.
-/
def isNumber (text : List Char) : Bool :=
  let exponent := match text.dropWhile Char.isDigit with
    | '.' :: rest => rest.dropWhile Char.isDigit
    | rest => rest
  !(text.takeWhile Char.isDigit).isEmpty &&
    match exponent with
    | [] => true
    | mark :: digits =>
      (mark == 'e' || mark == 'E') && !digits.isEmpty && digits.all Char.isDigit

structure Progress where
  options : Options := {}
  pending : Option Setting := none

def Progress.settled (progress : Progress) : Except Interruption Options :=
  match progress.pending with
  | none => .ok progress.options
  | some setting => .error (.usage (.noValue setting.name))

/--
Take options of one letter each. What follows the letter of a setting is its value, for which an equals
sign may come in between. The version can be asked for before the command only.
-/
def readLetters (outer : Bool) (options : Options) : List Char → Except Interruption Progress
  | [] => .ok { options }
  | 'v' :: rest => do readLetters outer (← options.flag) rest
  | 'f' :: rest => setting .style rest
  | 'j' :: rest => setting .threads rest
  | 'h' :: _ => .error .help
  | c :: _ =>
    if c = 'V' && outer then .error .version
    else .error (.usage (.unknownOption (String.ofList ['-', c])))
where
  setting (setting : Setting) : List Char → Except Interruption Progress
    | [] => .ok { options, pending := some setting }
    | '=' :: value => return { options := ← options.set setting (String.ofList value) }
    | value => return { options := ← options.set setting (String.ofList value) }

def readLong (outer : Bool) (options : Options) (name : String) (value? : Option String) :
    Except Interruption Progress :=
  match name, value? with
  | "verbose", none => return { options := ← options.flag }
  | "format", some value => return { options := ← options.set .style value }
  | "format", none => .ok { options, pending := some .style }
  | "threads", some value => return { options := ← options.set .threads value }
  | "threads", none => .ok { options, pending := some .threads }
  | "help", none => .error .help
  | "version", none =>
    if outer then .error .version else .error (.usage (.unknownOption "--version"))
  | name, _ => .error (.usage (.unknownOption ("--" ++ name)))

inductive Command
  | decode (words : List String)
  | file (path : String)
  deriving DecidableEq

inductive CommandName
  | decode
  | file
  deriving DecidableEq

/-- Take one more argument of a command. A file is a single path, and no path is empty. -/
def CommandName.accept (command : CommandName) (taken : List String) (argument : String) :
    Except Interruption (List String) :=
  match command, taken with
  | .decode, taken => .ok (taken ++ [argument])
  | .file, [] =>
    if argument = "" then .error (.usage (.badValue "PATH" argument)) else .ok [argument]
  | .file, _ => .error (.usage (.unexpectedArgument argument))

def CommandName.finish (command : CommandName) (taken : List String) :
    Except Interruption Command :=
  match command, taken with
  | .decode, [] => .error (.usage (.noArgument "WORD"))
  | .decode, words => .ok (.decode words)
  | .file, [] => .error (.usage (.noArgument "PATH"))
  | .file, path :: _ => .ok (.file path)

/-- What an argument of a command looks like. Where words are expected a negative number is one. -/
def CommandName.shapeOf (command : CommandName) (argument : String) : Shape :=
  match command, Shape.ofArgument argument with
  | .decode, .short letters => if isNumber letters then .plain else .short letters
  | _, shape => shape

def readCommand (command : CommandName) (progress : Progress) (taken : List String) :
    List String → Except Interruption (Options × Command)
  | [] => return (← progress.settled, ← command.finish taken)
  | argument :: rest =>
    match command.shapeOf argument with
    | .separator => do
      return (← progress.settled, ← command.finish (← rest.foldlM command.accept taken))
    | .long name value? => do
      readCommand command (← readLong false (← progress.settled) name value?) taken rest
    | .short letters => do
      readCommand command (← readLetters false (← progress.settled) letters) taken rest
    | .plain =>
      match progress.pending with
      | some setting => do
        readCommand command { options := ← progress.options.set setting argument } taken rest
      | none => do readCommand command progress (← command.accept taken argument) rest

structure Invocation where
  command : Command
  options : Options
  deriving DecidableEq

def invoke (command : CommandName) (outer : Options) (arguments : List String) :
    Except Interruption Invocation := do
  let (inner, command) ← readCommand command {} [] arguments
  return { command, options := inner.orElse outer }

def readArguments (progress : Progress) : List String → Except Interruption Invocation
  | [] => do
    let _ ← progress.settled
    .error (.usage .noCommand)
  | argument :: rest =>
    match Shape.ofArgument argument with
    | .separator => do
      let _ ← progress.settled
      match rest with
      | [] => .error (.usage .noCommand)
      | argument :: _ => .error (.usage (.unexpectedArgument argument))
    | .long name value? => do
      readArguments (← readLong true (← progress.settled) name value?) rest
    | .short letters => do
      readArguments (← readLetters true (← progress.settled) letters) rest
    | .plain =>
      match progress.pending with
      | some setting => do
        readArguments { options := ← progress.options.set setting argument } rest
      | none =>
        match argument with
        | "decode" => invoke .decode progress.options rest
        | "file" => invoke .file progress.options rest
        | "help" => .error .help
        | _ => .error (.usage (.unknownCommand argument))

def parse (arguments : List String) : Except Interruption Invocation :=
  readArguments {} arguments

end CommandLine

end Mips32
