import Mips32.CommandLine

/-!
This module contains the entry point of the program, which gives it access to files and streams.
-/

namespace Mips32

namespace CommandLine

def ReadFailure.ofError : IO.Error → ReadFailure
  | .noFileOrDirectory .. => .notFound
  | .inappropriateType _ 21 _ => .isDirectory
  | .inappropriateType _ code details => .other (system code details)
  | .permissionDenied _ code details => .other (system code details)
  | error => .other error.toString
where
  system (code : UInt32) (details : String) : String :=
    details ++ " (os error " ++ Numeral.decimal code.toNat ++ ")"

partial def readStandardInput (input : IO.FS.Stream) (bytes : ByteArray) : IO ByteArray := do
  let chunk ← input.read 65536
  if chunk.isEmpty then return bytes else readStandardInput input (bytes ++ chunk)

def readInput (input : Input) : IO (Except ReadFailure ByteArray) := do
  try
    match input with
    | .standardInput => return .ok (← readStandardInput (← IO.getStdin) .empty)
    | .file path => return .ok (← IO.FS.readBinFile path)
  catch error => return .error (.ofError error)

end CommandLine

end Mips32

def main (arguments : List String) : IO UInt32 := do
  let answer ← Mips32.CommandLine.run Mips32.CommandLine.readInput arguments
  IO.print answer.output
  answer.diagnostics.forM IO.eprintln
  return answer.exitStatus.toUInt32
