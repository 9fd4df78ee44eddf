/-!
This module contains the numerals of the library: how a number is written in a base, and how a run of
digits is read back into a number that may not pass a limit.
-/

namespace Mips32

namespace Numeral

/--
The digits of `n` in `base`, most significant first and without leading zeros. Digits above nine are
lower case letters.
-/
def digits (base n : Nat) : String :=
  String.ofList (Nat.toDigits base n)

def decimal (n : Nat) : String :=
  digits 10 n

def hex (n : Nat) : String :=
  "0x" ++ digits 16 n

def hex8 (n : Nat) : String :=
  String.ofList ((Nat.toDigits 16 n).leftpad 8 '0')

def signed : Int → String
  | .ofNat n => decimal n
  | .negSucc n => "-" ++ decimal (n + 1)

/-- The value of a digit of `base`. Letters count in either case; only ASCII has digits. -/
def digitValue? (base : Nat) (c : Char) : Option Nat :=
  let value :=
    if '0' ≤ c ∧ c ≤ '9' then c.toNat - '0'.toNat
    else if 'a' ≤ c ∧ c ≤ 'z' then c.toNat - 'a'.toNat + 10
    else if 'A' ≤ c ∧ c ≤ 'Z' then c.toNat - 'A'.toNat + 10
    else base
  if value < base then some value else none

inductive Fault
  | malformed
  | tooLarge
  deriving DecidableEq

/--
Read the digits that follow those with the value `n`. The first character that cannot be taken decides
which fault is reported, so a bad character after the point where the limit is passed goes unseen.
-/
def read.go (base limit n : Nat) : List Char → Except Fault Nat
  | [] => .ok n
  | c :: rest =>
    match digitValue? base c with
    | none => .error .malformed
    | some value =>
      if n * base + value ≤ limit then go base limit (n * base + value) rest
      else .error .tooLarge

def read (base limit : Nat) : List Char → Except Fault Nat
  | [] => .error .malformed
  | text => read.go base limit 0 text

def readUnsigned (base limit : Nat) : List Char → Except Fault Nat
  | '+' :: rest => read base limit rest
  | text => read base limit text

end Numeral

end Mips32
