import BlockArchive.Number.Literal
import BlockArchive.Text.Blank
import BlockArchive.Text.Digit

/-!
# Reading whole numbers

A whole number is read from an optional sign and decimal digits of any script, with single
underscores between digits and blanks at both ends. More than a limit of digits are not read.

* `Number.readInteger` reads a text, `Number.readAsciiInteger` one in which only ASCII blanks and
  digits count.
-/

namespace BlockArchive.Number

/-- Why a text is not read as a whole number. -/
inductive IntegerTrouble where
  /-- It is none. -/
  | malformed
  /-- It has this many digits. -/
  | long (digits : Nat)
deriving DecidableEq, Repr

/-- The most decimal digits that are read. -/
def integerDigitLimit : Nat := 4300

/-- A character of a run of digits. -/
def isRunChar (c : Char) : Bool := c.isDigit || c == '_'

/-- Two underscores stand side by side. -/
def hasDoubleUnderscore : List Char → Bool
  | a :: b :: rest => (a == '_' && b == '_') || hasDoubleUnderscore (b :: rest)
  | _ => false

/-- Reads a number whose sign is known: a run of digits without an underscore at either end or
two side by side, then blanks. The number of digits is checked before what follows them. -/
def readRun (negative : Bool) (cs : List Char) : Except IntegerTrouble Int :=
  let run := cs.takeWhile isRunChar
  let rest := cs.dropWhile isRunChar
  let digits := run.filter Char.isDigit
  if run.head? = some '_' ∨ run.getLast? = some '_' ∨ hasDoubleUnderscore run = true then
    .error .malformed
  else if integerDigitLimit < digits.length then .error (.long digits.length)
  else if digits.isEmpty ∨ !rest.all Text.isAsciiBlank then .error .malformed
  else .ok (Binary64.signed negative (natOf digits))

/-- Reads a whole number in ASCII. -/
def readAsciiInteger (cs : List Char) : Except IntegerTrouble Int :=
  let signed := readSign (cs.dropWhile Text.isAsciiBlank)
  readRun signed.1 signed.2

/-- A character as ASCII, if it is a blank or a digit of any script. -/
def asAscii (c : Char) : Char :=
  if c.toNat < 127 then c
  else if Text.isBlank c then ' '
  else match Text.digitValue? c with
    | some d => Text.asciiDigit d
    | none => '?'

/-- Reads a whole number. If the text is ASCII only ASCII blanks may surround it; otherwise
blanks and digits of all scripts count. -/
def readInteger (s : String) : Except IntegerTrouble Int :=
  let cs := s.toList
  if cs.all fun c => c.toNat < 128 then readAsciiInteger cs else readAsciiInteger (cs.map asAscii)

end BlockArchive.Number
