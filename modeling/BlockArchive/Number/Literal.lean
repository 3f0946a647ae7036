import BlockArchive.Number.Binary64

/-!
# Numbers in decimal notation

The pieces of a number written in decimal: a sign, digits, a fraction behind a point and an
exponent behind the letter e.

* `Number.natOf` is the value of digits, `Number.readSign` and `Number.readExponent` read pieces;
* `Number.Literal` is a number so written, `Number.Literal.read?` reads one and
  `Number.Literal.toBinary64` is its value.
-/

namespace BlockArchive.Number

/-- The value of decimal digits. -/
def natOf (digits : List Char) : Nat := digits.foldl (fun n c => n * 10 + (c.toNat - 48)) 0

/-- Reads a sign, if there is one: whether it is a minus, and the rest. -/
def readSign : List Char → Bool × List Char
  | '+' :: rest => (false, rest)
  | '-' :: rest => (true, rest)
  | cs => (false, cs)

/-- Reads an exponent, if digits follow its letter. -/
def readExponent : List Char → Option Int × List Char
  | c :: rest =>
    if c == 'e' || c == 'E' then
      let signed := readSign rest
      let digits := signed.2.takeWhile Char.isDigit
      if digits.isEmpty then (none, c :: rest)
      else (some (Binary64.signed signed.1 (natOf digits)), signed.2.dropWhile Char.isDigit)
    else (none, c :: rest)
  | [] => (none, [])

/-- A number in decimal notation. -/
structure Literal where
  /-- There is a minus. -/
  negative : Bool
  /-- The digits before the point. -/
  digits : List Char
  /-- The digits behind the point. -/
  places : List Char
  /-- The exponent, zero if there is none. -/
  exponent : Int
  /-- There is neither point nor exponent. -/
  isWhole : Bool
deriving DecidableEq, Repr

namespace Literal

/-- Reads a text as a number: at least one digit stands before or behind the point. -/
def read? (cs : List Char) : Option Literal :=
  let signed := readSign cs
  let digits := signed.2.takeWhile Char.isDigit
  let behind := signed.2.dropWhile Char.isDigit
  let fraction := match behind with
    | '.' :: rest => (rest.takeWhile Char.isDigit, rest.dropWhile Char.isDigit)
    | _ => ([], behind)
  let exponent := readExponent fraction.2
  if (digits ++ fraction.1).isEmpty ∨ !exponent.2.isEmpty then none
  else some ⟨signed.1, digits, fraction.1, exponent.1.getD 0, behind.isEmpty⟩

/-- The whole number before the point. -/
def toInt (l : Literal) : Int := Binary64.signed l.negative (natOf l.digits)

/-- The double nearest to the number. -/
def toBinary64 (l : Literal) : Binary64 :=
  let all := l.digits ++ l.places
  .ofDecimal l.negative (natOf all) all.length (l.exponent - l.places.length)

end Literal

end BlockArchive.Number
