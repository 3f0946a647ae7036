import BlockArchive.Number.Decimal

/-!
# Texts with significant digits

Besides a fixed number of places, a magnitude can be written with a number of significant digits:
always with an exponent, or with one only where the point would lie far off.

* `Binary64.significant` is the digits, `Binary64.exponential` and `Binary64.compact` the texts.
-/

namespace BlockArchive.Binary64

/-- The first `count` digits of a magnitude `mantissa * 2 ^ exponent`, rounded exactly, and the
position of the point relative to the first of them; zero has only zeros. -/
def significant (count mantissa : Nat) (exponent : Int) : List Char × Int :=
  if mantissa = 0 then (List.replicate count '0', 1)
  else
    let r := ratio mantissa exponent
    let point := pointPosition r.1 r.2
    let scaled := inUnits r.1 r.2 (point - count)
    let digits := Text.decimalDigits (Number.roundDiv scaled.1 scaled.2)
    if digits.length = count then (digits, point) else (digits.take count, point + 1)

/-- Digits with the point behind the first and, if there are others or `point` asks for it, the
point itself. -/
def afterFirst (point : Bool) : List Char → List Char
  | [] => []
  | d :: [] => if point then [d, '.'] else [d]
  | d :: rest => d :: '.' :: rest

/-- The text with an exponent and a number of places. -/
def exponential (point : Bool) (places mantissa : Nat) (exponent : Int) : List Char :=
  let digits := significant (places + 1) mantissa exponent
  afterFirst point digits.1 ++ exponentText (digits.2 - 1)

/-- The text with a number of places, with the point even where there are none if asked for. -/
def placed (point : Bool) (places mantissa : Nat) (exponent : Int) : List Char :=
  let r := ratio mantissa exponent
  pointed places (Number.roundDiv (r.1 * Nat.pow 10 places) r.2) ++
    (if point && places = 0 then ['.'] else [])

/-- A text without zeros, and then without the point, at its end, if it has a point. -/
def withoutEndZeros (cs : List Char) : List Char :=
  if cs.contains '.' then
    let rest := cs.reverse.dropWhile (· == '0')
    (if rest.head? = some '.' then rest.drop 1 else rest).reverse
  else cs

/-- The text with a number of significant digits: with an exponent below `10 ^ -4` and from
`10 ^ count` on; zeros at the end are kept only where `full` asks for them. -/
def compact (full : Bool) (count mantissa : Nat) (exponent : Int) : List Char :=
  let count := max count 1
  let digits := significant count mantissa exponent
  if -4 < digits.2 ∧ digits.2 ≤ count then
    let body := placed full (count - digits.2).toNat mantissa exponent
    if full then body else withoutEndZeros body
  else
    let body := afterFirst full digits.1
    (if full then body else withoutEndZeros body) ++ exponentText (digits.2 - 1)

end BlockArchive.Binary64
