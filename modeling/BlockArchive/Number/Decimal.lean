import BlockArchive.Number.Binary64
import BlockArchive.Text.Digit

/-!
# Decimal text of doubles

* `Binary64.shortest` is the fewest decimal digits that read back as the same double, the
  nearest to it among those;
* `Binary64.text` writes them: positionally from `10 ^ -4` up to below `10 ^ 16`, else with an
  exponent of at least two digits;
* `Binary64.fixed` writes a given number of places, `Binary64.roundPlaces` rounds to them.
-/

namespace BlockArchive.Binary64

/-- The position of the decimal point relative to the first significant digit of `num / den`: the
quotient lies from `10 ^ (p - 1)` up to below `10 ^ p`. With the power that is added, the quotient
of every double but zero is at least one. -/
def pointPosition (num den : Nat) : Int :=
  ((Text.decimalDigits (num * Nat.pow 10 farthestPower / den)).length : Int) - farthestPower

/-- The quotient `num / den` in units of `10 ^ unit`, as a quotient. -/
def inUnits (num den : Nat) (unit : Int) : Nat × Nat :=
  if 0 ≤ unit then (num, den * Nat.pow 10 unit.toNat) else (num * Nat.pow 10 (-unit).toNat, den)

/-- The magnitude of `n` units of `10 ^ unit` as a double. -/
def ofUnits (n : Nat) (unit : Int) : Binary64 :=
  if 0 ≤ unit then ofRatio false (n * Nat.pow 10 unit.toNat) 1
  else ofRatio false n (Nat.pow 10 (-unit).toNat)

/-- The neighbour of `num / den` on the grid of `10 ^ unit` that reads back as `x`, the nearer
one if both do. -/
def gridHit? (x : Binary64) (num den : Nat) (unit : Int) : Option Nat :=
  let scaled := inUnits num den unit
  let below := scaled.1 / scaled.2
  let near := Number.roundDiv scaled.1 scaled.2
  let far := if near = below then below + 1 else below
  if ofUnits near unit = x then some near
  else if ofUnits far unit = x then some far
  else none

/-- Searches the grids of `count`, `count + 1`, … digits for one with a neighbour that reads back
as `x`; gives the neighbour and the unit of its last digit. -/
def searchGrids (x : Binary64) (num den : Nat) (point : Int) : Nat → Nat → Nat × Int
  | 0, count =>
    let unit := point - count
    let scaled := inUnits num den unit
    (Number.roundDiv scaled.1 scaled.2, unit)
  | more + 1, count =>
    let unit := point - count
    match gridHit? x num den unit with
    | some n => (n, unit)
    | none => searchGrids x num den point more (count + 1)

/-- Takes zeros off the end of a number, raising the unit of its last digit; `fuel` bounds their
number. -/
def dropZeros : Nat → Nat → Int → Nat × Int
  | 0, n, unit => (n, unit)
  | fuel + 1, n, unit => if n % 10 = 0 then dropZeros fuel (n / 10) (unit + 1) else (n, unit)

/-- The shortest digits of a positive magnitude `mantissa * 2 ^ exponent`, and the position of
the decimal point relative to the first of them. Seventeen digits always suffice. -/
def shortest (mantissa : Nat) (exponent : Int) : List Char × Int :=
  let r := ratio mantissa exponent
  let point := pointPosition r.1 r.2
  let found := searchGrids (ofRatio false r.1 r.2) r.1 r.2 point 16 1
  let trimmed := dropZeros 20 found.1 found.2
  let digits := Text.decimalDigits trimmed.1
  (digits, digits.length + trimmed.2)

/-- An exponent with its sign and at least two digits. -/
def exponentText (e : Int) : List Char :=
  'e' :: (if e < 0 then '-' else '+') :: Text.padded 2 e.natAbs

/-- Digits written positionally, with at least one digit on each side of the point. -/
def positional (digits : List Char) (point : Int) : List Char :=
  if point ≤ 0 then '0' :: '.' :: List.replicate (-point).toNat '0' ++ digits
  else
    let whole := point.toNat
    if digits.length ≤ whole then
      digits ++ List.replicate (whole - digits.length) '0' ++ ['.', '0']
    else digits.take whole ++ '.' :: digits.drop whole

/-- Digits written with an exponent; a single digit has no point. -/
def scientific (digits : List Char) (point : Int) : List Char :=
  match digits with
  | [] => []
  | d :: [] => d :: exponentText (point - 1)
  | d :: rest => d :: '.' :: rest ++ exponentText (point - 1)

/-- The text of a double: its shortest digits, positional where the point lies within sixteen
digits, and `nan`, `inf` and `-inf` for the rest. -/
def text (x : Binary64) : String :=
  match x.decode with
  | .nan => "nan"
  | .infinite s => if s then "-inf" else "inf"
  | .finite s m e =>
    let body :=
      if m = 0 then ['0', '.', '0']
      else
        let sp := shortest m e
        if -4 < sp.2 ∧ sp.2 ≤ 16 then positional sp.1 sp.2 else scientific sp.1 sp.2
    String.ofList (if s then '-' :: body else body)

/-- A whole number of units of `10 ^ -places` with the point put in. -/
def pointed (places n : Nat) : List Char :=
  let digits := Text.padded (places + 1) n
  let whole := digits.take (digits.length - places)
  if places = 0 then whole else whole ++ '.' :: digits.drop (digits.length - places)

/-- The text with a fixed number of places, rounded exactly, a half going to the even digit. -/
def fixed (places : Nat) (x : Binary64) : String :=
  match x.decode with
  | .nan => "nan"
  | .infinite s => if s then "-inf" else "inf"
  | .finite s m e =>
    let r := ratio m e
    let body := pointed places (Number.roundDiv (r.1 * Nat.pow 10 places) r.2)
    String.ofList (if s then '-' :: body else body)

/-- The double nearest to the value rounded exactly to a number of places. -/
def roundPlaces (places : Nat) (x : Binary64) : Binary64 :=
  match x.decode with
  | .finite s m e =>
    let r := ratio m e
    ofRatio s (Number.roundDiv (r.1 * Nat.pow 10 places) r.2) (Nat.pow 10 places)
  | _ => x

/-- The text with a given number of significant digits at most, a half going up, with at least one
digit on each side of the point, and with an exponent outside `10 ^ -4` to `10 ^ significant`.
Zero has no sign. -/
def general (significant : Nat) (x : Binary64) : String :=
  match x.decode with
  | .nan => "NaN"
  | .infinite s => if s then "-Inf" else "Inf"
  | .finite s m e =>
    if m = 0 then "0.0"
    else
      let r := ratio m e
      let unit := pointPosition r.1 r.2 - significant
      let scaled := inUnits r.1 r.2 unit
      let trimmed := dropZeros (significant + 1) (Number.roundHalfUp scaled.1 scaled.2) unit
      let digits := Text.decimalDigits trimmed.1
      let point : Int := digits.length + trimmed.2
      let body :=
        if -4 < point ∧ point ≤ significant then positional digits point
        else match digits with
          | d :: [] => d :: '.' :: '0' :: exponentText (point - 1)
          | _ => scientific digits point
      String.ofList (if s then '-' :: body else body)

end BlockArchive.Binary64
