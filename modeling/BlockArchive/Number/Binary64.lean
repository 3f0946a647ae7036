import BlockArchive.Number.Rounding

/-!
# Double-precision numbers

A `Binary64` is a number of the IEEE 754 double-precision format, held as its 64-bit word. All
operations decode to an exact dyadic value, compute in whole numbers and round once, to the
nearest double with a half going to the even one.

* `Binary64.decode` gives the value of a word;
* `Binary64.ofRatio` rounds a quotient of natural numbers;
* `add`, `sub`, `mul`, `compare?`, `truncate?` and `roundWhole?` are the operations.
-/

namespace BlockArchive

/-- A number of the double-precision format. -/
structure Binary64 where
  /-- The word: sign, eleven bits of exponent, 52 bits of fraction. -/
  bits : UInt64
deriving DecidableEq, Repr

namespace Binary64

/-- What a word stands for. -/
inductive Decoded where
  /-- No number. -/
  | nan
  /-- An infinity. -/
  | infinite (negative : Bool)
  /-- The number `± mantissa * 2 ^ exponent`, with an exponent of at least -1074. -/
  | finite (negative : Bool) (mantissa : Nat) (exponent : Int)
deriving DecidableEq, Repr

/-- The bits of the fraction in a word. -/
def fractionBits : Nat := 52

/-- The bits of the exponent in a word. -/
def exponentBits : Nat := 11

/-- The bits of a word below the sign. -/
def magnitudeBits : Nat := exponentBits + fractionBits

/-- The powers of ten, up and down, beyond which there are no doubles besides zero. -/
def farthestPower : Nat := 400

/-- The value of a word. -/
def decode (x : Binary64) : Decoded :=
  let w := x.bits.toNat
  let negative := decide (Nat.pow 2 magnitudeBits ≤ w)
  let biased : Nat := w / Nat.pow 2 fractionBits % Nat.pow 2 exponentBits
  let fraction : Nat := w % Nat.pow 2 fractionBits
  if biased = 2047 then
    if fraction = 0 then .infinite negative else .nan
  else if biased = 0 then .finite negative fraction (-1074)
  else .finite negative (Nat.pow 2 fractionBits + fraction) ((biased : Int) - 1075)

/-- The word with a sign put on a magnitude. -/
def ofMagnitude (negative : Bool) (w : Nat) : Binary64 :=
  ⟨UInt64.ofNat (if negative then Nat.pow 2 magnitudeBits + w else w)⟩

/-- Not a number. -/
def nan : Binary64 := ⟨0x7ff8000000000000⟩

/-- An infinity. -/
def infinity (negative : Bool) : Binary64 := ofMagnitude negative 0x7ff0000000000000

/-- A zero. -/
def zero (negative : Bool) : Binary64 := ofMagnitude negative 0

/-- The rounded quotient `num / (den * 2 ^ q)`. -/
def scaledQuotient (num den : Nat) (q : Int) : Nat :=
  if 0 ≤ q then Number.roundDiv num (den * Nat.pow 2 q.toNat)
  else Number.roundDiv (num * Nat.pow 2 (-q).toNat) den

/-- The exponent of the last place of `num / den`: the quotient by `2 ^ q` has 53 bits, or fewer
where `q` is at its least value. -/
def placeExponent (num den : Nat) : Int :=
  let q : Int := (Nat.log2 num : Int) - (Nat.log2 den : Int) - fractionBits
  let full : Bool :=
    if 0 ≤ q then den * Nat.pow 2 (q.toNat + fractionBits) ≤ num
    else den * Nat.pow 2 fractionBits ≤ num * Nat.pow 2 (-q).toNat
  max (-1074) (if full then q else q - 1)

/-- The double nearest to `± num / den`; a magnitude beyond the format becomes an infinity. -/
def ofRatio (negative : Bool) (num den : Nat) : Binary64 :=
  if num = 0 then zero negative
  else
    let q := placeExponent num den
    let w := (q + 1074).toNat * Nat.pow 2 fractionBits + scaledQuotient num den q
    if 2047 * Nat.pow 2 fractionBits ≤ w then infinity negative else ofMagnitude negative w

/-- The double nearest to `± mantissa * 2 ^ exponent`. -/
def ofDyadic (negative : Bool) (mantissa : Nat) (exponent : Int) : Binary64 :=
  if 0 ≤ exponent then ofRatio negative (mantissa * Nat.pow 2 exponent.toNat) 1
  else ofRatio negative mantissa (Nat.pow 2 (-exponent).toNat)

/-- The double nearest to a whole number. -/
def ofInt (n : Int) : Binary64 := ofRatio (n < 0) n.natAbs 1

/-- The double nearest to `± mantissa * 10 ^ exponent`, where `digits` is the number of decimal
digits of the mantissa; magnitudes far outside the format are settled without computing the
power. -/
def ofDecimal (negative : Bool) (mantissa digits : Nat) (exponent : Int) : Binary64 :=
  if mantissa = 0 then zero negative
  else if farthestPower < exponent + digits then infinity negative
  else if exponent + digits < -farthestPower then zero negative
  else if 0 ≤ exponent then ofRatio negative (mantissa * Nat.pow 10 exponent.toNat) 1
  else ofRatio negative mantissa (Nat.pow 10 (-exponent).toNat)

/-- The whole number `± m * 2 ^ (e - least)` for an exponent `e` of at least `least`. -/
def aligned (least : Int) (negative : Bool) (m : Nat) (e : Int) : Int :=
  let magnitude : Int := (m * Nat.pow 2 (e - least).toNat : Nat)
  if negative then -magnitude else magnitude

/-- The number with the opposite sign. -/
def neg (x : Binary64) : Binary64 := ⟨x.bits ^^^ 0x8000000000000000⟩

/-- The rounded sum. A sum of zero is negative only if both terms are. -/
def add (x y : Binary64) : Binary64 :=
  match x.decode, y.decode with
  | .nan, _ => nan
  | _, .nan => nan
  | .infinite s, .infinite t => if s = t then infinity s else nan
  | .infinite s, _ => infinity s
  | _, .infinite t => infinity t
  | .finite s m e, .finite t n f =>
    let least := min e f
    let total := aligned least s m e + aligned least t n f
    if total = 0 then zero (s && t && m = 0 && n = 0)
    else ofDyadic (total < 0) total.natAbs least

/-- The rounded difference. -/
def sub (x y : Binary64) : Binary64 := x.add y.neg

/-- The rounded product. -/
def mul (x y : Binary64) : Binary64 :=
  match x.decode, y.decode with
  | .nan, _ => nan
  | _, .nan => nan
  | .infinite s, .infinite t => infinity (s != t)
  | .infinite s, .finite t n _ => if n = 0 then nan else infinity (s != t)
  | .finite s m _, .infinite t => if m = 0 then nan else infinity (s != t)
  | .finite s m e, .finite t n f => ofDyadic (s != t) (m * n) (e + f)

/-- The order of two numbers; none if one is not a number. The two zeros are equal. -/
def compare? (x y : Binary64) : Option Ordering :=
  match x.decode, y.decode with
  | .nan, _ => none
  | _, .nan => none
  | .infinite s, .infinite t =>
    some (if s = t then .eq else if s then .lt else .gt)
  | .infinite s, _ => some (if s then .lt else .gt)
  | _, .infinite t => some (if t then .gt else .lt)
  | .finite s m e, .finite t n f =>
    let least := min e f
    some (compare (aligned least s m e) (aligned least t n f))

/-- The order of a number and a whole number, compared exactly. -/
def compareInt? (x : Binary64) (n : Int) : Option Ordering :=
  match x.decode with
  | .nan => none
  | .infinite s => some (if s then .lt else .gt)
  | .finite s m e =>
    let least := min e 0
    some (compare (aligned least s m e) (n * Nat.pow 2 (-least).toNat))

/-- The number is a number and not zero, or no number. -/
def isNonzero (x : Binary64) : Bool :=
  match x.decode with
  | .finite _ m _ => m != 0
  | _ => true

/-- A signed whole number from sign and magnitude. -/
def signed (negative : Bool) (n : Nat) : Int := if negative then -(n : Int) else n

/-- The whole part, rounded toward zero; none for infinities and no number. -/
def truncate? (x : Binary64) : Option Int :=
  match x.decode with
  | .finite s m e =>
    some (signed s (if 0 ≤ e then m * Nat.pow 2 e.toNat else m / Nat.pow 2 (-e).toNat))
  | _ => none

/-- The greatest whole number at or below; none for infinities and no number. -/
def floor? (x : Binary64) : Option Int :=
  match x.decode with
  | .finite s m e =>
    some (if 0 ≤ e then signed s (m * Nat.pow 2 e.toNat)
      else (signed s m).fdiv (Nat.pow 2 (-e).toNat))
  | _ => none

/-- The nearest whole number, a half going to the even one. -/
def roundWhole? (x : Binary64) : Option Int :=
  match x.decode with
  | .finite s m e =>
    some (signed s (if 0 ≤ e then m * Nat.pow 2 e.toNat
      else Number.roundDiv m (Nat.pow 2 (-e).toNat)))
  | _ => none

/-- The number without its whole part, exactly. -/
def fraction (x : Binary64) : Binary64 :=
  match x.decode with
  | .finite s m e => if 0 ≤ e then zero s else ofDyadic s (m % Nat.pow 2 (-e).toNat) e
  | _ => zero false

/-- The magnitude as a quotient of natural numbers. -/
def ratio (mantissa : Nat) (exponent : Int) : Nat × Nat :=
  if 0 ≤ exponent then (mantissa * Nat.pow 2 exponent.toNat, 1)
  else (mantissa, Nat.pow 2 (-exponent).toNat)

end Binary64

end BlockArchive
