import BlockArchive.Number.Decimal

/-!
# Quantities

A quantity is a whole number or a double. Two whole numbers are computed with exactly; as soon as
one operand is a double the other is turned into one. Times and durations are quantities.

* `Quantity.sub` and `Quantity.mul` are the operations, `Quantity.less` the exact order;
* `Quantity.roundPlaces` and `Quantity.fixed` round to a number of places.
-/

namespace BlockArchive

/-- A whole number or a double. -/
inductive Quantity where
  /-- A whole number. -/
  | whole (n : Int)
  /-- A double. -/
  | real (x : Binary64)
deriving DecidableEq, Repr

namespace Quantity

/-- The quantity as a double. -/
def toReal : Quantity → Binary64
  | .whole n => .ofInt n
  | .real x => x

/-- The difference. -/
def sub : Quantity → Quantity → Quantity
  | .whole m, .whole n => .whole (m - n)
  | a, b => .real (a.toReal.sub b.toReal)

/-- The product. -/
def mul : Quantity → Quantity → Quantity
  | .whole m, .whole n => .whole (m * n)
  | a, b => .real (a.toReal.mul b.toReal)

/-- The exact order of two quantities; none if one is no number. -/
def compare? : Quantity → Quantity → Option Ordering
  | .whole m, .whole n => some (compare m n)
  | .whole m, .real y => (y.compareInt? m).map Ordering.swap
  | .real x, .whole n => x.compareInt? n
  | .real x, .real y => x.compare? y

/-- The first is less than the second. -/
def less (a b : Quantity) : Bool := a.compare? b == some .lt

/-- The quantity is not zero. -/
def isNonzero : Quantity → Bool
  | .whole n => n != 0
  | .real x => x.isNonzero

/-- A double rounded to a number of places; whole numbers stay as they are. -/
def roundPlaces (places : Nat) : Quantity → Quantity
  | .whole n => .whole n
  | .real x => .real (x.roundPlaces places)

/-- The text with a fixed number of places. -/
def fixed (places : Nat) (q : Quantity) : String := q.toReal.fixed places

/-- The text of a quantity. -/
def text : Quantity → String
  | .whole n => Text.ofInt n
  | .real x => x.text

end Quantity

end BlockArchive
