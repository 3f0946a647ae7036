/-!
# Rounding to the nearest

Exact division of natural numbers with the quotient rounded to the nearest whole number.

* `Number.roundDiv` is the quotient with a half going to the even neighbour;
* `Number.roundHalfUp` is the quotient with a half going up.
-/

namespace BlockArchive.Number

/-- The whole number nearest to `num / den`; of two equally near ones the even one. -/
def roundDiv (num den : Nat) : Nat :=
  let q := num / den
  let twice := 2 * (num % den)
  if twice < den then q
  else if den < twice then q + 1
  else if q % 2 = 0 then q else q + 1

/-- The whole number nearest to `num / den`; of two equally near ones the greater. -/
def roundHalfUp (num den : Nat) : Nat := (2 * num + den) / (2 * den)

end BlockArchive.Number
