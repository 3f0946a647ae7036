import BlockArchive.Json.Reader

/-!
# Numbers too long to be written

As a whole number is read from no more than a limit of digits, so it is written with no more. The
limit holds for JSON texts as well as for the texts of values in messages.

* `Document.isTooLong` says of a number that it is beyond the limit, `Document.hasLongInteger` of a
  value that there is such a number inside.
-/

namespace BlockArchive.Document

/-- A whole number has more digits than can be written. -/
def isTooLong (n : Int) : Bool := Json.digitLimit < (Text.decimalDigits n.natAbs).length

mutual

/-- A whole number inside the value has too many digits to be written. Of blocks and transactions
the texts name no number inside. -/
def hasLongInteger : Value → Bool
  | .int n => isTooLong n
  | .list xs | .frozen xs => anyLong xs
  | .mapping fields => anyFieldLong fields
  | .object kind fields _ => kind ≠ .block && kind ≠ .evaluatedTx && anyFieldLong fields
  | _ => false

/-- An item has a whole number of too many digits inside. -/
def anyLong : List Value → Bool
  | [] => false
  | x :: xs => hasLongInteger x || anyLong xs

/-- A field has a whole number of too many digits inside. -/
def anyFieldLong : List (String × Value) → Bool
  | [] => false
  | (_, v) :: rest => hasLongInteger v || anyFieldLong rest

end

end BlockArchive.Document
