import BlockArchive.Value.Reading

/-!
# Cells of a table

A cell of a database table holds nothing, a whole number of 64 bits, a double, a text or bytes.
A value given for a column is bound to a cell and then brought closer to the column's affinity: a
text column turns numbers into texts, an integer column turns into whole numbers whatever stands
for one.

* `Cell.bind` makes a cell of a value, `Affinity.apply` adapts it to a column;
* `Cell.before` orders cells: numbers, then texts, then bytes.
-/

namespace BlockArchive

/-- A cell of a table. -/
inductive Cell where
  /-- Nothing. -/
  | null
  /-- A whole number. -/
  | integer (n : Int)
  /-- A double. -/
  | real (x : Binary64)
  /-- A text. -/
  | text (s : String)
  /-- Bytes. -/
  | blob (b : Bytes)
deriving DecidableEq, Repr

/-- What a column prefers to hold. -/
inductive Affinity where
  /-- Texts. -/
  | text
  /-- Whole numbers. -/
  | integer
deriving DecidableEq, Repr

namespace Cell

/-- The number fits into 64 bits with a sign. -/
def fits (n : Int) : Bool := -0x8000000000000000 ≤ n && n < 0x8000000000000000

/-- The cell for a value that is the parameter at a position. No cell takes a whole number beyond 64
bits, nor a text that cannot be encoded. -/
def bind (position : Nat) : Value → Except Fault Cell
  | .null => .ok .null
  | .bool b => .ok (.integer (if b then 1 else 0))
  | .int n => if fits n then .ok (.integer n) else .error .columnOverflow
  | .real x => .ok (if x.compare? x = none then .null else .real x)
  | .string s => .ok (.text s)
  | .torn t => .error (.unencodable t.trouble)
  | .bytes b | .buffer b => .ok (.blob b)
  | v => .error (.database (.unsupported position v.typeName))

/-- The value in a cell. -/
def value : Cell → Value
  | .null => .null
  | .integer n => .int n
  | .real x => .real x
  | .text s => .string s
  | .blob b => .bytes b

/-- The text in a cell; nothing for other cells. -/
def text? : Cell → Option String
  | .text s => some s
  | _ => none

/-- A double as a whole number, if it is one well within 64 bits. -/
def wholeOfReal (x : Binary64) : Cell :=
  match x.truncate? with
  | some n =>
    if x.compareInt? n = some .eq ∧ fits (n - 1) ∧ fits (n + 1) then .integer n else .real x
  | none => .real x

/-- The number that a text writes in decimal, with optional sign, fraction and exponent and
blanks around it. -/
def numberOfText? (s : String) : Option Cell :=
  (Number.Literal.read? (Text.strip Text.isAsciiBlank s.toList)).map fun l =>
    if l.isWhole && fits l.toInt then .integer l.toInt else wholeOfReal l.toBinary64

/-- The rank of a cell's sort in the order. -/
def rank : Cell → Nat
  | .null => 0
  | .integer _ | .real _ => 1
  | .text _ => 2
  | .blob _ => 3

/-- The first cell comes before the second. -/
def before (a b : Cell) : Bool :=
  match a, b with
  | .integer m, .integer n => m < n
  | .integer m, .real y => y.compareInt? m == some .gt
  | .real x, .integer n => x.compareInt? n == some .lt
  | .real x, .real y => x.compare? y == some .lt
  | .text s, .text t => s < t
  | .blob s, .blob t => s.before t
  | a, b => a.rank < b.rank

end Cell

/-- Adapts a cell to the affinity of a column. -/
def Affinity.apply : Affinity → Cell → Cell
  | .text, .integer n => .text (Text.ofInt n)
  | .text, .real x => .text (x.general 15)
  | .integer, .real x => Cell.wholeOfReal x
  | .integer, .text s => (Cell.numberOfText? s).getD (.text s)
  | _, c => c

end BlockArchive
