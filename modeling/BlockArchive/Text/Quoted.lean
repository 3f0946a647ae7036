import BlockArchive.Bytes
import BlockArchive.Hex
import BlockArchive.Text.Printable

/-!
# Quoted text

The form in which a text or a byte string appears inside a message: between single quotes, or
between double quotes if it holds a single quote and no double one. Tab, line feed and carriage
return have short escapes, other characters that are not printable get hex escapes, and of the
two quotes only the one in use is escaped.

* `Text.quoted` and `Text.quotedList` for texts;
* `Text.quotedBytes` and `Text.quotedBuffer` for byte strings.
-/

namespace BlockArchive.Text

/-- The quote to put around a text: double only for a text with a single and without a double
quote. -/
def quoteFor (cs : List Char) : Char :=
  if cs.contains '\'' && !cs.contains '"' then '"' else '\''

/-- The lowest `width` hex digits of a number. -/
def hexDigits : Nat → Nat → List Char
  | 0, _ => []
  | width + 1, n => hexDigits width (n / 16) ++ [Hex.digit (n % 16)]

/-- A character in a text quoted with `quote`. -/
def quotedChar (quote : Char) (c : Char) : List Char :=
  if c == quote || c == '\\' then ['\\', c]
  else if c == '\t' then ['\\', 't']
  else if c == '\n' then ['\\', 'n']
  else if c == '\r' then ['\\', 'r']
  else if isPrintable c then [c]
  else if c.toNat < 0x100 then '\\' :: 'x' :: hexDigits 2 c.toNat
  else if c.toNat < 0x10000 then '\\' :: 'u' :: hexDigits 4 c.toNat
  else '\\' :: 'U' :: hexDigits 8 c.toNat

/-- A text as it appears inside a message. -/
def quoted (s : String) : String :=
  let quote := quoteFor s.toList
  String.ofList (quote :: s.toList.flatMap (quotedChar quote) ++ [quote])

/-- A list of texts as it appears inside a message. -/
def quotedList (xs : List String) : String := "[" ++ ", ".intercalate (xs.map quoted) ++ "]"

/-- A byte in a byte string quoted with `quote`: beyond ASCII all are escaped. -/
def quotedByte (quote : Char) (b : UInt8) : List Char :=
  if b < 0x80 then quotedChar quote (Char.ofNat b.toNat) else '\\' :: 'x' :: hexDigits 2 b.toNat

/-- A byte string as it appears inside a message. -/
def quotedBytes (b : Bytes) : String :=
  let quote := quoteFor (b.map fun x => Char.ofNat x.toNat)
  String.ofList ('b' :: quote :: b.flatMap (quotedByte quote) ++ [quote])

/-- A byte of a buffer: the single quote is escaped whichever quote is in use. -/
def quotedBufferByte (quote : Char) (b : UInt8) : List Char :=
  if b == 39 then ['\\', '\''] else quotedByte quote b

/-- A mutable byte string as it appears inside a message. -/
def quotedBuffer (b : Bytes) : String :=
  let quote := quoteFor (b.map fun x => Char.ofNat x.toNat)
  "bytearray(" ++ String.ofList ('b' :: quote :: b.flatMap (quotedBufferByte quote) ++ [quote]) ++
    ")"

end BlockArchive.Text
