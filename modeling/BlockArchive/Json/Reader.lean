import BlockArchive.Number.Literal
import BlockArchive.Value

/-!
# Reading JSON

The reader takes the whole text or says what it expected and where. Beyond the standard it knows
the three words `NaN`, `Infinity` and `-Infinity`. A whole number stays whole, of any size up to a
limit of digits; one with a fraction or an exponent is read as the nearest double. Of two fields of
one name the last gives the value and the first the place. An escape may stand for half of a pair of
UTF-16 units: a text with one is torn, and in a name it becomes the replacement character.

* `Json.parse` reads a text, `Json.parseWithin` reads one with room for so many lists and objects
  inside each other;
* `Json.Trouble` is what can be wrong with it, and `Json.Trouble.message` its wording.
-/

namespace BlockArchive.Json

/-- The most decimal digits that a whole number may be read from. -/
def digitLimit : Nat := 4300

/-- What the reader missed or met. -/
inductive Complaint where
  /-- No value starts here. -/
  | value
  /-- No quoted name starts here. -/
  | name
  /-- A colon is missing. -/
  | colon
  /-- A comma or a closing bracket is missing. -/
  | comma
  /-- Something follows the value. -/
  | extra
  /-- The string that starts here does not end. -/
  | unterminated
  /-- A control character stands in a string. -/
  | control
  /-- No such escape. -/
  | escape
  /-- The escape of a UTF-16 unit has not four hex digits. -/
  | unit
  /-- The text starts with a byte order mark. -/
  | mark
deriving DecidableEq, Repr

/-- The wording of a complaint. -/
def Complaint.text : Complaint → String
  | .value => "Expecting value"
  | .name => "Expecting property name enclosed in double quotes"
  | .colon => "Expecting ':' delimiter"
  | .comma => "Expecting ',' delimiter"
  | .extra => "Extra data"
  | .unterminated => "Unterminated string starting at"
  | .control => "Invalid control character at"
  | .escape => "Invalid \\escape"
  | .unit => "Invalid \\uXXXX escape"
  | .mark => "Unexpected UTF-8 BOM (decode using utf-8-sig)"

/-- Why reading stopped before the end: a complaint with the text from its place on, a whole number
of too many digits, or a list or an object for which there is no room. -/
inductive Stop where
  /-- A complaint at the beginning of `rest`. -/
  | complaint (what : Complaint) (rest : List Char)
  /-- A whole number with this many digits. -/
  | long (digits : Nat)
  /-- A list, or an object, inside as many others as there is room for. -/
  | deep (isList : Bool)

/-- The outcome of reading a part: its value and the text behind it. -/
abbrev Part (α : Type) := Except Stop (α × List Char)

/-- The text without blanks at its beginning. -/
def skip (cs : List Char) : List Char := cs.dropWhile Text.isJsonBlank

/-- The value of four hex digits. -/
def quad? (a b c d : Char) : Option Nat :=
  match Hex.value? a, Hex.value? b, Hex.value? c, Hex.value? d with
  | some a, some b, some c, some d => some (((a * 16 + b) * 16 + c) * 16 + d)
  | _, _, _, _ => none

/-- A UTF-16 unit by itself, which may be half of a pair without its partner. -/
def unitPoint (n : Nat) : Text.Point :=
  if h : 0xd800 ≤ n ∧ n < 0xe000 then .half ⟨n - 0xd800, by omega⟩ else .char (Char.ofNat n)

/-- The character of an escape of one letter. -/
def escaped? : Char → Option Char
  | '"' => some '"'
  | '\\' => some '\\'
  | '/' => some '/'
  | 'b' => some (Char.ofNat 8)
  | 'f' => some (Char.ofNat 12)
  | 'n' => some '\n'
  | 'r' => some '\r'
  | 't' => some '\t'
  | _ => none

/-- The pair of units `high` and `low` as a character. -/
def pairChar (high low : Nat) : Char :=
  Char.ofNat (0x10000 + (high - 0xd800) * 0x400 + (low - 0xdc00))

/-- The escape of a UTF-16 unit behind its letter `u`, joined with the escape of a second unit if
the two make up one character: the code point and the number of characters read. A unit is complete
only if something follows it. -/
def readUnit (letter : List Char) : List Char → Except Stop (Text.Point × Nat)
  | a :: b :: c :: d :: rest =>
    if rest.isEmpty then .error (.complaint .unit letter)
    else match quad? a b c d, rest with
      | none, _ => .error (.complaint .unit letter)
      | some n, '\\' :: 'u' :: e :: f :: g :: h :: more =>
        if 0xd800 ≤ n ∧ n < 0xdc00 ∧ !more.isEmpty then
          match quad? e f g h with
          | none => .error (.complaint .unit (rest.drop 1))
          | some m =>
            if 0xdc00 ≤ m ∧ m < 0xe000 then .ok (.char (pairChar n m), 10)
            else .ok (unitPoint n, 4)
        else .ok (unitPoint n, 4)
      | some n, _ => .ok (unitPoint n, 4)
  | _ => .error (.complaint .unit letter)

/-- Reads an escape behind its backslash: the code point and the number of characters read.
`opening` is the text from the opening quote on. -/
def readEscape (opening : List Char) : List Char → Except Stop (Text.Point × Nat)
  | [] => .error (.complaint .unterminated opening)
  | c :: rest =>
    if c == 'u' then (readUnit (c :: rest) rest).map fun p => (p.1, p.2 + 1)
    else match escaped? c with
      | none => .error (.complaint .escape ('\\' :: c :: rest))
      | some e => .ok (.char e, 1)

/-- Reads the inside of a string up to its closing quote; `opening` is the text from the opening
quote on. -/
def readString (opening : List Char) : List Char → Part (List Text.Point)
  | [] => .error (.complaint .unterminated opening)
  | c :: rest =>
    if c == '"' then .ok ([], rest)
    else if c == '\\' then
      match readEscape opening rest with
      | .error stop => .error stop
      | .ok (e, n) => (readString opening (rest.drop n)).map fun p => (e :: p.1, p.2)
    else if c.toNat < 0x20 then .error (.complaint .control (c :: rest))
    else (readString opening rest).map fun p => (.char c :: p.1, p.2)
termination_by cs => cs.length
decreasing_by all_goals simp; try omega

/-- The fraction of a number: the digits after a point, if there are any. -/
def readFraction : List Char → Option (List Char) × List Char
  | '.' :: rest =>
    if (rest.takeWhile Char.isDigit).isEmpty then (none, '.' :: rest)
    else (some (rest.takeWhile Char.isDigit), rest.dropWhile Char.isDigit)
  | cs => (none, cs)

/-- Reads what follows the whole part of a number. -/
def readNumberTail (negative : Bool) (digits rest : List Char) : Part Value :=
  let fraction := readFraction rest
  let exponent := Number.readExponent fraction.2
  match fraction.1, exponent.1 with
  | none, none =>
    if digitLimit < digits.length then .error (.long digits.length)
    else .ok (.int (Binary64.signed negative (Number.natOf digits)), exponent.2)
  | f, e =>
    let places := f.getD []
    let all := digits ++ places
    .ok (.real (.ofDecimal negative (Number.natOf all) all.length (e.getD 0 - places.length)),
        exponent.2)

/-- Reads a number: no zero may stand before another digit. `start` is the text from its sign
on. -/
def readNumber (start : List Char) (negative : Bool) : List Char → Part Value
  | '0' :: rest => readNumberTail negative ['0'] rest
  | c :: rest =>
    if c.isDigit then
      readNumberTail negative (c :: rest.takeWhile Char.isDigit) (rest.dropWhile Char.isDigit)
    else .error (.complaint .value start)
  | [] => .error (.complaint .value start)

/-- The text behind a word, if it starts with the word. -/
def afterWord? : List Char → List Char → Option (List Char)
  | [], rest => some rest
  | _ :: _, [] => none
  | w :: ws, c :: cs => if w == c then afterWord? ws cs else none

/-- The words that are values. -/
def words : List (List Char × Value) :=
  [("null".toList, .null), ("true".toList, .bool true), ("false".toList, .bool false),
    ("NaN".toList, .real Binary64.nan), ("Infinity".toList, .real (Binary64.infinity false)),
    ("-Infinity".toList, .real (Binary64.infinity true))]

/-- Reads a word or a number. -/
def readSimple (cs : List Char) : Part Value :=
  match words.findSome? fun w => (afterWord? w.1 cs).map fun rest => (w.2, rest) with
  | some found => .ok found
  | none => match cs with
    | '-' :: rest => readNumber cs true rest
    | _ => readNumber cs false cs

/-- The name that code points make up; a half becomes the replacement character. -/
def nameOf (points : List Text.Point) : String := String.ofList (points.map Text.Point.shown)

mutual

/-- Reads a value. There is room for `room` lists and objects inside each other, and `fuel` bounds
the steps. Each character opens at most one list or object, which takes one step to enter and one
for its first item, so that fuel for more than twice the length of the text never runs out. -/
def readValue : Nat → Nat → List Char → Part Value
  | 0, _, cs => .error (.complaint .value cs)
  | fuel + 1, room, cs =>
    match cs with
    | '"' :: rest => (readString cs rest).map fun p => (.ofPoints p.1, p.2)
    | '[' :: rest =>
      match room with
      | 0 => .error (.deep true)
      | room + 1 =>
        match skip rest with
        | ']' :: after => .ok (.list [], after)
        | inside => (readItems fuel room inside).map fun p => (.list p.1, p.2)
    | '\x7b' :: rest =>
      match room with
      | 0 => .error (.deep false)
      | room + 1 =>
        match skip rest with
        | '\x7d' :: after => .ok (.mapping [], after)
        | inside => (readFields fuel room [] inside).map fun p => (.mapping p.1, p.2)
    | _ => readSimple cs

/-- Reads the items of a list up to its closing bracket. -/
def readItems : Nat → Nat → List Char → Part (List Value)
  | 0, _, cs => .error (.complaint .value cs)
  | fuel + 1, room, cs =>
    match readValue fuel room cs with
    | .error stop => .error stop
    | .ok (item, rest) =>
      match skip rest with
      | ']' :: after => .ok ([item], after)
      | ',' :: more => (readItems fuel room (skip more)).map fun p => (item :: p.1, p.2)
      | other => .error (.complaint .comma other)

/-- Reads fields up to the closing brace and puts them to those read so far. -/
def readFields : Nat → Nat → List (String × Value) → List Char → Part (List (String × Value))
  | 0, _, _, cs => .error (.complaint .value cs)
  | fuel + 1, room, fields, cs =>
    match cs with
    | '"' :: inside =>
      match readString cs inside with
      | .error stop => .error stop
      | .ok (name, rest) =>
        match skip rest with
        | ':' :: more =>
          match readValue fuel room (skip more) with
          | .error stop => .error stop
          | .ok (v, rest) =>
            let fields := Value.setField fields (nameOf name) v
            match skip rest with
            | '\x7d' :: after => .ok (fields, after)
            | ',' :: more => readFields fuel room fields (skip more)
            | other => .error (.complaint .comma other)
        | other => .error (.complaint .colon other)
    | _ => .error (.complaint .name cs)

end

/-- What is wrong with a text that is not JSON. -/
inductive Trouble where
  /-- A complaint at a position: the number of characters, of line ends, and of characters since
  the last line end before it. -/
  | syntaxAt (what : Complaint) (position line column : Nat)
  /-- A whole number of too many digits. -/
  | longInteger (digits : Nat)
  /-- A list or an object for which there is no room. -/
  | deep (isList : Bool)
deriving DecidableEq, Repr

/-- The wording of a trouble. -/
def Trouble.message : Trouble → String
  | .syntaxAt what position line column =>
    what.text ++ ": line " ++ Text.ofInt line ++ " column " ++ Text.ofInt column ++ " (char " ++
      Text.ofInt position ++ ")"
  | .longInteger digits =>
    "Exceeds the limit (4300 digits) for integer string conversion: value has " ++
      Text.ofInt digits ++ " digits; use sys.set_int_max_str_digits() to increase the limit"
  | .deep isList =>
    "maximum recursion depth exceeded while decoding a JSON " ++
      (if isList then "array" else "object") ++ " from a unicode string"

/-- A complaint placed by lines and columns, which count from one. -/
def troubleAt (cs : List Char) (what : Complaint) (rest : List Char) : Trouble :=
  let position := cs.length - rest.length
  let before := cs.take position
  .syntaxAt what position (before.count '\n' + 1)
    ((before.reverse.takeWhile (· != '\n')).length + 1)

/-- The fuel with which a text is read. -/
def fuelFor (cs : List Char) : Nat := 2 * cs.length + 1

/-- Reads a whole text with room for `room` lists and objects inside each other. -/
def parseWithin (room : Nat) (cs : List Char) : Except Trouble Value :=
  if cs.head? = some (Char.ofNat 0xfeff) then .error (troubleAt cs .mark cs)
  else match readValue (fuelFor cs) room (skip cs) with
    | .error (.complaint what rest) => .error (troubleAt cs what rest)
    | .error (.long digits) => .error (.longInteger digits)
    | .error (.deep isList) => .error (.deep isList)
    | .ok (v, rest) =>
      let after := skip rest
      if after.isEmpty then .ok v else .error (troubleAt cs .extra after)

/-- Reads a whole text, with room for all that can be in it. -/
def parseChars (cs : List Char) : Except Trouble Value := parseWithin (fuelFor cs) cs

/-- Reads a JSON text. -/
def parse (s : String) : Except Trouble Value := parseChars s.toList

end BlockArchive.Json
