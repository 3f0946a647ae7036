import BlockArchive.Value

/-!
# Writing JSON

A JSON text is pure ASCII: all other characters are written as escapes of UTF-16 units. On one
line a blank follows each comma; with an indentation each item stands on a line of its own. A
colon is always followed by a blank.

* `Json.render` writes a value in a `Json.Style`;
* `Json.stored` is the style of documents, in which moments, bytes and the archive's objects have
  a form of their own; `Json.logged` is the style of log files, where they appear as their text.
-/

namespace BlockArchive.Json

/-- How a JSON text is laid out. -/
structure Style where
  /-- The blanks by which each level is indented; none for a single line. -/
  indent : Option Nat
  /-- Whether objects are written as the documents that they are stored as. -/
  documents : Bool

/-- Documents on a single line. -/
def stored : Style := ⟨none, true⟩

/-- Log entries on a single line. -/
def logged : Style := ⟨none, false⟩

/-- An escape of a UTF-16 unit. -/
def unitEscape (n : Nat) : List Char := '\\' :: 'u' :: Text.hexDigits 4 n

/-- A character inside a JSON string. -/
def escape (c : Char) : List Char :=
  if c == '"' || c == '\\' then ['\\', c]
  else if c == '\n' then ['\\', 'n']
  else if c == '\r' then ['\\', 'r']
  else if c == '\t' then ['\\', 't']
  else if c.toNat == 8 then ['\\', 'b']
  else if c.toNat == 12 then ['\\', 'f']
  else if 0x20 ≤ c.toNat && c.toNat < 0x7f then [c]
  else if c.toNat < 0x10000 then unitEscape c.toNat
  else
    let n := c.toNat - 0x10000
    unitEscape (0xd800 + n / 0x400) ++ unitEscape (0xdc00 + n % 0x400)

/-- A code point inside a JSON string. -/
def escapePoint : Text.Point → List Char
  | .char c => escape c
  | .half n => unitEscape (0xd800 + n)

/-- A text as a JSON string. -/
def string (cs : List Char) : List Char := '"' :: cs.flatMap escape ++ ['"']

/-- A double as a JSON number, or one of three words beyond the standard. -/
def number (x : Binary64) : List Char :=
  match x.decode with
  | .nan => "NaN".toList
  | .infinite s => (if s then "-Infinity" else "Infinity").toList
  | .finite .. => x.text.toList

/-- What stands before an item on a given level. -/
def lineStart (style : Style) (level : Nat) : List Char :=
  match style.indent with
  | none => []
  | some n => '\n' :: List.replicate (n * level) ' '

/-- What separates two items on a given level. -/
def separator (style : Style) (level : Nat) : List Char :=
  match style.indent with
  | none => [',', ' ']
  | some _ => ',' :: lineStart style level

/-- A value that JSON does not know: the text that stands for it. -/
def foreignText (style : Style) : Value → String
  | .moment t => if style.documents then t.iso else t.stamp
  | .bytes b => if style.documents then Hex.encode b else Text.quotedBytes b
  | v => v.text

mutual

/-- The JSON text of a value whose items stand on the level below `level`. -/
def renderChars (style : Style) (level : Nat) : Value → List Char
  | .null => "null".toList
  | .bool b => (if b then "true" else "false").toList
  | .int n => (Text.ofInt n).toList
  | .real x => number x
  | .string s => string s.toList
  | .torn t => '"' :: t.points.flatMap escapePoint ++ ['"']
  | .list [] | .frozen [] => ['[', ']']
  | .list (x :: xs) | .frozen (x :: xs) =>
    '[' :: lineStart style (level + 1) ++ renderChars style (level + 1) x ++
      renderItems style (level + 1) xs ++ lineStart style level ++ [']']
  | .mapping [] => ['\x7b', '\x7d']
  | .mapping ((k, v) :: fields) =>
    '\x7b' :: lineStart style (level + 1) ++ string k.toList ++ ':' :: ' ' ::
      renderChars style (level + 1) v ++ renderFields style (level + 1) fields ++
      lineStart style level ++ ['\x7d']
  | .object kind fields (some document) =>
    if style.documents then renderChars style level document
    else string (Value.text (.object kind fields none)).toList
  | v => string (foreignText style v).toList

/-- The items of a list after the first. -/
def renderItems (style : Style) (level : Nat) : List Value → List Char
  | [] => []
  | x :: xs => separator style level ++ renderChars style level x ++ renderItems style level xs

/-- The fields after the first. -/
def renderFields (style : Style) (level : Nat) : List (String × Value) → List Char
  | [] => []
  | (k, v) :: rest =>
    separator style level ++ string k.toList ++ ':' :: ' ' :: renderChars style level v ++
      renderFields style level rest

end

/-- The JSON text of a value. -/
def render (style : Style) (v : Value) : String := String.ofList (renderChars style 0 v)

end BlockArchive.Json
