import BlockArchive.Text.Blank

/-!
# Files of variables

A file of variables has a binding a line: a name, an equals sign and a value, or a name alone.
The word `export` may stand before a name, and a number sign starts a comment. A value in single
or double quotes may go over several lines and hold escapes; any other ends with its line or at a
comment, and blanks around it are dropped. A line that is not of this form is passed over. In
values, `${name}` and `${name:-default}` stand for variables that are bound before or outside.

* `Variable.readFile` gives the variables of a file.
-/

namespace BlockArchive.Variable

/-- A blank within a line. -/
def isInlineBlank (c : Char) : Bool := Text.isBlank c && c != '\n' && c != '\r'

/-- The end of a line. -/
def isLineEnd (c : Char) : Bool := c == '\n' || c == '\r'

/-- What follows the word `export` and the blanks behind it, where both are there. -/
def afterExport : List Char → List Char
  | 'e' :: 'x' :: 'p' :: 'o' :: 'r' :: 't' :: c :: rest =>
    if isInlineBlank c then rest.dropWhile isInlineBlank
    else 'e' :: 'x' :: 'p' :: 'o' :: 'r' :: 't' :: c :: rest
  | cs => cs

/-- A character of a name without quotes. -/
def isNameChar (c : Char) : Bool := c != '=' && c != '#' && !Text.isBlank c

/-- Reads a name, which may be missing before a comment; the error is the text behind which
reading stopped. -/
def readName : List Char → Except (List Char) (Option (List Char) × List Char)
  | '#' :: rest => .ok (none, '#' :: rest)
  | '\'' :: rest =>
    match rest.takeWhile (· != '\''), rest.dropWhile (· != '\'') with
    | c :: name, '\'' :: after => .ok (some (c :: name), after)
    | _, _ => .error ('\'' :: rest)
  | cs =>
    let name := cs.takeWhile isNameChar
    if name.isEmpty then .error cs else .ok (some name, cs.dropWhile isNameChar)

/-- The characters up to the closing quote, and what follows it. A quote behind a backslash closes
only where no later one does. -/
def readQuoted (quote : Char) : List Char → Option (List Char × List Char)
  | [] => none
  | '\\' :: c :: rest =>
    if c = quote then
      match readQuoted quote rest with
      | some (value, after) => some ('\\' :: quote :: value, after)
      | none => some (['\\'], rest)
    else (readQuoted quote (c :: rest)).map fun r => ('\\' :: r.1, r.2)
  | c :: rest =>
    if c = quote then some ([], rest) else (readQuoted quote rest).map fun r => (c :: r.1, r.2)

/-- The character that a letter behind a backslash stands for between single quotes. -/
def singleEscape? : Char → Option Char
  | '\\' => some '\\'
  | '\'' => some '\''
  | _ => none

/-- The character that a letter behind a backslash stands for between double quotes. -/
def doubleEscape? : Char → Option Char
  | '\\' => some '\\'
  | '\'' => some '\''
  | '"' => some '"'
  | 'a' => some '\x07'
  | 'b' => some '\x08'
  | 'f' => some '\x0c'
  | 'n' => some '\n'
  | 'r' => some '\r'
  | 't' => some '\t'
  | 'v' => some '\x0b'
  | _ => none

/-- Replaces escapes. -/
def unescape (escape? : Char → Option Char) : List Char → List Char
  | '\\' :: c :: rest =>
    match escape? c with
    | some d => d :: unescape escape? rest
    | none => '\\' :: unescape escape? (c :: rest)
  | c :: rest => c :: unescape escape? rest
  | [] => []

/-- The characters before blanks and a number sign. -/
def beforeComment : List Char → List Char
  | [] => []
  | c :: rest =>
    if Text.isBlank c && (rest.dropWhile Text.isBlank).head? == some '#' then []
    else c :: beforeComment rest

/-- The text without blanks at its end. -/
def trimEnd (cs : List Char) : List Char := (cs.reverse.dropWhile Text.isBlank).reverse

/-- Reads the value behind an equals sign; the error is the text behind which reading stopped. -/
def readContent : List Char → Except (List Char) (List Char × List Char)
  | '\'' :: rest =>
    match readQuoted '\'' rest with
    | some r => .ok (unescape singleEscape? r.1, r.2)
    | none => .error ('\'' :: rest)
  | '"' :: rest =>
    match readQuoted '"' rest with
    | some r => .ok (unescape doubleEscape? r.1, r.2)
    | none => .error ('"' :: rest)
  | cs =>
    .ok (trimEnd (beforeComment (cs.takeWhile fun c => !isLineEnd c)),
      cs.dropWhile fun c => !isLineEnd c)

/-- Reads an equals sign and a value, if there are any. -/
def readValue : List Char → Except (List Char) (Option (List Char) × List Char)
  | '=' :: rest => (readContent (rest.dropWhile isInlineBlank)).map fun r => (some r.1, r.2)
  | cs => .ok (none, cs)

/-- What follows a comment, if there is one. -/
def afterComment (cs : List Char) : List Char :=
  match cs.dropWhile isInlineBlank with
  | '#' :: rest => rest.dropWhile fun c => !isLineEnd c
  | _ => cs

/-- What follows the end of a line. -/
def afterLineEnd (cs : List Char) : Except (List Char) (List Char) :=
  match cs.dropWhile isInlineBlank with
  | [] => .ok []
  | '\r' :: '\n' :: rest => .ok rest
  | c :: rest => if isLineEnd c then .ok rest else .error cs

/-- A name and its value, if it has one. -/
abbrev Binding := List Char × Option (List Char)

/-- Reads a binding, if there is one before the end of the line. -/
def readBinding (cs : List Char) : Except (List Char) (Option Binding × List Char) := do
  let name ← readName (afterExport cs)
  let value ← readValue (name.2.dropWhile isInlineBlank)
  let rest ← afterLineEnd (afterComment value.2)
  return (name.1.map fun n => (n, value.1), rest)

/-- What follows the line in which reading stopped. -/
def afterLine (cs : List Char) : List Char := (cs.dropWhile fun c => !isLineEnd c).drop 1

/-- Reads bindings; each takes at least one of `fuel` characters. -/
def readBindings : Nat → List Char → List Binding
  | 0, _ => []
  | fuel + 1, cs =>
    match cs.dropWhile Text.isBlank with
    | [] => []
    | c :: rest =>
      match readBinding (c :: rest) with
      | .ok (some b, after) => b :: readBindings fuel after
      | .ok (none, after) => readBindings fuel after
      | .error after => readBindings fuel (afterLine after)

/-- Variables with their values; a name may stand alone. -/
abbrev Table := List (String × Option String)

/-- Replaces the variable of a name in its place, or appends it. -/
def setVariable (t : Table) (name : String) (value : Option String) : Table :=
  if t.any (fun v => v.1 == name) then t.map fun v => if v.1 == name then (name, value) else v
  else t ++ [(name, value)]

/-- Reads what stands behind a dollar sign and an opening brace: name, default and the text behind
the closing brace. -/
def readReference? (cs : List Char) :
    Option (List Char × Option (List Char) × List Char) :=
  let inName := fun c => c != '}' && c != ':'
  let name := cs.takeWhile inName
  match cs.dropWhile inName with
  | '}' :: after => some (name, none, after)
  | ':' :: '-' :: rest =>
    match rest.dropWhile (· != '}') with
    | _ :: after => some (name, some (rest.takeWhile (· != '}')), after)
    | [] => none
  | _ => none

/-- The value that a reference stands for: that of a variable bound before, or else outside, or
else the default. -/
def refer (outside : List (String × String)) (t : Table) (name : String)
    (default : Option (List Char)) : List Char :=
  match t.find? fun v => v.1 == name with
  | some v => (v.2.getD "").toList
  | none =>
    match outside.find? fun v => v.1 == name with
    | some v => v.2.toList
    | none => default.getD []

/-- Replaces references; each takes at least one of `fuel` characters. -/
def expand (outside : List (String × String)) (t : Table) : Nat → List Char → List Char
  | 0, cs => cs
  | _, [] => []
  | fuel + 1, '$' :: '{' :: rest =>
    match readReference? rest with
    | some (name, default, after) =>
      refer outside t (String.ofList name) default ++ expand outside t fuel after
    | none => '$' :: expand outside t fuel ('{' :: rest)
  | fuel + 1, c :: rest => c :: expand outside t fuel rest

/-- Adds bindings in order, with their references replaced. -/
def bindAll (outside : List (String × String)) : Table → List Binding → Table
  | t, [] => t
  | t, (name, value) :: rest =>
    let value := value.map fun v => String.ofList (expand outside t (v.length + 1) v)
    bindAll outside (setVariable t (String.ofList name) value) rest

/-- The variables of a file, given those that are bound outside. -/
def readFile (outside : List (String × String)) (cs : List Char) : Table :=
  bindAll outside [] (readBindings (cs.length + 1) cs)

end BlockArchive.Variable
