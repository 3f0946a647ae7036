import BlockArchive.Number.Significant
import BlockArchive.Value.Reading

/-!
# Message templates

A message can be a template: a percent sign, optional flags, width and precision, and a letter
stand for an argument, and two percent signs for one. Width and precision are numbers or stars,
which stand for arguments too. Arguments are taken in order, or by a name in brackets where there
is a single argument with named fields. All arguments must be used.

* `Template.fill` puts arguments into a template.
-/

namespace BlockArchive.Template

/-- How an argument is written. -/
structure Layout where
  /-- Blanks follow the argument instead of standing before it. -/
  left : Bool := false
  /-- A plus sign stands before a number that is not negative. -/
  plus : Bool := false
  /-- A blank stands before a number that is not negative. -/
  blank : Bool := false
  /-- The base of a number is marked, and points and zeros of a double are kept. -/
  marked : Bool := false
  /-- Zeros fill the width of a number. -/
  zeros : Bool := false
  /-- The least number of characters. -/
  width : Nat := 0
  /-- The number of characters, digits or places. -/
  precision : Option Nat := none

/-- The arguments not yet used, and the named fields if there are any. -/
structure Arguments where
  /-- The arguments not yet used. -/
  queue : List Value
  /-- The named fields. -/
  names : Option (List (String × Value))

/-- The arguments of a message: a single one with named fields can be asked by name. -/
def Arguments.ofList : List Value → Arguments
  | [.mapping (f :: fields)] => ⟨[.mapping (f :: fields)], some (f :: fields)⟩
  | args => ⟨args, none⟩

/-- The next argument. -/
def Arguments.next (a : Arguments) : Except Fault (Value × Arguments) :=
  match a.queue with
  | [] => .error (.badTemplate "not enough arguments for format string")
  | v :: rest => .ok (v, { a with queue := rest })

/-- The arguments when only the field of a name is left. -/
def Arguments.select (a : Arguments) (name : String) : Except Fault Arguments :=
  match a.names with
  | none => .error (.badTemplate "format requires a mapping")
  | some fields =>
    match Value.lookup? name fields with
    | some v => .ok { a with queue := [v] }
    | none => .error (.missingField name)

/-- What stands before and behind a text to fill its width. A number is split into what stands
before the zeros and the rest. -/
def Layout.fit (l : Layout) (isNumber : Bool) (head body : List Char) : List Char :=
  let missing := l.width - (head.length + body.length)
  if l.left then head ++ body ++ List.replicate missing ' '
  else if l.zeros && isNumber then head ++ List.replicate missing '0' ++ body
  else List.replicate missing ' ' ++ head ++ body

/-- The sign of a number. -/
def Layout.sign (l : Layout) (negative : Bool) : List Char :=
  if negative then ['-'] else if l.plus then ['+'] else if l.blank then [' '] else []

/-- A text, cut to the precision. -/
def Layout.text (l : Layout) (cs : List Char) : List Char :=
  l.fit false [] (match l.precision with
    | some n => cs.take n
    | none => cs)

/-- A text in which all beyond ASCII is escaped. -/
def asciiChar (c : Char) : List Char :=
  if c.toNat < 0x80 then [c]
  else if c.toNat < 0x100 then '\\' :: 'x' :: Text.hexDigits 2 c.toNat
  else if c.toNat < 0x10000 then '\\' :: 'u' :: Text.hexDigits 4 c.toNat
  else '\\' :: 'U' :: Text.hexDigits 8 c.toNat

/-- A whole number in a base, with the mark of the base. -/
def Layout.whole (l : Layout) (base : Nat) (mark : String) (n : Int) : List Char :=
  let digits := Nat.toDigits base n.natAbs
  let digits := List.replicate (l.precision.getD 0 - digits.length) '0' ++ digits
  l.fit true (l.sign (n < 0) ++ (if l.marked then mark.toList else [])) digits

/-- A double written by one of three rules. -/
def Layout.real (l : Layout) (write : Bool → Nat → Nat → Int → List Char) (x : Binary64) :
    List Char :=
  match x.decode with
  | .nan => l.fit true (l.sign false) ['n', 'a', 'n']
  | .infinite s => l.fit true (l.sign s) ['i', 'n', 'f']
  | .finite s m e => l.fit true (l.sign s) (write l.marked (l.precision.getD 6) m e)

/-- The rule of a letter that asks for a double. -/
def realRule? : Char → Option (Bool → Nat → Nat → Int → List Char)
  | 'e' | 'E' => some Binary64.exponential
  | 'f' | 'F' => some Binary64.placed
  | 'g' | 'G' => some Binary64.compact
  | _ => none

/-- The base of a letter that asks for a whole number, and its mark. -/
def base? : Char → Option (Nat × String)
  | 'o' => some (8, "0o")
  | 'x' | 'X' => some (16, "0x")
  | _ => none

/-- A whole number or a truth value as a number. -/
def wholeOf? : Value → Option Int
  | .int n => some n
  | .bool b => some (if b then 1 else 0)
  | _ => none

/-- An argument as a double. -/
def realOf (v : Value) : Except Fault Binary64 :=
  match v, wholeOf? v with
  | .real x, _ => .ok x
  | _, some n =>
    let x := Binary64.ofInt n
    if x.truncate?.isSome then .ok x else .error (.outOfRange "int too large to convert to float")
  | _, none => .error (.badTemplate ("must be real number, not " ++ v.typeName))

/-- An argument as a whole number, which drops the fraction of a double. -/
def decimalOf (letter : Char) (v : Value) : Except Fault Int :=
  match v with
  | .int _ | .bool _ | .real _ => v.toInteger
  | w => .error (.badTemplate ("%" ++ String.ofList [letter] ++
      " format: a real number is required, not " ++ w.typeName))

/-- An argument as a character. -/
def charOf (v : Value) : Except Fault (List Char) :=
  let wrong : Fault := .badTemplate "%c requires int or char"
  match v, wholeOf? v with
  | .string s, _ => if s.length = 1 then .ok s.toList else .error wrong
  | _, some n =>
    if 0 ≤ n ∧ n < 0x110000 then .ok [Char.ofNat n.toNat]
    else .error (.outOfRange "%c arg not in range(0x110000)")
  | _, none => .error wrong

/-- Capital letters for a capital letter. -/
def caseOf (letter : Char) (cs : List Char) : List Char :=
  if letter.isUpper then cs.map Char.toUpper else cs

/-- An argument written as its letter says; `position` is where the letter stands. -/
def write (l : Layout) (letter : Char) (position : Nat) (v : Value) : Except Fault (List Char) :=
  match letter with
  | 's' => do return l.text (← v.shown).toList
  | 'r' => do return l.text (← v.displayed).toList
  | 'a' => do return l.text ((← v.displayed).toList.flatMap asciiChar)
  | 'c' => do return l.fit false [] (← charOf v)
  | 'd' | 'i' | 'u' => do
    let n ← decimalOf letter v
    if Document.isTooLong n then .error .longInteger else .ok (l.whole 10 "" n)
  | _ =>
    match base? letter, realRule? letter with
    | some b, _ =>
      match wholeOf? v with
      | some n => .ok (caseOf letter (l.whole b.1 b.2 n))
      | none => .error (.badTemplate ("%" ++ String.ofList [letter] ++
          " format: an integer is required, not " ++ v.typeName))
    | none, some rule => do return caseOf letter (l.real rule (← realOf v))
    | none, none =>
      let shown := if 31 ≤ letter.toNat ∧ letter.toNat ≤ 126 then letter else '?'
      .error (.value ("unsupported format character '" ++ String.ofList [shown] ++ "' (0x" ++
        String.ofList (Nat.toDigits 16 letter.toNat) ++ ") at index " ++ Text.ofInt position))

/-- Reads flags. -/
def readFlags : Layout → List Char → Layout × List Char
  | l, '-' :: rest => readFlags { l with left := true } rest
  | l, '+' :: rest => readFlags { l with plus := true } rest
  | l, ' ' :: rest => readFlags { l with blank := true } rest
  | l, '#' :: rest => readFlags { l with marked := true } rest
  | l, '0' :: rest => readFlags { l with zeros := true } rest
  | l, cs => (l, cs)

/-- Sizes stay below this number. -/
def sizeLimit : Nat := 0x8000000000000000

/-- Reads a size: a number, nothing for zero, or a star for the next argument. -/
def readSize (a : Arguments) : List Char → Except Fault (Int × Arguments × List Char)
  | '*' :: rest => do
    let next ← a.next
    match wholeOf? next.1 with
    | some n =>
      if n.natAbs < sizeLimit then return (n, next.2, rest)
      else .error (.outOfRange "Python int too large to convert to C ssize_t")
    | none => .error (.badTemplate "* wants int")
  | cs => .ok (Number.natOf (cs.takeWhile Char.isDigit), a, cs.dropWhile Char.isDigit)

/-- The layout with a width; below zero it counts from the left. -/
def Layout.withWidth (l : Layout) (width : Int) : Layout :=
  { l with width := width.natAbs, left := l.left || width < 0 }

/-- Reads width and precision. -/
def readSizes (l : Layout) (a : Arguments) (cs : List Char) :
    Except Fault (Layout × Arguments × List Char) := do
  let width ← readSize a cs
  let l := l.withWidth width.1
  match width.2.2 with
  | '.' :: rest => do
    let precision ← readSize width.2.1 rest
    return ({ l with precision := some precision.1.toNat }, precision.2)
  | _ => return (l, width.2)

/-- Reads a name up to the bracket that closes it; `depth` brackets are open inside. -/
def readName : Nat → List Char → Option (List Char × List Char)
  | _, [] => none
  | 0, ')' :: rest => some ([], rest)
  | depth + 1, ')' :: rest => (readName depth rest).map fun r => (')' :: r.1, r.2)
  | depth, '(' :: rest => (readName (depth + 1) rest).map fun r => ('(' :: r.1, r.2)
  | depth, c :: rest => (readName depth rest).map fun r => (c :: r.1, r.2)

/-- The arguments after a name in brackets, if one stands here. -/
def readSelection (a : Arguments) : List Char → Except Fault (Arguments × List Char)
  | '(' :: rest =>
    if a.names.isNone then .error (.badTemplate "format requires a mapping")
    else match readName 0 rest with
      | none => .error (.value "incomplete format key")
      | some (name, after) => do return (← a.select (String.ofList name), after)
  | cs => .ok (a, cs)

/-- A letter for the size of a number, which is of no account. -/
def afterSize : List Char → List Char
  | 'h' :: rest | 'l' :: rest | 'L' :: rest => rest
  | cs => cs

/-- The rest of a template of `total` characters, filled; each step takes at least one of `fuel`
characters. -/
def fillFrom (total : Nat) : Nat → Arguments → List Char → Except Fault (List Char)
  | 0, _, _ => .ok []
  | _, a, [] =>
    if a.queue.isEmpty || a.names.isSome then .ok []
    else .error (.badTemplate "not all arguments converted during string formatting")
  | fuel + 1, a, '%' :: '%' :: rest => do return '%' :: (← fillFrom total fuel a rest)
  | fuel + 1, a, '%' :: rest => do
    let selected ← readSelection a rest
    let flags := readFlags {} selected.2
    let sizes ← readSizes flags.1 selected.1 flags.2
    match afterSize sizes.2.2 with
    | [] => .error (.value "incomplete format")
    | letter :: after => do
      let next ← sizes.2.1.next
      let written ← write sizes.1 letter (total - after.length - 1) next.1
      return written ++ (← fillFrom total fuel next.2 after)
  | fuel + 1, a, c :: rest => do return c :: (← fillFrom total fuel a rest)

/-- A template with its arguments put in; without arguments it is plain text. -/
def fill (template : String) (args : List Value) : Except Fault String :=
  if args.isEmpty then .ok template
  else do
    let cs := template.toList
    return String.ofList (← fillFrom cs.length (cs.length + 1) (.ofList args) cs)

end BlockArchive.Template
