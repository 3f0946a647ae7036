import BlockArchive.Act
import BlockArchive.Json.Printer

/-!
# Documents as text

Records are stored as JSON texts on a single line. A text that cannot be read back is reported.

* `Document.write` gives the text of a document, `Document.read` reads one;
* `Document.serialize` writes any value in any layout, `Document.deserialize` reads it. There is
  room for so many lists and objects inside each other. The documents of records are not as deep
  as that: `Document.write` and `Document.read` have room for all.
-/

namespace BlockArchive.Document

variable {σ : Type}

/-- The outcome of reading a text; that it is not JSON is reported before the fault is passed on. -/
def reported : Except Json.Trouble Value → Act σ Value
  | .ok v => pure v
  | .error trouble => do
    match trouble with
    | .syntaxAt .. => Act.log ⟨.error, some "utils.serialization",
        "Deserialization failed: " ++ trouble.message, []⟩
    | .longInteger _ | .deep _ => pure ()
    Act.stop (.json trouble)

/-- Reads the text of a document. -/
def read (text : String) : Act σ Value := reported (Json.parse text)

/-- Reads a text with room for `room` lists and objects inside each other. -/
def deserialize (room : Nat) (text : String) : Act σ Value :=
  reported (Json.parseWithin room text.toList)

/-- The text of a document. -/
def write (v : Value) : Except Fault String :=
  if hasLongInteger v then .error .longInteger else .ok (Json.render Json.stored v)

/-! ### Values in any layout -/

/-- The indentation is no more than a text can have characters. -/
def indents : Option Nat → Bool
  | none => true
  | some n => n < 0x8000000000000000

/-- What was being done when there was no more room. -/
def doing : Option Nat → String
  | none => "while encoding a JSON object"
  | some _ => "while calling a Python object"

mutual

/-- Goes through a value in the order in which it is written. A list or an object needs room, and
so does what stands for a value that JSON does not know. -/
def walk (doing : String) : Nat → Value → Except Fault Unit
  | _, .int n => if isTooLong n then .error .longInteger else .ok ()
  | _, .null | _, .bool _ | _, .real _ | _, .string _ | _, .torn _ => .ok ()
  | 0, _ => .error (.recursion doing)
  | room + 1, .list xs | room + 1, .frozen xs => walkAll doing room xs
  | room + 1, .mapping fields => walkFields doing room fields
  | room + 1, .object _ _ (some document) => walk doing room document
  | _ + 1, v => if hasLongInteger v then .error .longInteger else .ok ()

/-- Goes through the items of a list. -/
def walkAll (doing : String) (room : Nat) : List Value → Except Fault Unit
  | [] => .ok ()
  | x :: xs => do
    walk doing room x
    walkAll doing room xs

/-- Goes through the values of fields. -/
def walkFields (doing : String) (room : Nat) : List (String × Value) → Except Fault Unit
  | [] => .ok ()
  | (_, v) :: rest => do
    walk doing room v
    walkFields doing room rest

end

/-- Whether a value by itself is a text, which is written whatever the layout. -/
def isText : Value → Bool
  | .string _ | .torn _ => true
  | _ => false

/-- The text of a value with an indentation or on a single line, with room for `room` lists and
objects inside each other. -/
def serialize (room : Nat) (indent : Option Nat) (v : Value) : Except Fault String := do
  if !isText v && !indents indent then
    .error (.outOfRange "cannot fit 'int' into an index-sized integer")
  walk (doing indent) room v
  return Json.render ⟨indent, true⟩ v

end BlockArchive.Document
