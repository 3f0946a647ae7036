/-!
# Letter case

Names of coins, log levels and formats are compared without regard to case. The names
themselves are ASCII, so only those characters matter whose other case is ASCII: the ASCII
letters, and the few characters beyond ASCII that fold into them.

* `Text.lower` and `Text.upper` change the case of a text.
-/

namespace BlockArchive.Text

/-- The lower case of a character; beyond ASCII only the Kelvin sign has an ASCII one. -/
def lowerChar (c : Char) : Char := if c.toNat == 0x212a then 'k' else c.toLower

/-- The text in lower case. -/
def lower (s : String) : String := String.ofList (s.toList.map lowerChar)

/-- The upper case of a character, which is several characters for ligatures and the sharp s. -/
def upperChar (c : Char) : List Char :=
  match c.toNat with
  | 0xdf => ['S', 'S']
  | 0x131 => ['I']
  | 0x17f => ['S']
  | 0xfb00 => ['F', 'F']
  | 0xfb01 => ['F', 'I']
  | 0xfb02 => ['F', 'L']
  | 0xfb03 => ['F', 'F', 'I']
  | 0xfb04 => ['F', 'F', 'L']
  | 0xfb05 => ['S', 'T']
  | 0xfb06 => ['S', 'T']
  | _ => [c.toUpper]

/-- The text in upper case. -/
def upper (s : String) : String := String.ofList (s.toList.flatMap upperChar)

end BlockArchive.Text
