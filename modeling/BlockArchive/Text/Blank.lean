/-!
# Blank characters

Four sets of blanks are in use, and they differ.

* `Text.isSpace`: the characters with Unicode's property of white space, which are stripped from
  numbers among the settings;
* `Text.isBlank`: these and the four ASCII separators, which are stripped from a coin's name;
* `Text.isAsciiBlank`: the six ASCII blanks, which may stand between the bytes of a hex text;
* `Text.isJsonBlank`: the four that may stand between the tokens of a JSON text.

`Text.strip` takes the characters of a set off both ends.
-/

namespace BlockArchive.Text

/-- Space, tab, line feed, vertical tab, form feed and carriage return. -/
def isAsciiBlank (c : Char) : Bool :=
  c == ' ' || (9 ≤ c.toNat && c.toNat ≤ 13)

/-- Space, tab, line feed and carriage return. -/
def isJsonBlank (c : Char) : Bool :=
  c == ' ' || c == '\t' || c == '\n' || c == '\r'

/-- The white space of all scripts: the ASCII blanks, and the Unicode spaces and line ends. -/
def isSpace (c : Char) : Bool :=
  isAsciiBlank c || c.toNat == 0x85 || c.toNat == 0xa0 || c.toNat == 0x1680 ||
    (0x2000 ≤ c.toNat && c.toNat ≤ 0x200a) || c.toNat == 0x2028 || c.toNat == 0x2029 ||
    c.toNat == 0x202f || c.toNat == 0x205f || c.toNat == 0x3000

/-- White space and the four ASCII separators. -/
def isBlank (c : Char) : Bool := isSpace c || (0x1c ≤ c.toNat && c.toNat ≤ 0x1f)

/-- The text without the characters of a set at its two ends. -/
def strip (p : Char → Bool) (cs : List Char) : List Char :=
  ((cs.dropWhile p).reverse.dropWhile p).reverse

end BlockArchive.Text
