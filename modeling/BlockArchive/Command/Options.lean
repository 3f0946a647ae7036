/-!
# Options of a command

The words behind a command are options, which start with a dash, and operands. A long option may
carry its value behind an equals sign, short ones may share a word; two dashes end the options.
Words that do not fit are refused.

* `Options.read` tells options and operands apart.
-/

namespace BlockArchive

/-- An option that a command knows. -/
structure OptionForm where
  /-- Its names with their dashes. -/
  names : List String
  /-- A value follows. -/
  hasValue : Bool

/-- The options and operands of a command, in order. -/
structure Options where
  /-- The options under the first of their names, with their values. -/
  options : List (String × Option String)
  /-- The operands. -/
  operands : List String

namespace Options

/-- The form of an option's name. -/
def form? (known : List OptionForm) (name : String) : Option OptionForm :=
  known.find? fun f => f.names.contains name

/-- The first name of a form. -/
def firstName (f : OptionForm) : String := f.names.headD ""

/-- A word split at its first equals sign. -/
def splitValue (word : String) : String × Option String :=
  let cs := word.toList
  match cs.dropWhile (· != '=') with
  | _ :: value => (String.ofList (cs.takeWhile (· != '=')), some (String.ofList value))
  | [] => (word, none)

/-- The options of a word of short ones, and whether the last of them takes the next word as its
value. -/
def readShort (known : List OptionForm) : List Char →
    Option (List (String × Option String) × Option String)
  | [] => some ([], none)
  | c :: rest =>
    match form? known (String.ofList ['-', c]) with
    | none => none
    | some f =>
      if f.hasValue then
        if rest.isEmpty then some ([], some (firstName f))
        else some ([(firstName f, some (String.ofList rest))], none)
      else (readShort known rest).map fun r => ((firstName f, none) :: r.1, r.2)

/-- The options of a word that starts with a dash, and the option that takes the next word as its
value, if one does. -/
def readWord (known : List OptionForm) (word : String) :
    Option (List (String × Option String) × Option String) :=
  let parts := splitValue word
  match form? known parts.1, parts.2 with
  | some f, none => if f.hasValue then some ([], some (firstName f))
      else some ([(firstName f, none)], none)
  | some f, some value => if f.hasValue then some ([(firstName f, some value)], none) else none
  | none, _ => if word.startsWith "--" then none else readShort known (word.toList.drop 1)

/-- Adds options before others. -/
def prepend (found : List (String × Option String)) (o : Options) : Options :=
  { o with options := found ++ o.options }

/-- Reads words; if `mixed` does not hold, the first operand ends the options. -/
def read (known : List OptionForm) (mixed : Bool) : List String → Option Options
  | [] => some ⟨[], []⟩
  | word :: rest =>
    if word = "--" then some ⟨[], rest⟩
    else if word.startsWith "-" && word != "-" then
      match readWord known word with
      | none => none
      | some (found, none) => (read known mixed rest).map (prepend found)
      | some (found, some name) =>
        match rest with
        | [] => none
        | value :: rest =>
          (read known mixed rest).map (prepend (found ++ [(name, some value)]))
    else if mixed then
      (read known mixed rest).map fun o => { o with operands := word :: o.operands }
    else some ⟨[], word :: rest⟩

/-- The option was given. -/
def has (o : Options) (name : String) : Bool := o.options.any fun p => p.1 == name

/-- The value last given for an option. -/
def value? (o : Options) (name : String) : Option String :=
  (o.options.reverse.find? fun p => p.1 == name).bind (·.2)

end Options

end BlockArchive
