import BlockArchive.Command.Options
import BlockArchive.Text.Quoted

/-!
# Arguments of a replay

The replay of a fixture is asked for by the fixture's path and options, which may be shortened as
long as they stay unambiguous. What does not fit is complained about.

* `Replay.Arguments` is what is asked for, `Replay.Arguments.ofWords` reads it;
* `Replay.Complaint` is what can be wrong with the words.
-/

namespace BlockArchive.Replay

/-- An option of the replay. -/
inductive Choice where
  /-- Help. -/
  | help
  /-- The directory of data. -/
  | dataDirectory
  /-- The path of the database. -/
  | database
  /-- The address of coinbase inputs. -/
  | policy
  /-- The least level that is logged. -/
  | level
deriving DecidableEq, Repr

namespace Choice

/-- The names of the options, in the order in which they are told. -/
def names : List (String × Choice) :=
  [("-h", .help), ("--help", .help), ("--data-dir", .dataDirectory), ("--db", .database),
    ("--coinbase-address", .policy), ("--log-level", .level)]

/-- The option of exactly this name. -/
def ofName? (name : String) : Option Choice := (names.find? fun n => n.1 == name).map (·.2)

/-- The name of an option in a complaint. -/
def title (c : Choice) : String := "/".intercalate ((names.filter fun n => n.2 == c).map (·.1))

/-- The values that an option may have, if they are listed. -/
def values? : Choice → Option (List String)
  | .policy => some ["sentinel", "empty"]
  | .level => some ["DEBUG", "INFO", "WARNING", "ERROR"]
  | _ => none

end Choice

/-- What is wrong with the words of a command line. -/
inductive Complaint where
  /-- A shortened option could be any of several. -/
  | ambiguous (given : String) (names : List String)
  /-- An option has no value. -/
  | noValue (option : Choice)
  /-- An option takes no value. -/
  | unwanted (option : Choice) (value : String)
  /-- The value of an option is none of those listed. -/
  | notListed (option : Choice) (value : String) (values : List String)
  /-- The fixture is missing. -/
  | noFixture
  /-- Words are left over. -/
  | leftOver (words : List String)
deriving DecidableEq, Repr

/-- The wording of a complaint. -/
def Complaint.message : Complaint → String
  | .ambiguous given names =>
    "ambiguous option: " ++ given ++ " could match " ++ ", ".intercalate names
  | .noValue option => "argument " ++ option.title ++ ": expected one argument"
  | .unwanted option value =>
    "argument " ++ option.title ++ ": ignored explicit argument " ++ Text.quoted value
  | .notListed option value values =>
    "argument " ++ option.title ++ ": invalid choice: " ++ Text.quoted value ++ " (choose from " ++
      ", ".intercalate (values.map Text.quoted) ++ ")"
  | .noFixture => "the following arguments are required: fixture"
  | .leftOver words => "unrecognized arguments: " ++ " ".intercalate words

/-! ### Words -/

/-- What a word is. -/
inductive Word where
  /-- An operand, or the value of an option. -/
  | operand (text : String)
  /-- The two dashes behind which all are operands. -/
  | dashes
  /-- An option, with a value in the same word if there is one. -/
  | option (choice : Choice) (value : Option String)
  /-- A word that looks like an option and is none. -/
  | unknown (text : String)

/-- A negative number, which counts as an operand. -/
def isNegativeNumber (word : String) : Bool :=
  match word.toList with
  | '-' :: rest =>
    match rest.dropWhile Char.isDigit with
    | [] => !rest.isEmpty
    | '.' :: places => !places.isEmpty && places.all Char.isDigit
    | _ => false
  | _ => false

/-- The value behind the short option for help: letters that ask for it again are of no account, and
nor are others, since help is given before they are looked at. -/
def helpValue (rest : List Char) : Option String :=
  match rest.dropWhile (· == 'h') with
  | '=' :: value => some (String.ofList value)
  | '-' :: more => some (String.ofList ('-' :: more))
  | _ => none

/-- The options that a word can stand for by their beginnings, with its value; one dash and a
letter may be followed by more letters. -/
def candidates (word : String) : List (String × Choice × Option String) :=
  if word.startsWith "--" then
    let parts := Options.splitValue word
    (Choice.names.filter fun n => n.1.startsWith parts.1).map fun n => (n.1, n.2, parts.2)
  else
    let letters := word.toList
    Choice.names.filterMap fun n =>
      if n.1.toList == letters.take 2 then some (n.1, n.2, helpValue (letters.drop 2))
      else if n.1.startsWith word then some (n.1, n.2, none)
      else none

/-- What a word is that starts with a dash and is more than that. -/
def classifyDashed (word : String) : Except Complaint Word :=
  let parts := Options.splitValue word
  match Choice.ofName? word, Choice.ofName? parts.1, candidates word with
  | some c, _, _ => .ok (.option c none)
  | none, some c, _ => .ok (.option c parts.2)
  | none, none, [found] => .ok (.option found.2.1 found.2.2)
  | none, none, [] =>
    .ok (if isNegativeNumber word || word.toList.contains ' ' then .operand word else .unknown word)
  | none, none, found => .error (.ambiguous word (found.map (·.1)))

/-- What words are. -/
def classify : List String → Except Complaint (List Word)
  | [] => .ok []
  | word :: rest =>
    if word = "--" then .ok (.dashes :: rest.map .operand)
    else do
      let first ← if word.startsWith "-" && word != "-" then classifyDashed word
        else .ok (.operand word)
      return first :: (← classify rest)

/-! ### Arguments -/

/-- What is asked for. -/
structure Arguments where
  /-- The path of the fixture. -/
  fixture : Option String := none
  /-- The directory of data. -/
  dataDirectory : Option String := none
  /-- The path of the database. -/
  database : Option String := none
  /-- The address of coinbase inputs. -/
  policy : Option String := none
  /-- The least level that is logged. -/
  level : Option String := none
  /-- Help is asked for. -/
  help : Bool := false
deriving DecidableEq, Repr

namespace Arguments

/-- The arguments with the value of an option. -/
def set (a : Arguments) : Choice → String → Arguments
  | .help, _ => { a with help := true }
  | .dataDirectory, v => { a with dataDirectory := some v }
  | .database, v => { a with database := some v }
  | .policy, v => { a with policy := some v }
  | .level, v => { a with level := some v }

/-- The arguments with the value of an option, which must be one of those listed. -/
def setListed (a : Arguments) (c : Choice) (value : String) : Except Complaint Arguments :=
  match c.values? with
  | some values =>
    if values.contains value then .ok (a.set c value) else .error (.notListed c value values)
  | none => .ok (a.set c value)

/-- The words that are left over at the end. -/
def finish (a : Arguments) (leftOver : List String) : Except Complaint Arguments :=
  if a.fixture.isNone then .error .noFixture
  else if leftOver.isEmpty then .ok a
  else .error (.leftOver leftOver)

/-- Works through words; asking for help ends it. -/
def consume (a : Arguments) (leftOver : List String) : List Word → Except Complaint Arguments
  | [] => a.finish leftOver
  | .operand s :: .dashes :: rest =>
    if a.fixture.isNone then consume { a with fixture := some s } leftOver rest
    else consume a (leftOver ++ [s, "--"]) rest
  | .operand s :: rest =>
    if a.fixture.isNone then consume { a with fixture := some s } leftOver rest
    else consume a (leftOver ++ [s]) rest
  | .dashes :: .operand s :: rest =>
    if a.fixture.isNone then consume { a with fixture := some s } leftOver rest
    else consume a (leftOver ++ ["--", s]) rest
  | .dashes :: rest => consume a (leftOver ++ ["--"]) rest
  | .unknown s :: rest => consume a (leftOver ++ [s]) rest
  | .option .help (some value) :: _ => .error (.unwanted .help value)
  | .option .help none :: _ => .ok { a with help := true }
  | .option c (some value) :: rest => do consume (← a.setListed c value) leftOver rest
  | .option c none :: .operand value :: rest => do consume (← a.setListed c value) leftOver rest
  | .option c none :: _ => .error (.noValue c)

/-- The arguments of a command line. -/
def ofWords (words : List String) : Except Complaint Arguments := do
  consume {} [] (← classify words)

end Arguments

end BlockArchive.Replay
