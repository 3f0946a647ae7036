import BlockArchive.Coin
import BlockArchive.Log.Level

/-!
# Refused settings

A value given for a setting is refused if it is of another type, stands for no value of the type,
lies outside its bounds or is none of a choice.

* `Refusal` is the cause, `Rejection` names the setting as well;
* `Refusal.sort` and `Refusal.message` are its short name and its wording.
-/

namespace BlockArchive

/-- Why a value is refused for a setting. -/
inductive Refusal where
  /-- A text is asked for. -/
  | notText
  /-- A path is asked for. -/
  | notPath
  /-- A truth value is asked for. -/
  | notTruth
  /-- The value stands for no truth value. -/
  | unclearTruth
  /-- A whole number is asked for. -/
  | notWhole
  /-- The text is no whole number. -/
  | unclearWhole
  /-- The text has too many digits. -/
  | longWhole
  /-- The number has a fraction. -/
  | fractional
  /-- The number is infinite or none. -/
  | notFinite
  /-- A number is asked for. -/
  | notNumber
  /-- The text is no number. -/
  | unclearNumber
  /-- The number is not above a limit. -/
  | notAbove (limit : Int)
  /-- The number lies above a limit. -/
  | tooGreat (limit : Int)
  /-- The number lies below a limit. -/
  | tooSmall (limit : Int)
  /-- No coin has this name. -/
  | unknownCoin (given : String)
  /-- No level has this name. -/
  | unknownLevel (given : String)
  /-- No format has this name. -/
  | unknownFormat (given : String)
  /-- No policy has this name. -/
  | unknownPolicy (given : String)
deriving DecidableEq, Repr

namespace Refusal

/-- The short name of a refusal. -/
def sort : Refusal → String
  | .notText => "string_type"
  | .notPath => "path_type"
  | .notTruth => "bool_type"
  | .unclearTruth => "bool_parsing"
  | .notWhole => "int_type"
  | .unclearWhole => "int_parsing"
  | .longWhole => "int_parsing_size"
  | .fractional => "int_from_float"
  | .notFinite => "finite_number"
  | .notNumber => "float_type"
  | .unclearNumber => "float_parsing"
  | .notAbove _ => "greater_than"
  | .tooGreat _ => "less_than_equal"
  | .tooSmall _ => "greater_than_equal"
  | .unknownCoin _ | .unknownLevel _ | .unknownFormat _ | .unknownPolicy _ => "value_error"

/-- The wording of a refusal. -/
def message : Refusal → String
  | .notText => "Input should be a valid string"
  | .notPath => "Input is not a valid path for <class 'pathlib.Path'>"
  | .notTruth => "Input should be a valid boolean"
  | .unclearTruth => "Input should be a valid boolean, unable to interpret input"
  | .notWhole => "Input should be a valid integer"
  | .unclearWhole => "Input should be a valid integer, unable to parse string as an integer"
  | .longWhole => "Unable to parse input string as an integer, exceeded maximum size"
  | .fractional => "Input should be a valid integer, got a number with a fractional part"
  | .notFinite => "Input should be a finite number"
  | .notNumber => "Input should be a valid number"
  | .unclearNumber => "Input should be a valid number, unable to parse string as a number"
  | .notAbove limit => "Input should be greater than " ++ Text.ofInt limit
  | .tooGreat limit => "Input should be less than or equal to " ++ Text.ofInt limit
  | .tooSmall limit => "Input should be greater than or equal to " ++ Text.ofInt limit
  | .unknownCoin given => "Value error, " ++ Coin.unknownText given
  | .unknownLevel given =>
    "Value error, Invalid log_level: " ++ given ++ ". Must be one of " ++
      Text.quotedList (Level.all.map Level.name)
  | .unknownFormat given =>
    "Value error, Invalid log_format: " ++ given ++ ". Must be json or text"
  | .unknownPolicy given =>
    "Value error, Invalid coinbase_address: " ++ given ++ ". Must be one of " ++
      Text.quotedList (CoinbasePolicy.all.map CoinbasePolicy.name)

end Refusal

/-- A setting whose value is refused. -/
structure Rejection where
  /-- The name of the setting. -/
  field : String
  /-- Why its value is refused. -/
  refusal : Refusal
deriving DecidableEq, Repr

end BlockArchive
