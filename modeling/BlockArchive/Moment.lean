import BlockArchive.Number.Binary64
import BlockArchive.Text.Digit

/-!
# Moments

A calendar date with a time of day, to the microsecond, and possibly an offset from universal
time.

* `Moment.ofSeconds` is the moment of a count of seconds since 1970;
* `Moment.iso`, `Moment.stamp` and `Moment.literal` are its texts.
-/

namespace BlockArchive

/-- A date and time of day. -/
structure Moment where
  /-- The year. -/
  year : Nat
  /-- The month, from 1. -/
  month : Nat
  /-- The day of the month, from 1. -/
  day : Nat
  /-- The hour. -/
  hour : Nat
  /-- The minute. -/
  minute : Nat
  /-- The second. -/
  second : Nat
  /-- The microsecond. -/
  micro : Nat
  /-- The offset from universal time in minutes, if it is known. -/
  offset : Option Int
deriving DecidableEq, Repr

namespace Moment

/-- Year, month and day of a count of days since 1970, in the calendar's cycle of 400 years; the
years are counted from March. -/
def civil (days : Int) : Int × Nat × Nat :=
  let z := days + 719468
  let era := z.fdiv 146097
  let doe := (z - era * 146097).toNat
  let yoe := (doe - doe / 1460 + doe / 36524 - doe / 146096) / 365
  let doy := doe - (365 * yoe + yoe / 4 - yoe / 100)
  let mp := (5 * doy + 2) / 153
  let month := if mp < 10 then mp + 3 else mp - 9
  let year := (yoe : Int) + era * 400 + (if month ≤ 2 then 1 else 0)
  (year, month, doy - (153 * mp + 2) / 5 + 1)

/-- The moment of a count of microseconds since 1970. -/
def ofMicros (micros : Int) : Moment :=
  let seconds := micros.fdiv 1000000
  let days := seconds.fdiv 86400
  let rest := (seconds - days * 86400).toNat
  let date := civil days
  { year := date.1.toNat, month := date.2.1, day := date.2.2
    hour := rest / 3600, minute := rest / 60 % 60, second := rest % 60
    micro := (micros - seconds * 1000000).toNat, offset := none }

/-- Whole microseconds of a count of seconds: the fraction is scaled and rounded by itself, a half
going to the even one. -/
def microsOf (seconds : Binary64) : Int :=
  let whole := seconds.truncate?.getD 0
  let part := (seconds.fraction.mul (.ofInt 1000000)).roundWhole?.getD 0
  whole * 1000000 + part

/-- The moment of a count of seconds since 1970. -/
def ofSeconds (seconds : Binary64) : Moment := ofMicros (microsOf seconds)

/-- The year of a count of seconds since 1970. -/
def yearOf (seconds : Binary64) : Int :=
  (civil (((microsOf seconds).fdiv 1000000).fdiv 86400)).1

/-- The text of month and day, behind the year. -/
def dayText (t : Moment) : String :=
  String.ofList ('-' :: Text.padded 2 t.month ++ '-' :: Text.padded 2 t.day)

/-- The text of the date. -/
def dateText (t : Moment) : String := String.ofList (Text.padded 4 t.year) ++ t.dayText

/-- The text of the date with the year as a plain number. -/
def plainDateText (t : Moment) : String := Text.ofInt t.year ++ t.dayText

/-- The text of the time of day to the second. -/
def timeText (t : Moment) : String :=
  String.ofList (Text.padded 2 t.hour ++ ':' :: Text.padded 2 t.minute ++ ':' ::
    Text.padded 2 t.second)

/-- The microseconds as six digits. -/
def microText (t : Moment) : String := String.ofList (Text.padded 6 t.micro)

/-- An offset as sign, hours and minutes. -/
def offsetText (minutes : Int) : String :=
  String.ofList ((if minutes < 0 then '-' else '+') :: Text.padded 2 (minutes.natAbs / 60) ++
    ':' :: Text.padded 2 (minutes.natAbs % 60))

/-- Date and time joined by `sep`; microseconds only where there are some, the offset where it is
known. -/
def joined (sep : String) (t : Moment) : String :=
  t.dateText ++ sep ++ t.timeText ++ (if t.micro = 0 then "" else "." ++ t.microText) ++
    (t.offset.map offsetText).getD ""

/-- The ISO 8601 text. -/
def iso (t : Moment) : String := t.joined "T"

/-- The text with a blank between date and time. -/
def stamp (t : Moment) : String := t.joined " "

/-- An offset as it appears inside a message: a number of days and seconds. -/
def offsetLiteral (minutes : Int) : String :=
  if minutes = 0 then "datetime.timezone.utc"
  else
    let seconds := minutes * 60
    let days := seconds.fdiv 86400
    let rest := seconds - days * 86400
    let parts := (if days = 0 then [] else ["days=" ++ Text.ofInt days]) ++
      (if rest = 0 then [] else ["seconds=" ++ Text.ofInt rest])
    "datetime.timezone(datetime.timedelta(" ++ ", ".intercalate parts ++ "))"

/-- The moment as it appears inside a message: its parts, without zero microseconds, and then
without zero seconds. -/
def literal (t : Moment) : String :=
  let parts := [t.year, t.month, t.day, t.hour, t.minute] ++
    (if t.micro = 0 then (if t.second = 0 then [] else [t.second]) else [t.second, t.micro])
  let texts := parts.map (fun n : Nat => Text.ofInt n) ++
    (t.offset.map fun o => "tzinfo=" ++ offsetLiteral o).toList
  "datetime.datetime(" ++ ", ".intercalate texts ++ ")"

end Moment

end BlockArchive
