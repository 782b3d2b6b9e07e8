import MailOutline.Calendar.Scan
import MailOutline.Calendar.Timestamp
import MailOutline.Text.Basic

/-!
# The standard form of a timestamp

The form of RFC 3339, `2006-01-02T15:04:05-07:00`. Years outside four digits have a sign, a
fraction is written in thousandths, millionths or nanoseconds, whichever is enough, and a leap
second is the second 60.

Model of the text that stands for such a date in serialized values.

* `Timestamp.toRfc3339`: the standard form, with the wanted spelling of universal time.
* `Timestamp.ofRfc3339?`: reads it. White space around the parts is allowed, and a space may stand
  for the `T`.
-/

namespace MailOutline.Calendar

/-! ## Writing -/

/-- A year in four digits, with a sign if it needs more digits or is negative. -/
def yearText (year : Int) : String :=
  if 0 ≤ year ∧ year ≤ 9999 then Text.padded 4 year.natAbs
  else (if year < 0 then "-" else "+") ++ Text.padded 4 year.natAbs

/-- The digits of a fraction of a second, behind a point. -/
def fractionText (nano : Nat) : String :=
  if nano = 0 then ""
  else if nano % 1000000 = 0 then "." ++ Text.padded 3 (nano / 1000000)
  else if nano % 1000 = 0 then "." ++ Text.padded 6 (nano / 1000)
  else "." ++ Text.padded 9 nano

/-- A zone with its sign, where `universal` spells universal time. -/
def zoneText (universal : String) (offset : Int) : String :=
  if offset = 0 then universal
  else (if offset < 0 then "-" else "+") ++
    Text.padded 2 (offset.natAbs / 60) ++ ":" ++ Text.padded 2 (offset.natAbs % 60)

/-- A date in the standard form. -/
def Date.toRfc3339 (date : Date) : String :=
  yearText date.year ++ "-" ++ Text.padded 2 date.month ++ "-" ++ Text.padded 2 date.day

/-- A time of day in the standard form. -/
def Time.toRfc3339 (time : Time) : String :=
  Text.padded 2 time.hour ++ ":" ++ Text.padded 2 time.minute ++ ":" ++
    Text.padded 2 time.second ++ fractionText time.nano

/-- A timestamp in the standard form, where `universal` spells universal time. -/
def Timestamp.toRfc3339 (universal : String) (stamp : Timestamp) : String :=
  stamp.date.toRfc3339 ++ "T" ++ stamp.time.toRfc3339 ++ zoneText universal stamp.offset

/-! ## Reading -/

/-- A date in front of the text. -/
def scanDate? (text : List Char) : Option (Date × List Char) := do
  let (year, text) ← year? text
  let (month, text) ← number? 2 (← mark? '-' (Text.skipBlank text))
  let (day, text) ← number? 2 (← mark? '-' (Text.skipBlank text))
  return (← Date.ofParts? year month day, text)

/-- A fraction of a second, if there is a point in front of the text. Digits behind the ninth do not
count. -/
def fraction? : List Char → Option (Nat × List Char)
  | '.' :: text => do
    let (value, rest) ← digits? 9 text
    let count := text.length - rest.length
    return (value * Nat.pow 10 (9 - count), rest.dropWhile Char.isDigit)
  | text => some (0, text)

/-- A time of day in front of the text. -/
def scanTime? (text : List Char) : Option (Time × List Char) := do
  let (hour, text) ← number? 2 text
  let (minute, text) ← number? 2 (← mark? ':' (Text.skipBlank text))
  let (second, text) ← number? 2 (← mark? ':' (Text.skipBlank text))
  let (nano, text) ← fraction? text
  return (← Time.ofParts? hour minute second nano, text)

/-- Hours and minutes with anything between them that separates them. -/
def hoursAndMinutes? : List Char → Option (Nat × List Char)
  | h₁ :: h₂ :: text => do
    let hours := 10 * (← digit? h₁) + (← digit? h₂)
    match text.dropWhile fun c => c == ':' || Text.isBlank c with
    | m₁ :: m₂ :: rest => do
      let minutes := 10 * (← digit? m₁) + (← digit? m₂)
      if minutes < 60 then return (hours * 60 + minutes, rest) else none
    | _ => none
  | _ => none

/-- A zone in front of the text: universal time by name, or an offset with its sign. -/
def scanZone? : List Char → Option (Int × List Char)
  | '+' :: text => (hoursAndMinutes? text).map fun (n, rest) => ((n : Int), rest)
  | '-' :: text | '−' :: text => (hoursAndMinutes? text).map fun (n, rest) => (-(n : Int), rest)
  | text =>
    if (text.take 3).map Char.toLower = ['u', 't', 'c'] then some (0, text.drop 3)
    else if (text.take 1).map Char.toLower = ['z'] then some (0, text.drop 1)
    else none

/-- The timestamp that a text in the standard form denotes. -/
def Timestamp.ofRfc3339? (text : String) : Option Timestamp := do
  let (date, text) ← scanDate? text.toList
  let text ← (mark? 'T' text <|> mark? 't' text <|> mark? ' ' text)
  let (time, text) ← scanTime? text
  let (offset, text) ← scanZone? (Text.skipBlank text)
  if Text.skipBlank text = [] then Timestamp.ofParts? date time offset else none

end MailOutline.Calendar
