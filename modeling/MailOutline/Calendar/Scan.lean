import MailOutline.Text.Cut

/-!
# Numbers, names and zones inside a date

A scan takes the characters that are left and answers with a value and the characters behind it, or
with nothing. White space may stand in front of each number. A zone is all that is left. It is
written as an offset in hours and minutes, or as an abbreviation, and read as the minutes by which
it is ahead of universal time.

Model of the conversions `%d`, `%b`, `%y`, `%Y`, `%H`, `%M` and `%S` of the format texts, and of
`numeric_offset` and `named_offset`.

* `digits?`, `number?`: a number of at most so many digits, as many as there are.
* `year?`: a year, of four digits at most unless it has a sign.
* `monthName?`: the first three letters of an English month, in any case.
* `mark?`: one given character.
* `numericOffset?`: a sign and four digits, such as `-0700`.
* `namedOffset?`: the zones of North America and universal time. Other abbreviations of three to
  five letters are taken for universal time; shorter ones are refused, since they may be what is
  left of an abbreviation that was cut.
-/

namespace MailOutline.Calendar

/-! ## Numbers and names -/

/-- A number of at most `width` digits in front of the text, as many as there are. -/
def digits? (width : Nat) (text : List Char) : Option (Nat × List Char) :=
  let run := (text.take width).takeWhile Char.isDigit
  if run = [] then none else some (Nat.ofDigitChars 10 run 0, text.drop run.length)

/-- A number of at most `width` digits behind white space. -/
def number? (width : Nat) (text : List Char) : Option (Nat × List Char) :=
  digits? width (Text.skipBlank text)

/-- A year behind white space. With a sign it may have any number of digits, without one four. -/
def year? (text : List Char) : Option (Int × List Char) :=
  match Text.skipBlank text with
  | '+' :: rest => (digits? rest.length rest).map fun (n, left) => ((n : Int), left)
  | '-' :: rest => (digits? rest.length rest).map fun (n, left) => (-(n : Int), left)
  | rest => (digits? 4 rest).map fun (n, left) => ((n : Int), left)

/-- The first three letters of the months. -/
def monthNames : List (List Char) :=
  ["jan", "feb", "mar", "apr", "may", "jun", "jul", "aug", "sep", "oct", "nov", "dec"].map
    String.toList

/-- The number of a month, from its first three letters in any case. -/
def monthName? (text : List Char) : Option (Nat × List Char) :=
  (monthNames.findIdx? (· == (text.take 3).map Char.toLower)).map fun i => (i + 1, text.drop 3)

/-- The text behind the character `mark`. -/
def mark? (mark : Char) : List Char → Option (List Char)
  | c :: rest => if c = mark then some rest else none
  | [] => none

/-! ## Zones -/

/-- The value of a decimal digit. -/
def digit? (c : Char) : Option Nat := if c.isDigit then some (c.toNat - 48) else none

/-- The minutes of an offset of hours and minutes, less than a day. -/
def minutesOf? (h₁ h₂ m₁ m₂ : Char) : Option Nat := do
  let hours := 10 * (← digit? h₁) + (← digit? h₂)
  let minutes := 10 * (← digit? m₁) + (← digit? m₂)
  if minutes < 60 ∧ hours < 24 then some (hours * 60 + minutes) else none

/-- The offset that a sign with hours and minutes denotes. -/
def numericOffset? : List Char → Option Int
  | ['+', h₁, h₂, m₁, m₂] => (minutesOf? h₁ h₂ m₁ m₂).map fun n => (n : Int)
  | ['-', h₁, h₂, m₁, m₂] => (minutesOf? h₁ h₂ m₁ m₂).map fun n => -(n : Int)
  | _ => none

/-- The hours of a zone by its name, in lower case. -/
def zoneHours : List Char → Int
  | ['e', 'd', 't'] => -4
  | ['e', 's', 't'] | ['c', 'd', 't'] => -5
  | ['c', 's', 't'] | ['m', 'd', 't'] => -6
  | ['m', 's', 't'] | ['p', 'd', 't'] => -7
  | ['p', 's', 't'] => -8
  | _ => 0

/-- The offset that an abbreviation denotes, in any case. -/
def namedOffset? (zone : List Char) : Option Int :=
  let name := zone.map Char.toLower
  let long := 3 ≤ zone.length ∧ zone.length ≤ 5
  if zone.all Char.isAlpha ∧ (long ∨ name = ['u', 't'] ∨ name = ['z']) then
    some (zoneHours name * 60)
  else none

end MailOutline.Calendar
