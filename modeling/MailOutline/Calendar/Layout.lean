import MailOutline.Calendar.Scan
import MailOutline.Calendar.Timestamp
import MailOutline.Text.Cut

/-!
# Dates as mail programs write them

The date of a message is what the program that sent it wrote. Twelve layouts are tried in order, and
the first that fits is taken. A layout has a width in bytes: a text is cut to it, which drops the
comment that often follows the zone.

Model of `Layout`, `Zone`, `LAYOUTS`, `parse_date`, `parse_with` and `strip_weekday`.

* `Layout.all`: the layouts, in order.
* `Layout.read?`: a text in one layout.
* `Timestamp.ofText?`: a date in any layout, with white space around it.
-/

namespace MailOutline.Calendar

/-- How the date and the time of day are written. -/
inductive Clock where
  /-- A year in full, and seconds: `2 Jan 2006 15:04:05`. -/
  | long
  /-- A year of two digits, and no seconds: `2 Jan 06 15:04`. -/
  | short
deriving DecidableEq, Repr

/-- How the zone is written. -/
inductive ZoneForm where
  /-- An abbreviation, such as `GMT`. -/
  | named
  /-- A sign with hours and minutes, such as `-0700`. -/
  | numeric
deriving DecidableEq, Repr

/-- A way to write a date with a time of day and a zone. -/
structure Layout where
  /-- Whether the day of the week stands in front. -/
  weekday : Bool
  /-- How the date and the time of day are written. -/
  clock : Clock
  /-- How the zone is written. -/
  zone : ZoneForm
  /-- The number of bytes of a date in this layout. -/
  width : Nat
deriving DecidableEq, Repr

namespace Layout

/-- The layouts in the order in which they are tried. Days of one and of two digits have layouts of
their own, since they differ in width. -/
def all : List Layout :=
  [⟨true, .long, .named, 28⟩,     -- Mon, 2 Jan 2006 15:04:05 MST
   ⟨true, .long, .numeric, 30⟩,   -- Mon, 2 Jan 2006 15:04:05 -0700
   ⟨false, .short, .named, 18⟩,   -- 2 Jan 06 15:04 MST
   ⟨false, .short, .numeric, 20⟩, -- 2 Jan 06 15:04 -0700
   ⟨true, .long, .named, 29⟩,     -- Mon, 02 Jan 2006 15:04:05 MST
   ⟨true, .long, .numeric, 31⟩,   -- Mon, 02 Jan 2006 15:04:05 -0700
   ⟨false, .short, .named, 19⟩,   -- 02 Jan 06 15:04 MST
   ⟨false, .short, .numeric, 21⟩, -- 02 Jan 06 15:04 -0700
   ⟨false, .long, .numeric, 26⟩,  -- 02 Jan 2006 15:04:05 -0700
   ⟨false, .long, .numeric, 25⟩,  -- 2 Jan 2006 15:04:05 -0700
   ⟨false, .long, .named, 24⟩,    -- 02 Jan 2006 15:04:05 MST
   ⟨false, .long, .named, 23⟩]    -- 2 Jan 2006 15:04:05 MST

end Layout

/-! ## The pieces of a layout -/

/-- The text behind a day of the week, a comma and a space. Any three letters are a day of the
week. -/
def afterWeekday? : List Char → Option (List Char)
  | a :: b :: c :: ',' :: ' ' :: rest =>
    if a.isAlpha ∧ b.isAlpha ∧ c.isAlpha then some rest else none
  | _ => none

/-- The year that two digits abbreviate, from 1970 to 2069. -/
def fullYear (year : Nat) : Nat := if year < 70 then 2000 + year else 1900 + year

/-- A date and a time of day with a year in full and seconds. -/
def readLong? (text : List Char) : Option (Date × Time) := do
  let (day, text) ← number? 2 text
  let (month, text) ← monthName? (Text.skipBlank text)
  let (year, text) ← year? text
  let (hour, text) ← number? 2 text
  let (minute, text) ← number? 2 (← mark? ':' text)
  let (second, text) ← number? 2 (← mark? ':' text)
  if text = [] then return (← Date.ofParts? year month day, ← Time.ofParts? hour minute second 0)
  else none

/-- A date and a time of day with a year of two digits and no seconds. -/
def readShort? (text : List Char) : Option (Date × Time) := do
  let (day, text) ← number? 2 text
  let (month, text) ← monthName? (Text.skipBlank text)
  let (year, text) ← number? 2 text
  let (hour, text) ← number? 2 text
  let (minute, text) ← number? 2 (← mark? ':' text)
  if text = [] then
    return (← Date.ofParts? (fullYear year) month day, ← Time.ofParts? hour minute 0 0)
  else none

/-- A date and a time of day, written in one of the two ways. -/
def Clock.read? : Clock → List Char → Option (Date × Time)
  | .long => readLong?
  | .short => readShort?

/-- The offset of a zone, written in one of the two ways. -/
def ZoneForm.read? : ZoneForm → List Char → Option Int
  | .named => namedOffset?
  | .numeric => numericOffset?

namespace Layout

/-- The text without the day of the week, if the layout has one. -/
def body? (layout : Layout) (text : List Char) : Option (List Char) :=
  if layout.weekday then afterWeekday? text else some text

/-- The timestamp that a text denotes in a layout. The last space stands in front of the zone. -/
def read? (layout : Layout) (text : List Char) : Option Timestamp := do
  let body ← layout.body? (Text.cut layout.width text)
  let (clock, zone) ← Text.splitLast? ' ' body
  let (date, time) ← layout.clock.read? clock
  let offset ← layout.zone.read? zone
  Timestamp.ofParts? date time offset

end Layout

/-- The timestamp that a text denotes in the first layout that fits it. -/
def Timestamp.ofText? (text : String) : Option Timestamp :=
  let trimmed := Text.trim text.toList
  Layout.all.findSome? fun layout => layout.read? trimmed

end MailOutline.Calendar
