import MailOutline.Calendar.Layout

/-!
# Dates written to the letter

How a date with a time of day and a zone is written in each of the layouts, told without a reader.

* `Numeral`: so many digits, and the number that they denote.
* `DayText`, `MonthText`, `YearText`, `ZoneText`: the pieces of a date.
* `ClockText`: the date and the time of day, in one of the two ways.
* `Written`: all of it, with the day of the week or without one.
-/

namespace MailOutline.Calendar

/-! ## Pieces -/

/-- `Numeral width text n`: the text is `width` digits, which denote `n`. -/
structure Numeral (width : Nat) (text : List Char) (n : Nat) : Prop where
  length_eq : text.length = width
  digits : text.all Char.isDigit = true
  value : Nat.ofDigitChars 10 text 0 = n

/-- The day of a month, in one digit or in two. -/
inductive DayText : List Char → Nat → Prop
  /-- One digit. -/
  | one {text : List Char} {day : Nat} (numeral : Numeral 1 text day) : DayText text day
  /-- Two digits. -/
  | two {text : List Char} {day : Nat} (numeral : Numeral 2 text day) : DayText text day

/-- The months in three letters. -/
def monthWords : List String :=
  ["Jan", "Feb", "Mar", "Apr", "May", "Jun", "Jul", "Aug", "Sep", "Oct", "Nov", "Dec"]

/-- A month in three letters of any case. Months count from one. -/
structure MonthText (text : List Char) (month : Nat) : Prop where
  pos : 1 ≤ month
  word : (monthWords[month - 1]?).map (fun word => word.toList.map Char.toLower) =
    some (text.map Char.toLower)

/-- A year: all four digits of it in the long way, the last two in the short way, from 1970 to
2069. -/
inductive YearText : Clock → List Char → Int → Prop
  /-- Four digits. -/
  | long {text : List Char} {n : Nat} (numeral : Numeral 4 text n) : YearText .long text n
  /-- Two digits up to 69. -/
  | late {text : List Char} {n : Nat} (numeral : Numeral 2 text n) (le : n ≤ 69) :
      YearText .short text (2000 + n)
  /-- Two digits from 70. -/
  | early {text : List Char} {n : Nat} (numeral : Numeral 2 text n) (ge : 70 ≤ n) :
      YearText .short text (1900 + n)

/-- The hours by which the zones of North America are ahead of universal time. -/
def zoneTable : List (String × Int) :=
  [("EDT", -4), ("EST", -5), ("CDT", -5), ("CST", -6), ("MDT", -6), ("MST", -7), ("PDT", -7),
    ("PST", -8)]

/-- A zone, and the minutes by which it is ahead of universal time. -/
inductive ZoneText : ZoneForm → List Char → Int → Prop
  /-- Hours and minutes ahead. -/
  | east {h m : List Char} {hours minutes : Nat} (hour : Numeral 2 h hours) (hour_le : hours ≤ 23)
      (minute : Numeral 2 m minutes) (minute_le : minutes ≤ 59) :
      ZoneText .numeric ('+' :: (h ++ m)) (60 * hours + minutes)
  /-- Hours and minutes behind. -/
  | west {h m : List Char} {hours minutes : Nat} (hour : Numeral 2 h hours) (hour_le : hours ≤ 23)
      (minute : Numeral 2 m minutes) (minute_le : minutes ≤ 59) :
      ZoneText .numeric ('-' :: (h ++ m)) (-(60 * hours + minutes))
  /-- A name of the table, in any case. -/
  | named {text : List Char} {name : String} {hours : Int} (mem : (name, hours) ∈ zoneTable)
      (same : text.map Char.toLower = name.toList.map Char.toLower) :
      ZoneText .named text (60 * hours)
  /-- Three letters that are no name of the table. -/
  | other {a b c : Char} (letters : a.isAlpha ∧ b.isAlpha ∧ c.isAlpha)
      (unlisted : ∀ entry ∈ zoneTable,
        [a, b, c].map Char.toLower ≠ entry.1.toList.map Char.toLower) :
      ZoneText .named [a, b, c] 0

/-! ## Dates -/

/-- A date and a time of day, in one of the two ways. -/
inductive ClockText : Clock → List Char → Date → Time → Prop
  /-- With a year in full, and seconds. -/
  | long {d mon y h m s : List Char} {date : Date} {time : Time} (day : DayText d date.day)
      (month : MonthText mon date.month) (year : YearText .long y date.year)
      (hour : Numeral 2 h time.hour) (minute : Numeral 2 m time.minute)
      (second : Numeral 2 s time.second) (nano : time.nano = 0) :
      ClockText .long (d ++ ' ' :: mon ++ ' ' :: y ++ ' ' :: h ++ ':' :: m ++ ':' :: s) date time
  /-- With a year of two digits, and no seconds. -/
  | short {d mon y h m : List Char} {date : Date} {time : Time} (day : DayText d date.day)
      (month : MonthText mon date.month) (year : YearText .short y date.year)
      (hour : Numeral 2 h time.hour) (minute : Numeral 2 m time.minute) (second : time.second = 0)
      (nano : time.nano = 0) :
      ClockText .short (d ++ ' ' :: mon ++ ' ' :: y ++ ' ' :: h ++ ':' :: m) date time

/-- `Written text date time offset`: the text is the date, the time of day and the zone as one of
the layouts has them. A day of the week may stand in front of the long way. -/
inductive Written : List Char → Date → Time → Int → Prop
  /-- Without the day of the week. -/
  | plain {clock : Clock} {zone : ZoneForm} {front back : List Char} {date : Date} {time : Time}
      {offset : Int} (front_text : ClockText clock front date time)
      (back_text : ZoneText zone back offset) : Written (front ++ ' ' :: back) date time offset
  /-- With the day of the week. -/
  | weekday {zone : ZoneForm} {a b c : Char} {front back : List Char} {date : Date} {time : Time}
      {offset : Int} (letters : a.isAlpha ∧ b.isAlpha ∧ c.isAlpha)
      (front_text : ClockText .long front date time) (back_text : ZoneText zone back offset) :
      Written (a :: b :: c :: ',' :: ' ' :: (front ++ ' ' :: back)) date time offset

end MailOutline.Calendar
