/-!
# Dates of the calendar

The proleptic Gregorian calendar: the rule of leap years holds for all years, and there is a year
zero, in front of which years are negative.

Model of the dates that the format texts `%d %b %Y` and `%d %b %y` denote.

* `daysIn`: the length of a month.
* `Date`: a day that the calendar has. `Date.ofParts?_eq_some_iff` says which parts make one.
* `Date.dayNumber`: the days from the first of January 1970.
-/

namespace MailOutline.Calendar

/-- Whether a year has a leap day. -/
def isLeap (year : Int) : Bool := year % 4 == 0 && (year % 100 != 0 || year % 400 == 0)

/-- The number of days of a month. -/
def daysIn (year : Int) (month : Nat) : Nat :=
  match month with
  | 2 => if isLeap year then 29 else 28
  | 4 | 6 | 9 | 11 => 30
  | _ => 31

/-- A day of the calendar. -/
structure Date where
  /-- The year, which may be zero or negative. -/
  year : Int
  /-- The month, from one. -/
  month : Nat
  /-- The day of the month, from one. -/
  day : Nat
  /-- The month and the day exist. -/
  exists_day : (1 ≤ month ∧ month ≤ 12) ∧ 1 ≤ day ∧ day ≤ daysIn year month
deriving DecidableEq, Repr

namespace Date

/-- The day with these parts, if the calendar has it. -/
def ofParts? (year : Int) (month day : Nat) : Option Date :=
  if h : (1 ≤ month ∧ month ≤ 12) ∧ 1 ≤ day ∧ day ≤ daysIn year month then
    some ⟨year, month, day, h⟩
  else none

theorem ofParts?_eq_some_iff {year : Int} {month day : Nat} {date : Date} :
    ofParts? year month day = some date ↔
      date.year = year ∧ date.month = month ∧ date.day = day := by
  obtain ⟨y, m, d, h⟩ := date
  unfold ofParts?
  constructor
  · intro heq
    split at heq <;> simp_all
  · rintro ⟨rfl, rfl, rfl⟩
    exact dif_pos h

/-- The days of a year in front of a month. -/
def daysBefore (year : Int) (month : Nat) : Nat :=
  (List.range (month - 1)).foldl (fun days earlier => days + daysIn year (earlier + 1)) 0

/-- The days from the first of January of year one up to the first of January of a year. -/
def daysBeforeYear (year : Int) : Int :=
  let full := year - 1
  365 * full + full / 4 - full / 100 + full / 400

/-- The days from the first of January 1970 up to a day. -/
def dayNumber (date : Date) : Int :=
  daysBeforeYear date.year - daysBeforeYear 1970 + daysBefore date.year date.month + (date.day - 1)

end Date

end MailOutline.Calendar
