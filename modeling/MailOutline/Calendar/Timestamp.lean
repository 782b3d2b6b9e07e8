import MailOutline.Calendar.Date

/-!
# Times with a zone

Model of the dates with a time and a zone that `parse_date` answers with.

* `Time`: a time of day. The second 60 is a leap second, which may end any minute.
* `Timestamp`: a date and a time of day as they were written, with the offset of their zone from
  universal time. Both the written date and the instant lie in the years from -262143 to 262142.
* `Timestamp.unixSeconds`: the seconds from the start of 1970 up to the instant. A leap second
  counts as the second in front of it.
-/

namespace MailOutline.Calendar

/-- A time of day. -/
structure Time where
  /-- The hour. -/
  hour : Nat
  /-- The minute. -/
  minute : Nat
  /-- The second, 60 for a leap second. -/
  second : Nat
  /-- The nanoseconds after the second. -/
  nano : Nat
  /-- The parts are in range. -/
  exists_time : hour < 24 ∧ minute < 60 ∧ second ≤ 60 ∧ nano < 1000000000
deriving DecidableEq, Repr

namespace Time

/-- The time with these parts, if a day has it. -/
def ofParts? (hour minute second nano : Nat) : Option Time :=
  if h : hour < 24 ∧ minute < 60 ∧ second ≤ 60 ∧ nano < 1000000000 then
    some ⟨hour, minute, second, nano, h⟩
  else none

theorem ofParts?_eq_some_iff {hour minute second nano : Nat} {time : Time} :
    ofParts? hour minute second nano = some time ↔
      time.hour = hour ∧ time.minute = minute ∧ time.second = second ∧ time.nano = nano := by
  obtain ⟨h, m, s, n, hp⟩ := time
  unfold ofParts?
  constructor
  · intro heq
    split at heq <;> simp_all
  · rintro ⟨rfl, rfl, rfl, rfl⟩
    exact dif_pos hp

/-- The whole seconds since midnight, a leap second counted as the second in front of it. -/
def seconds (time : Time) : Nat := time.hour * 3600 + time.minute * 60 + min time.second 59

end Time

/-- The first year that can be told. -/
def minYear : Int := -262143

/-- The last year that can be told. -/
def maxYear : Int := 262142

/-- The Unix seconds of a time of day on a date, in a zone that is `offset` minutes ahead. -/
def unixSeconds (date : Date) (time : Time) (offset : Int) : Int :=
  date.dayNumber * 86400 + time.seconds - offset * 60

/-- The Unix seconds at the start of a year. -/
def startOfYear (year : Int) : Int :=
  (Date.daysBeforeYear year - Date.daysBeforeYear 1970) * 86400

/-- Whether a zone is less than a day ahead or behind, and a date and its instant lie in the years
that can be told. -/
def CanTell (date : Date) (time : Time) (offset : Int) : Prop :=
  offset.natAbs < 24 * 60 ∧ (minYear ≤ date.year ∧ date.year ≤ maxYear) ∧
    startOfYear minYear ≤ unixSeconds date time offset ∧
      unixSeconds date time offset < startOfYear (maxYear + 1)

instance (date : Date) (time : Time) (offset : Int) : Decidable (CanTell date time offset) :=
  inferInstanceAs (Decidable (_ ∧ _ ∧ _ ∧ _))

/-- A date and a time of day in a zone. -/
structure Timestamp where
  /-- The date in the zone. -/
  date : Date
  /-- The time of day in the zone. -/
  time : Time
  /-- The minutes by which the zone is ahead of universal time. -/
  offset : Int
  /-- The zone exists, and the years can be told. -/
  canTell : CanTell date time offset
deriving DecidableEq, Repr

namespace Timestamp

/-- The timestamp with these parts, if it can be told. -/
def ofParts? (date : Date) (time : Time) (offset : Int) : Option Timestamp :=
  if h : CanTell date time offset then some ⟨date, time, offset, h⟩ else none

theorem ofParts?_eq_some_iff {date : Date} {time : Time} {offset : Int} {stamp : Timestamp} :
    ofParts? date time offset = some stamp ↔
      stamp.date = date ∧ stamp.time = time ∧ stamp.offset = offset := by
  obtain ⟨d, t, o, hp⟩ := stamp
  unfold ofParts?
  constructor
  · intro heq
    split at heq <;> simp_all
  · rintro ⟨rfl, rfl, rfl⟩
    exact dif_pos hp

/-- The seconds from the start of 1970, in universal time, up to the instant. -/
def unixSeconds (stamp : Timestamp) : Int :=
  Calendar.unixSeconds stamp.date stamp.time stamp.offset

/-- The nanoseconds after the second of `unixSeconds`. Those of a leap second are past the first
thousand million. -/
def nanos (stamp : Timestamp) : Nat :=
  stamp.time.nano + if stamp.time.second = 60 then 1000000000 else 0

/-- The seconds by which the zone is ahead of universal time. -/
def offsetSeconds (stamp : Timestamp) : Int := stamp.offset * 60

end Timestamp

end MailOutline.Calendar
