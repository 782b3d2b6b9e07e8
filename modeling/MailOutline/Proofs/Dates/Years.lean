import MailOutline.Proofs.Dates.Loose

/-!
# The year of a date

With seconds, the year of a date is the number that its digits denote, however few they are. Without
seconds it has two digits at most, and is taken for a year from 1970 to 2069.

* `YearAt`: the digits of the year of the date that begins a text.
* `Unabbreviated`: the year is what four digits denote, or what two digits abbreviate.
* `Timestamp.ofText?_year`: a date has such a year if it has no seconds and two digits for the year,
  or seconds and four digits without a minus sign. Otherwise it has none.
-/

namespace MailOutline.Calendar

variable {text digits : List Char} {year : Int} {clock : Clock} {date : Date} {time : Time}
  {stamp : Timestamp}

/-- `YearAt text clock digits date time`: a date and a time of day begin the text, perhaps behind a
day of the week, and `digits` are those of the year. -/
inductive YearAt : List Char → Clock → List Char → Date → Time → Prop
  /-- Without a day of the week. -/
  | plain {clock : Clock} {front behind digits : List Char} {date : Date} {time : Time}
      (loose : LooseText clock front digits date time) :
      YearAt (front ++ ' ' :: behind) clock digits date time
  /-- Behind a day of the week. -/
  | weekday {a b c : Char} {front behind digits : List Char} {date : Date} {time : Time}
      (letters : a.isAlpha ∧ b.isAlpha ∧ c.isAlpha)
      (loose : LooseText .long front digits date time) :
      YearAt (a :: b :: c :: ',' :: ' ' :: (front ++ ' ' :: behind)) .long digits date time

theorem Timestamp.exists_yearAt {text : String} (h : Timestamp.ofText? text = some stamp) :
    ∃ clock digits, YearAt (Text.trim text.toList) clock digits stamp.date stamp.time := by
  obtain ⟨_, _, _, front, zone, rest, htext, hdated, -⟩ := Timestamp.exists_dated h
  rw [htext]
  cases hdated with
  | plain read =>
    obtain ⟨digits, hloose⟩ := Clock.exists_looseText read
    exact ⟨_, digits, .plain hloose⟩
  | weekday letters read =>
    obtain ⟨digits, hloose⟩ := Clock.exists_looseText read
    exact ⟨_, digits, .weekday letters hloose⟩

theorem LooseText.exists_looseYear (h : LooseText clock text digits date time) :
    ∃ piece, LooseYear clock piece digits date.year := by
  cases h with
  | long _ _ _ year => exact ⟨_, year⟩
  | short _ _ _ year => exact ⟨_, year⟩

theorem YearAt.exists_looseYear (h : YearAt text clock digits date time) :
    ∃ piece, LooseYear clock piece digits date.year := by
  cases h with
  | plain loose => exact loose.exists_looseYear
  | weekday _ loose => exact loose.exists_looseYear

/-- The year is the number that four digits denote, or a year from 1970 to 2069 that two digits
abbreviate. -/
def Unabbreviated (digits : List Char) (year : Int) : Prop :=
  digits.length = 4 ∧ year = Nat.ofDigitChars 10 digits 0 ∨
    digits.length = 2 ∧ (1970 ≤ year ∧ year ≤ 2069) ∧ year = fullYear (Nat.ofDigitChars 10 digits 0)

/-- Two digits taken for a year are a year from 1970 to 2069. -/
theorem fullYear_range {n : Nat} (h : n < 100) : 1970 ≤ fullYear n ∧ fullYear n ≤ 2069 := by
  unfold fullYear
  split <;> omega

/-- **Two digits are completed without seconds only**, and with them it takes four. -/
theorem LooseYear.unabbreviated_iff (h : LooseYear clock text digits year) :
    Unabbreviated digits year ↔ clock = .short ∧ digits.length = 2 ∨
      clock = .long ∧ digits.length = 4 ∧ 0 ≤ year := by
  have htwo {digits : List Char} {n : Nat} (numeral : Numeral digits.length digits n)
      (hlen : digits.length = 2) : n < 100 := by
    have hlt := numeral.lt
    rwa [hlen] at hlt
  rw [Unabbreviated]
  cases h with
  | long _ numeral | plus _ numeral =>
    rw [numeral.value]
    constructor
    · rintro (⟨hlen, -⟩ | ⟨hlen, ⟨hle, -⟩, -⟩)
      · exact .inr ⟨rfl, hlen, Int.natCast_nonneg _⟩
      · have hlt := htwo numeral hlen
        omega
    · rintro (⟨hclock, -⟩ | ⟨-, hlen, -⟩)
      · cases hclock
      · exact .inl ⟨hlen, rfl⟩
  | minus _ numeral =>
    rw [numeral.value]
    constructor
    · rintro (⟨hlen, heq⟩ | ⟨-, ⟨hle, -⟩, -⟩)
      · exact .inr ⟨rfl, hlen, by omega⟩
      · omega
    · rintro (⟨hclock, -⟩ | ⟨-, hlen, hle⟩)
      · cases hclock
      · exact .inl ⟨hlen, by omega⟩
  | short _ numeral le =>
    rw [numeral.value]
    constructor
    · rintro (⟨hlen, -⟩ | ⟨hlen, -⟩)
      · omega
      · exact .inl ⟨rfl, hlen⟩
    · rintro (⟨-, hlen⟩ | ⟨hclock, -⟩)
      · have hrange := fullYear_range (htwo numeral hlen)
        exact .inr ⟨hlen, by omega, rfl⟩
      · cases hclock

/-- **The year of a date is told in full in two cases**: without seconds and in two digits, or with
seconds and in four, the number of which is not negative. -/
theorem Timestamp.ofText?_year {text : String} (h : Timestamp.ofText? text = some stamp) :
    (∃ clock digits, YearAt (Text.trim text.toList) clock digits stamp.date stamp.time) ∧
      ∀ clock digits, YearAt (Text.trim text.toList) clock digits stamp.date stamp.time →
        (Unabbreviated digits stamp.date.year ↔ clock = .short ∧ digits.length = 2 ∨
          clock = .long ∧ digits.length = 4 ∧ 0 ≤ stamp.date.year) := by
  refine ⟨Timestamp.exists_yearAt h, fun clock digits hyear => ?_⟩
  obtain ⟨_, hloose⟩ := hyear.exists_looseYear
  exact hloose.unabbreviated_iff

/-- Two digits without seconds. -/
theorem Timestamp.ofText?_year_short :
    ∃ stamp, Timestamp.ofText? "02 Jan 06 15:04 -0700" = some stamp ∧
      YearAt (Text.trim "02 Jan 06 15:04 -0700".toList) .short ['0', '6'] stamp.date stamp.time ∧
      Unabbreviated ['0', '6'] stamp.date.year := by
  have hread : Timestamp.ofText? "02 Jan 06 15:04 -0700" =
      some ⟨⟨2006, 1, 2, by decide⟩, ⟨15, 4, 0, 0, by decide⟩, -420, by decide⟩ := by decide
  have day : Padded 2 ([] ++ ['0', '2']) 2 :=
    .intro rfl ⟨rfl, by decide, rfl⟩ (by decide) (by decide)
  have month : MonthText "Jan".toList 1 := ⟨by decide, by decide⟩
  have year : LooseYear .short ([' '] ++ ['0', '6']) ['0', '6'] (fullYear 6) :=
    .short (by decide) ⟨rfl, by decide, rfl⟩ (by decide)
  have hour : Padded 2 ([' '] ++ ['1', '5']) 15 :=
    .intro (by decide) ⟨rfl, by decide, rfl⟩ (by decide) (by decide)
  have minute : Padded 2 ([] ++ ['0', '4']) 4 :=
    .intro rfl ⟨rfl, by decide, rfl⟩ (by decide) (by decide)
  have loose : LooseText .short _ ['0', '6'] ⟨2006, 1, 2, by decide⟩ ⟨15, 4, 0, 0, by decide⟩ :=
    .short day (b := [' ']) (by decide) month year hour minute rfl
  have htrim : Text.trim "02 Jan 06 15:04 -0700".toList =
      "02 Jan 06 15:04".toList ++ ' ' :: "-0700".toList := by decide
  have hyear : YearAt (Text.trim "02 Jan 06 15:04 -0700".toList) .short ['0', '6']
      ⟨2006, 1, 2, by decide⟩ ⟨15, 4, 0, 0, by decide⟩ := by
    rw [htrim]
    exact .plain loose
  exact ⟨_, hread, hyear, ((Timestamp.ofText?_year hread).2 _ _ hyear).2 (.inl ⟨rfl, rfl⟩)⟩

/-- A piece of a text stands somewhere in it. -/
theorem exists_drop_of_infix {n : Nat} (h : digits <:+: text) (hlen : digits.length = n) :
    ∃ i ≤ text.length, (text.drop i).take n = digits := by
  obtain ⟨before, after, rfl⟩ := h
  refine ⟨before.length, by simp, ?_⟩
  rw [List.append_assoc, List.drop_left, ← hlen, List.take_left]

/-- With seconds, two digits are taken for a year of the first century. -/
theorem Timestamp.ofText?_year_long :
    ¬ ∀ text stamp, Timestamp.ofText? text = some stamp →
      (∃ digits, digits <:+: text.toList ∧ digits.length = 4 ∧ digits.all Char.isDigit = true ∧
        stamp.date.year = Nat.ofDigitChars 10 digits 0) ∨
      1970 ≤ stamp.date.year ∧ stamp.date.year ≤ 2069 := by
  intro hfull
  have hread : Timestamp.ofText? "Mon, 02 Jan 06 15:04:05 -0700" =
      some ⟨⟨6, 1, 2, by decide⟩, ⟨15, 4, 5, 0, by decide⟩, -420, by decide⟩ := by decide
  have hnone : ∀ i ≤ "Mon, 02 Jan 06 15:04:05 -0700".toList.length, (6 : Int) ≠
      Nat.ofDigitChars 10 (("Mon, 02 Jan 06 15:04:05 -0700".toList.drop i).take 4) 0 := by
    decide
  rcases hfull _ _ hread with ⟨digits, hinfix, hlen, -, hyear⟩ | ⟨hle, -⟩
  · obtain ⟨i, hi, rfl⟩ := exists_drop_of_infix hinfix hlen
    exact hnone i hi hyear
  · exact absurd hle (by decide)

end MailOutline.Calendar
