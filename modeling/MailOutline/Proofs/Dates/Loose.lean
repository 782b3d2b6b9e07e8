import MailOutline.Proofs.Dates.Reading

/-!
# What is taken for a date

A layout is generous. Any white space may stand in front of a piece of the date, or none, and its
numbers may have fewer digits than they should. This is what a layout takes for a date at most, and
there is only one place where it finds the zone.

* `Padded`, `LooseYear`, `LooseText`: the pieces and the whole, told without a reader.
  `Clock.exists_looseText`: whatever is read as a date and a time of day is written so.
* `Dated`: a date and a time of day as they are read, perhaps behind a day of the week. What a
  layout reads is such a text, a space and a zone (`Layout.read?_eq_some_iff`).
* `Dated.unique`: of the beginnings of a text that a space follows, one at most is such a text.
-/

namespace MailOutline.Calendar

variable {text rest digits front behind : List Char} {bound n : Nat} {year offset : Int}
  {clock : Clock} {date : Date} {time : Time} {layout : Layout} {stamp : Timestamp}

/-! ## Pieces -/

/-- `Padded bound text n`: the text is white space and at most `bound` digits, which denote `n`. -/
inductive Padded (bound : Nat) : List Char → Nat → Prop
  /-- White space and digits. -/
  | intro {blank run : List Char} {n : Nat} (blanks : blank.all Text.isBlank = true)
      (numeral : Numeral run.length run n) (pos : 0 < run.length) (le : run.length ≤ bound) :
      Padded bound (blank ++ run) n

/-- `LooseYear clock text digits year`: the text is a year behind white space, with these digits. In
the long way it has four digits at most, or a sign and any number of them. In the short way it has
two at most, which are taken for a year from 1970 to 2069. -/
inductive LooseYear : Clock → List Char → List Char → Int → Prop
  /-- Without a sign. -/
  | long {blank digits : List Char} {n : Nat} (blanks : blank.all Text.isBlank = true)
      (numeral : Numeral digits.length digits n) (le : digits.length ≤ 4) :
      LooseYear .long (blank ++ digits) digits n
  /-- With a plus sign. -/
  | plus {blank digits : List Char} {n : Nat} (blanks : blank.all Text.isBlank = true)
      (numeral : Numeral digits.length digits n) :
      LooseYear .long (blank ++ '+' :: digits) digits n
  /-- With a minus sign. -/
  | minus {blank digits : List Char} {n : Nat} (blanks : blank.all Text.isBlank = true)
      (numeral : Numeral digits.length digits n) :
      LooseYear .long (blank ++ '-' :: digits) digits (-n)
  /-- Two digits. -/
  | short {blank digits : List Char} {n : Nat} (blanks : blank.all Text.isBlank = true)
      (numeral : Numeral digits.length digits n) (le : digits.length ≤ 2) :
      LooseYear .short (blank ++ digits) digits (fullYear n)

theorem exists_numeral_of_digits? (h : digits? bound text = some (n, rest)) :
    ∃ run, text = run ++ rest ∧ Numeral run.length run n ∧ 0 < run.length ∧ run.length ≤ bound := by
  simp only [digits?] at h
  split at h
  · cases h
  next hne =>
    cases h
    have hbegins : (text.take bound).takeWhile Char.isDigit <+: text :=
      (List.takeWhile_prefix _).trans (List.take_prefix _ _)
    refine ⟨_, (List.prefix_iff_eq_append.1 hbegins).symm, ⟨rfl, List.all_takeWhile, rfl⟩,
      List.length_pos_iff.2 hne, ?_⟩
    exact Nat.le_trans (List.takeWhile_prefix _).length_le (List.length_take_le _ _)

theorem exists_blank (text : List Char) :
    ∃ blank, text = blank ++ Text.skipBlank text ∧ blank.all Text.isBlank = true :=
  ⟨_, List.takeWhile_append_dropWhile.symm, List.all_takeWhile⟩

theorem exists_padded_of_number? (h : number? bound text = some (n, rest)) :
    ∃ piece, text = piece ++ rest ∧ Padded bound piece n := by
  obtain ⟨blank, htext, hblank⟩ := exists_blank text
  obtain ⟨run, hrun, numeral, hpos, hle⟩ := exists_numeral_of_digits? h
  refine ⟨blank ++ run, ?_, .intro hblank numeral hpos hle⟩
  rw [htext, hrun, List.append_assoc]

theorem Padded.exists_looseYear (h : Padded 2 text n) :
    ∃ digits, LooseYear .short text digits (fullYear n) := by
  obtain ⟨blanks, numeral, -, hle⟩ := h
  exact ⟨_, .short blanks numeral hle⟩

theorem exists_looseYear_of_year? (h : year? text = some (year, rest)) :
    ∃ piece digits, text = piece ++ rest ∧ LooseYear .long piece digits year := by
  obtain ⟨blank, htext, hblank⟩ := exists_blank text
  unfold year? at h
  split at h
  next left hleft =>
    obtain ⟨⟨n, _⟩, hdigits, heq⟩ := Option.map_eq_some_iff.1 h
    cases heq
    obtain ⟨run, rfl, numeral, -, -⟩ := exists_numeral_of_digits? hdigits
    exact ⟨_, run, by rw [htext, hleft, List.append_assoc, List.cons_append], .plus hblank numeral⟩
  next left hleft =>
    obtain ⟨⟨n, _⟩, hdigits, heq⟩ := Option.map_eq_some_iff.1 h
    cases heq
    obtain ⟨run, rfl, numeral, -, -⟩ := exists_numeral_of_digits? hdigits
    exact ⟨_, run, by rw [htext, hleft, List.append_assoc, List.cons_append], .minus hblank numeral⟩
  next =>
    obtain ⟨⟨n, _⟩, hdigits, heq⟩ := Option.map_eq_some_iff.1 h
    cases heq
    obtain ⟨run, hrun, numeral, -, hle⟩ := exists_numeral_of_digits? hdigits
    exact ⟨_, run, by rw [htext, hrun, List.append_assoc], .long hblank numeral hle⟩

theorem exists_monthText_of_monthName? {month : Nat} (h : monthName? text = some (month, rest)) :
    ∃ piece, text = piece ++ rest ∧ MonthText piece month := by
  obtain ⟨i, hindex, heq⟩ := Option.map_eq_some_iff.1 h
  cases heq
  obtain ⟨hi, hname, -⟩ := List.findIdx?_eq_some_iff_getElem.1 hindex
  refine ⟨text.take 3, (List.take_append_drop 3 text).symm, Nat.succ_pos i, ?_⟩
  rw [Nat.add_sub_cancel, ← List.getElem?_map, ← monthNames_eq, List.getElem?_eq_getElem hi,
    beq_iff_eq.1 hname]

theorem eq_cons_of_mark? {mark : Char} (h : mark? mark text = some rest) : text = mark :: rest := by
  cases text with
  | nil => cases h
  | cons c left =>
    rw [mark?] at h
    split at h
    next hc => rw [hc, Option.some.inj h]
    · cases h

/-! ## Dates and times of day -/

/-- `LooseText clock text digits date time`: the text is the date and the time of day, in one of the
two ways, and `digits` are those of the year. -/
inductive LooseText : Clock → List Char → List Char → Date → Time → Prop
  /-- With a year in full, and seconds. -/
  | long {d b mon y h m s digits : List Char} {date : Date} {time : Time}
      (day : Padded 2 d date.day) (blanks : b.all Text.isBlank = true)
      (month : MonthText mon date.month) (year : LooseYear .long y digits date.year)
      (hour : Padded 2 h time.hour)
      (minute : Padded 2 m time.minute) (second : Padded 2 s time.second) :
      LooseText .long (d ++ (b ++ (mon ++ (y ++ (h ++ ':' :: (m ++ ':' :: s)))))) digits date time
  /-- With a year of two digits, and no seconds. -/
  | short {d b mon y h m digits : List Char} {date : Date} {time : Time} (day : Padded 2 d date.day)
      (blanks : b.all Text.isBlank = true) (month : MonthText mon date.month)
      (year : LooseYear .short y digits date.year) (hour : Padded 2 h time.hour)
      (minute : Padded 2 m time.minute) (second : time.second = 0) :
      LooseText .short (d ++ (b ++ (mon ++ (y ++ (h ++ ':' :: m))))) digits date time

/-- **Whatever is read as a date and a time of day is written so.** -/
theorem Clock.exists_looseText (h : clock.read? text = some (date, time)) :
    ∃ digits, LooseText clock text digits date time := by
  cases clock with
  | long =>
    simp only [Clock.read?, readLong?, Option.bind_eq_bind, Option.bind_eq_some_iff] at h
    obtain ⟨⟨day, r₁⟩, hday, ⟨month, r₂⟩, hmonth, ⟨year, r₃⟩, hyear, ⟨hour, r₄⟩, hhour, r₅, hcolon,
      ⟨minute, r₆⟩, hminute, r₇, hcolon', ⟨second, r₈⟩, hsecond, h⟩ := h
    split at h
    next hend =>
      obtain ⟨_, hdate, h⟩ := Option.bind_eq_some_iff.1 h
      obtain ⟨_, htime, h⟩ := Option.bind_eq_some_iff.1 h
      cases h
      obtain ⟨rfl, rfl, rfl⟩ := Date.ofParts?_eq_some_iff.1 hdate
      obtain ⟨rfl, rfl, rfl, -⟩ := Time.ofParts?_eq_some_iff.1 htime
      obtain ⟨d, rfl, day⟩ := exists_padded_of_number? hday
      obtain ⟨b, hblank, blanks⟩ := exists_blank r₁
      obtain ⟨mon, hmon, month⟩ := exists_monthText_of_monthName? hmonth
      obtain ⟨y, digits, rfl, year⟩ := exists_looseYear_of_year? hyear
      obtain ⟨h, rfl, hour⟩ := exists_padded_of_number? hhour
      obtain ⟨m, rfl, minute⟩ := exists_padded_of_number? hminute
      obtain ⟨s, rfl, second⟩ := exists_padded_of_number? hsecond
      simp only at hblank hmon hend hcolon hcolon'
      rw [hblank, hmon, eq_cons_of_mark? hcolon, eq_cons_of_mark? hcolon', hend, List.append_nil]
      exact ⟨digits, .long day blanks month year hour minute second⟩
    · cases h
  | short =>
    simp only [Clock.read?, readShort?, Option.bind_eq_bind, Option.bind_eq_some_iff] at h
    obtain ⟨⟨day, r₁⟩, hday, ⟨month, r₂⟩, hmonth, ⟨year, r₃⟩, hyear, ⟨hour, r₄⟩, hhour, r₅, hcolon,
      ⟨minute, r₆⟩, hminute, h⟩ := h
    split at h
    next hend =>
      obtain ⟨_, hdate, h⟩ := Option.bind_eq_some_iff.1 h
      obtain ⟨_, htime, h⟩ := Option.bind_eq_some_iff.1 h
      cases h
      obtain ⟨hvalue, rfl, rfl⟩ := Date.ofParts?_eq_some_iff.1 hdate
      obtain ⟨rfl, rfl, hzero, -⟩ := Time.ofParts?_eq_some_iff.1 htime
      obtain ⟨d, rfl, day⟩ := exists_padded_of_number? hday
      obtain ⟨b, hblank, blanks⟩ := exists_blank r₁
      obtain ⟨mon, hmon, month⟩ := exists_monthText_of_monthName? hmonth
      obtain ⟨y, rfl, year⟩ := exists_padded_of_number? hyear
      obtain ⟨digits, year⟩ := year.exists_looseYear
      obtain ⟨h, rfl, hour⟩ := exists_padded_of_number? hhour
      obtain ⟨m, rfl, minute⟩ := exists_padded_of_number? hminute
      simp only at hblank hmon hend hcolon
      rw [hblank, hmon, eq_cons_of_mark? hcolon, hend, List.append_nil]
      rw [← hvalue] at year
      exact ⟨digits, .short day blanks month year hour minute hzero⟩
    · cases h

/-! ## The characters of a date -/

/-- White space, letters, digits and signs: what stands between the colons of a date. -/
def isDateChar (c : Char) : Bool :=
  Text.isBlank c || c.isAlpha || c.isDigit || c == '+' || c == '-'

theorem all_isDateChar_of_blank (h : text.all Text.isBlank = true) :
    text.all isDateChar = true := by
  rw [List.all_eq_true] at h ⊢
  intro c hc
  simp only [isDateChar, h c hc, Bool.true_or]

theorem Numeral.all_isDateChar {width : Nat} (h : Numeral width text n) :
    text.all isDateChar = true := by
  rw [List.all_eq_true]
  intro c hc
  simp only [isDateChar, List.all_eq_true.1 h.digits c hc, Bool.or_true, Bool.true_or]

theorem MonthText.all_isDateChar {month : Nat} (h : MonthText text month) :
    text.all isDateChar = true := by
  rw [List.all_eq_true]
  intro c hc
  simp only [isDateChar, List.all_eq_true.1 h.letters.2 c hc, Bool.or_true, Bool.true_or]

theorem Padded.all_isDateChar (h : Padded bound text n) : text.all isDateChar = true := by
  obtain ⟨blanks, numeral, -, -⟩ := h
  rw [List.all_append, all_isDateChar_of_blank blanks, numeral.all_isDateChar, Bool.and_self]

theorem LooseYear.all_isDateChar (h : LooseYear clock text digits year) :
    text.all isDateChar = true := by
  have hplus : isDateChar '+' = true := by decide
  have hminus : isDateChar '-' = true := by decide
  cases h with
  | long blanks numeral | plus blanks numeral | minus blanks numeral | short blanks numeral =>
    simp only [List.all_append, List.all_cons, all_isDateChar_of_blank blanks,
      numeral.all_isDateChar, hplus, hminus, Bool.and_self]

/-- Two texts in front of the first character that is not of some kind. -/
theorem eq_of_append_cons {p : Char → Bool} {a b c d : List Char} {x y : Char}
    (ha : a.all p = true) (hx : p x = false) (hb : b.all p = true) (hy : p y = false)
    (h : a ++ x :: c = b ++ y :: d) : a = b ∧ x = y ∧ c = d := by
  have hrun {a c : List Char} {x : Char} (ha : a.all p = true) (hx : p x = false) :
      (a ++ x :: c).takeWhile p = a := by
    rw [List.takeWhile_append_of_pos (List.all_eq_true.1 ha),
      List.takeWhile_cons_of_neg (by simp [hx]), List.append_nil]
  obtain rfl : a = b := by rw [← hrun ha hx, h, hrun hb hy]
  exact ⟨rfl, List.cons.inj (List.append_cancel_left h)⟩

/-- A number ends where its digits end. -/
theorem Padded.eq_of_append_cons {a b c d : List Char} {m n : Nat} {x y : Char}
    (ha : Padded bound a m) (hx : x.isDigit = false) (hb : Padded bound b n)
    (hy : y.isDigit = false) (h : a ++ x :: c = b ++ y :: d) : a = b ∧ x = y ∧ c = d := by
  obtain ⟨blanks, numeral, hpos, -⟩ := ha
  obtain ⟨blanks', numeral', hpos', -⟩ := hb
  obtain ⟨e, run, rfl, he⟩ := numeral.exists_cons hpos
  obtain ⟨e', run', rfl, he'⟩ := numeral'.exists_cons hpos'
  rw [List.append_assoc, List.append_assoc, List.cons_append, List.cons_append] at h
  obtain ⟨rfl, rfl, hbehind⟩ := Calendar.eq_of_append_cons blanks (isBlank_eq_false_of_isDigit he)
    blanks' (isBlank_eq_false_of_isDigit he') h
  have hrun := numeral.digits
  have hrun' := numeral'.digits
  rw [List.all_cons, he, Bool.true_and] at hrun hrun'
  obtain ⟨rfl, rfl, rfl⟩ := Calendar.eq_of_append_cons hrun hx hrun' hy hbehind
  exact ⟨rfl, rfl, rfl⟩

/-- What the minutes of a date are followed by: the seconds, or nothing. -/
theorem LooseText.exists_minute (h : LooseText clock text digits date time) :
    ∃ front minute behind n, text = front ++ ':' :: (minute ++ behind) ∧
      front.all isDateChar = true ∧ Padded 2 minute n ∧
      (clock = .short ∧ behind = [] ∨
        clock = .long ∧ ∃ second n, behind = ':' :: second ∧ Padded 2 second n) := by
  cases h with
  | @long d b mon y h m s _ _ _ day blanks month year hour minute second =>
    refine ⟨d ++ (b ++ (mon ++ (y ++ h))), m, ':' :: s, _, by simp, ?_, minute,
      .inr ⟨rfl, s, _, rfl, second⟩⟩
    simp only [List.all_append, day.all_isDateChar, all_isDateChar_of_blank blanks,
      month.all_isDateChar, year.all_isDateChar, hour.all_isDateChar, Bool.and_self]
  | @short d b mon y h m _ _ _ day blanks month year hour minute second =>
    refine ⟨d ++ (b ++ (mon ++ (y ++ h))), m, [], _, by simp, ?_, minute, .inl ⟨rfl, rfl⟩⟩
    simp only [List.all_append, day.all_isDateChar, all_isDateChar_of_blank blanks,
      month.all_isDateChar, year.all_isDateChar, hour.all_isDateChar, Bool.and_self]

/-- **A date and a time of day end at one place**: two of them that begin a text, each with a space
behind it, are the same. -/
theorem LooseText.unique {other : Clock} {digits' behind' : List Char} {date' : Date}
    {time' : Time} (h : LooseText clock front digits date time)
    (h' : LooseText other text digits' date' time')
    (heq : front ++ ' ' :: behind = text ++ ' ' :: behind') : clock = other ∧ front = text := by
  obtain ⟨a, m, x, _, rfl, ha, hm, hx⟩ := h.exists_minute
  obtain ⟨b, n, y, _, rfl, hb, hn, hy⟩ := h'.exists_minute
  rw [List.append_assoc, List.append_assoc, List.cons_append, List.cons_append, List.append_assoc,
    List.append_assoc] at heq
  obtain ⟨rfl, -, heq⟩ := eq_of_append_cons ha (by decide) hb (by decide) heq
  have hspace : ' '.isDigit = false := by decide
  have hcolon : ':'.isDigit = false := by decide
  rcases hx with ⟨rfl, rfl⟩ | ⟨rfl, s, _, rfl, hs⟩
  · rcases hy with ⟨rfl, rfl⟩ | ⟨rfl, t, _, rfl, ht⟩
    · obtain ⟨rfl, -, -⟩ := hm.eq_of_append_cons hspace hn hspace heq
      exact ⟨rfl, rfl⟩
    · obtain ⟨-, hchar, -⟩ := hm.eq_of_append_cons hspace hn hcolon heq
      exact absurd hchar (by decide)
  · rcases hy with ⟨rfl, rfl⟩ | ⟨rfl, t, _, rfl, ht⟩
    · obtain ⟨-, hchar, -⟩ := hm.eq_of_append_cons hcolon hn hspace heq
      exact absurd hchar (by decide)
    · obtain ⟨rfl, -, heq⟩ := hm.eq_of_append_cons hcolon hn hcolon heq
      obtain ⟨rfl, -, -⟩ := hs.eq_of_append_cons hspace ht hspace heq
      exact ⟨rfl, rfl⟩

/-! ## In front of the zone -/

/-- `Dated weekday clock text date time`: the text is read as the date and the time of day, behind a
day of the week if there is to be one. Only the long way has it. -/
inductive Dated : Bool → Clock → List Char → Date → Time → Prop
  /-- Without a day of the week. -/
  | plain {clock : Clock} {text : List Char} {date : Date} {time : Time}
      (read : clock.read? text = some (date, time)) : Dated false clock text date time
  /-- Behind a day of the week. -/
  | weekday {a b c : Char} {text : List Char} {date : Date} {time : Time}
      (letters : a.isAlpha ∧ b.isAlpha ∧ c.isAlpha)
      (read : Clock.long.read? text = some (date, time)) :
      Dated true .long (a :: b :: c :: ',' :: ' ' :: text) date time

theorem afterWeekday?_eq_some_iff {body : List Char} :
    afterWeekday? text = some body ↔ ∃ a b c : Char, (a.isAlpha ∧ b.isAlpha ∧ c.isAlpha) ∧
      text = a :: b :: c :: ',' :: ' ' :: body := by
  constructor
  · intro h
    unfold afterWeekday? at h
    split at h
    next a b c rest =>
      split at h
      next letters => exact ⟨a, b, c, letters, by rw [Option.some.inj h]⟩
      · cases h
    · cases h
  · rintro ⟨a, b, c, letters, rfl⟩
    exact if_pos letters

/-- **What a layout reads** is a date and a time of day, a space and a zone. -/
theorem Layout.read?_eq_some_iff (hlayout : layout ∈ Layout.all) :
    layout.read? text = some stamp ↔ ∃ front zone,
      Text.cut layout.width text = front ++ ' ' :: zone ∧ ' ' ∉ zone ∧
        Dated layout.weekday layout.clock front stamp.date stamp.time ∧
        layout.zone.read? zone = some stamp.offset := by
  have hlong : layout.weekday = true → layout.clock = .long := by
    have hall : ∀ layout ∈ Layout.all, layout.weekday = true → layout.clock = .long := by decide
    exact hall layout hlayout
  obtain ⟨weekday, clock, zone, width⟩ := layout
  simp only [Layout.read?, Layout.body?, Option.bind_eq_bind, Option.bind_eq_some_iff,
    Timestamp.ofParts?_eq_some_iff]
  constructor
  · rintro ⟨body, hbody, ⟨front, back⟩, hsplit, ⟨date, time⟩, hread, offset, hzone, rfl, rfl, rfl⟩
    obtain ⟨rfl, hback⟩ := Text.splitLast?_eq_some_iff.1 hsplit
    cases weekday with
    | false =>
      rw [if_neg Bool.false_ne_true] at hbody
      exact ⟨front, back, Option.some.inj hbody, hback, .plain hread, hzone⟩
    | true =>
      obtain rfl : clock = .long := hlong rfl
      rw [if_pos rfl] at hbody
      obtain ⟨a, b, c, letters, hcut⟩ := afterWeekday?_eq_some_iff.1 hbody
      exact ⟨_, back, hcut, hback, .weekday letters hread, hzone⟩
  · rintro ⟨front, back, hcut, hback, hdated, hzone⟩
    cases hdated with
    | plain hread =>
      exact ⟨_, if_neg Bool.false_ne_true, (front, back),
        Text.splitLast?_eq_some_iff.2 ⟨hcut, hback⟩, _, hread, _, hzone, rfl, rfl, rfl⟩
    | @weekday a b c text _ _ letters hread =>
      exact ⟨_, (if_pos rfl).trans (afterWeekday?_eq_some_iff.2 ⟨a, b, c, letters, hcut⟩),
        (text, back), Text.splitLast?_eq_some_iff.2 ⟨rfl, hback⟩, _, hread, _, hzone, rfl, rfl, rfl⟩

/-- A number begins with white space or a digit. -/
theorem Padded.exists_cons (h : Padded bound text n) :
    ∃ c rest, text = c :: rest ∧ c.isAlpha = false := by
  obtain ⟨blanks, numeral, hpos, -⟩ := h
  rename_i blank run
  cases blank with
  | nil =>
    obtain ⟨c, rest, rfl, hc⟩ := numeral.exists_cons hpos
    refine ⟨c, rest, rfl, Bool.eq_false_iff.2 fun halpha => ?_⟩
    rw [isDigit_eq_false_of_isAlpha halpha] at hc
    cases hc
  | cons c rest =>
    rw [List.all_cons, Bool.and_eq_true] at blanks
    refine ⟨c, _, rfl, Bool.eq_false_iff.2 fun halpha => ?_⟩
    rw [isBlank_eq_false_of_isAlpha halpha] at blanks
    cases blanks.1

theorem LooseText.exists_cons (h : LooseText clock text digits date time) :
    ∃ c rest, text = c :: rest ∧ c.isAlpha = false := by
  cases h with
  | long day | short day =>
    obtain ⟨c, rest, rfl, hc⟩ := day.exists_cons
    exact ⟨c, _, rfl, hc⟩

/-- **The zone has one place**: the texts in front of it that begin one text are the same, and so is
what they say. -/
theorem Dated.unique {weekday weekday' : Bool} {other : Clock} {behind' : List Char} {date' : Date}
    {time' : Time} (h : Dated weekday clock front date time)
    (h' : Dated weekday' other text date' time')
    (heq : front ++ ' ' :: behind = text ++ ' ' :: behind') :
    (weekday = weekday' ∧ clock = other ∧ front = text) ∧ date = date' ∧ time = time' := by
  have hread {clock other : Clock} {front text behind behind' : List Char}
      (hread : clock.read? front = some (date, time))
      (hread' : other.read? text = some (date', time'))
      (heq : front ++ ' ' :: behind = text ++ ' ' :: behind') :
      (clock = other ∧ front = text) ∧ date = date' ∧ time = time' := by
    obtain ⟨_, hloose⟩ := Clock.exists_looseText hread
    obtain ⟨_, hloose'⟩ := Clock.exists_looseText hread'
    obtain ⟨rfl, rfl⟩ := hloose.unique hloose' heq
    rw [hread, Option.some.injEq, Prod.mk.injEq] at hread'
    exact ⟨⟨rfl, rfl⟩, hread'⟩
  have hletter {clock : Clock} {text rest : List Char} {date : Date} {time : Time} {c : Char}
      (hread : clock.read? text = some (date, time)) (hc : c.isAlpha = true) (behind : List Char) :
      text ++ ' ' :: behind ≠ c :: rest := by
    obtain ⟨_, hloose⟩ := Clock.exists_looseText hread
    obtain ⟨d, more, rfl, hd⟩ := hloose.exists_cons
    rintro heq
    rw [(List.cons.inj heq).1, hc] at hd
    cases hd
  cases h with
  | plain read =>
    cases h' with
    | plain read' =>
      obtain ⟨⟨rfl, rfl⟩, hsame⟩ := hread read read' heq
      exact ⟨⟨rfl, rfl, rfl⟩, hsame⟩
    | weekday letters' read' => exact absurd heq (hletter read letters'.1 _)
  | weekday letters read =>
    cases h' with
    | plain read' => exact absurd heq.symm (hletter read' letters.1 _)
    | weekday letters' read' =>
      simp only [List.cons_append, List.cons.injEq, true_and] at heq
      obtain ⟨rfl, rfl, rfl, heq⟩ := heq
      obtain ⟨⟨-, rfl⟩, hsame⟩ := hread read read' heq
      exact ⟨⟨rfl, rfl, rfl⟩, hsame⟩

/-- What a layout reads in a cut text, once the place of the zone is known. -/
theorem Layout.read?_of_dated {zone : List Char} (hlayout : layout ∈ Layout.all)
    (hdated : Dated layout.weekday layout.clock front date time)
    (hcut : Text.cut layout.width text = front ++ ' ' :: zone) (hspace : ' ' ∉ zone) :
    layout.read? text = (layout.zone.read? zone).bind (Timestamp.ofParts? date time) := by
  ext stamp
  rw [Layout.read?_eq_some_iff hlayout, Option.bind_eq_some_iff]
  constructor
  · rintro ⟨front', zone', hcut', -, hdated', hzone⟩
    rw [hcut] at hcut'
    obtain ⟨⟨-, -, rfl⟩, rfl, rfl⟩ := hdated.unique hdated' hcut'
    obtain ⟨-, rfl⟩ := List.cons.inj (List.append_cancel_left hcut')
    exact ⟨_, hzone, Timestamp.ofParts?_eq_some_iff.2 ⟨rfl, rfl, rfl⟩⟩
  · rintro ⟨offset, hzone, hparts⟩
    obtain ⟨rfl, rfl, rfl⟩ := Timestamp.ofParts?_eq_some_iff.1 hparts
    exact ⟨front, zone, hcut, hspace, hdated, hzone⟩

/-- **What a date is read from**: a date and a time of day, a space and a zone, and behind them what
is cut off. -/
theorem Timestamp.exists_dated {text : String} (h : Timestamp.ofText? text = some stamp) :
    ∃ (weekday : Bool) (clock : Clock) (form : ZoneForm) (front zone rest : List Char),
      Text.trim text.toList = front ++ ' ' :: (zone ++ rest) ∧
        Dated weekday clock front stamp.date stamp.time ∧ form.read? zone = some stamp.offset := by
  obtain ⟨layout, hlayout, hread⟩ := List.exists_of_findSome?_eq_some h
  obtain ⟨front, zone, hcut, -, hdated, hzone⟩ := (Layout.read?_eq_some_iff hlayout).1 hread
  obtain ⟨rest, hrest⟩ := Text.cut_isPrefix layout.width (Text.trim text.toList)
  refine ⟨_, _, _, front, zone, rest, ?_, hdated, hzone⟩
  rw [← hrest, hcut, List.append_assoc, List.cons_append]

end MailOutline.Calendar
