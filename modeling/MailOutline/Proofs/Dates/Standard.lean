import MailOutline.Calendar.Rfc3339
import MailOutline.Proofs.Dates.Scanning

/-!
# The standard form is read back

A timestamp in the standard form, with `Z` for universal time, is read as the timestamp that was
written: with the same date, time of day and offset, leap seconds and fractions included.

* `numeral_padded`: a number that is padded with zeros has so many digits.
* `year?_yearText`, `fraction?_fractionText`: the pieces of varying length, up to the character
  behind them.
* `scanDate?_toRfc3339`, `scanTime?_toRfc3339`, `scanZone?_zoneText`: the three parts.
* `Timestamp.ofRfc3339?_toRfc3339`: all of it.
-/

namespace MailOutline.Calendar

/-! ## Digits -/

/-- The digits of a padded number. -/
theorem all_isDigit_padded (width n : Nat) :
    (Text.padded width n).toList.all Char.isDigit = true := by
  simp only [Text.padded, String.toList_ofList, List.all_append, Bool.and_eq_true, List.all_eq_true]
  refine ⟨fun c hc => ?_, fun c hc => Nat.isDigit_of_mem_toDigits (by decide) (by decide) hc⟩
  rw [List.eq_of_mem_replicate hc]
  rfl

theorem numeral_padded {width n : Nat} (h : (Nat.toDigits 10 n).length ≤ width) :
    Numeral width (Text.padded width n).toList n where
  length_eq := by
    simp only [Text.padded, String.toList_ofList, List.length_append, List.length_replicate]
    omega
  digits := all_isDigit_padded width n
  value := Text.ofDigitChars_padded width n

theorem numeral_two {n : Nat} (h : n < 100) : Numeral 2 (Text.padded 2 n).toList n :=
  numeral_padded ((Nat.length_toDigits_le_iff (by decide) (by decide)).2 h)

theorem skipBlank_colon (rest : List Char) : Text.skipBlank (':' :: rest) = ':' :: rest := rfl

theorem skipBlank_minus (rest : List Char) : Text.skipBlank ('-' :: rest) = '-' :: rest := rfl

variable {n : Nat} {rest text : List Char}

/-! ## Dates -/

/-- A year behind its sign. -/
theorem digits?_padded (n : Nat) (h : ∀ c ∈ rest.head?, c.isDigit = false) :
    digits? ((Text.padded 4 n).toList ++ rest).length ((Text.padded 4 n).toList ++ rest) =
      some (n, rest) := by
  have hne : (Text.padded 4 n).toList ≠ [] := by
    simp [Text.padded, Nat.toDigits_ne_nil]
  rw [digits?_append hne (all_isDigit_padded 4 n) (by simp) (.inr h), Text.ofDigitChars_padded]

theorem year?_plus (rest : List Char) :
    year? ('+' :: rest) = (digits? rest.length rest).map fun (n, left) => ((n : Int), left) := rfl

theorem year?_minus (rest : List Char) :
    year? ('-' :: rest) = (digits? rest.length rest).map fun (n, left) => (-(n : Int), left) := rfl

/-- **A year is read up to its last digit.** -/
theorem year?_yearText (year : Int) (h : ∀ c ∈ rest.head?, c.isDigit = false) :
    year? ((yearText year).toList ++ rest) = some (year, rest) := by
  unfold yearText
  split
  next hfour =>
    have hnumeral : Numeral 4 (Text.padded 4 year.natAbs).toList year.natAbs :=
      numeral_padded ((Nat.length_toDigits_le_iff (by decide) (by decide)).2
        (Nat.lt_of_lt_of_le (by omega : year.natAbs < 10000) (by decide)))
    have hread : year? (' ' :: ((Text.padded 4 year.natAbs).toList ++ rest)) = _ :=
      hnumeral.year?_append (by decide) (by decide) (.inl rfl)
    rwa [Int.natAbs_of_nonneg hfour.1] at hread
  next =>
    have hread := digits?_padded year.natAbs h
    split
    next hneg =>
      have hminus : "-".toList = ['-'] := rfl
      have hyear : -(year.natAbs : Int) = year := by omega
      rw [String.toList_append, hminus, List.append_assoc, List.singleton_append, year?_minus,
        hread]
      exact congrArg (fun year => some (year, rest)) hyear
    next hpos =>
      have hplus : "+".toList = ['+'] := rfl
      have hyear : (year.natAbs : Int) = year := by omega
      rw [String.toList_append, hplus, List.append_assoc, List.singleton_append, year?_plus, hread]
      exact congrArg (fun year => some (year, rest)) hyear

/-- **A date is read up to its last digit.** -/
theorem scanDate?_toRfc3339 (date : Date) (rest : List Char) :
    scanDate? (date.toRfc3339.toList ++ rest) = some (date, rest) := by
  have hday : date.day < 100 := by
    have hle := date.exists_day.2.2
    have hmonth : daysIn date.year date.month ≤ 31 := by
      unfold daysIn
      split
      · split <;> decide
      all_goals decide
    omega
  have hmonth : date.month < 100 := by
    have hle := date.exists_day.1.2
    omega
  have hdate : Date.ofParts? date.year date.month date.day = some date :=
    Date.ofParts?_eq_some_iff.2 ⟨rfl, rfl, rfl⟩
  have hminus : "-".toList = ['-'] := rfl
  have hstop : ∀ rest : List Char, ∀ c ∈ ('-' :: rest).head?, c.isDigit = false := by
    intro rest c hc
    cases hc
    decide
  simp only [Date.toRfc3339, scanDate?, String.toList_append, List.append_assoc, hminus,
    List.cons_append, List.nil_append, year?_yearText _ (hstop _), skipBlank_minus, mark?_self,
    (numeral_two hmonth).number?_append, (numeral_two hday).number?_append, hdate,
    Option.bind_eq_bind, Option.bind_some, Option.pure_def]

/-! ## Times of day -/

theorem fraction?_of_head (h : ∀ c ∈ rest.head?, c ≠ '.') : fraction? rest = some (0, rest) := by
  unfold fraction?
  split
  next text => exact absurd rfl (h '.' rfl)
  next => rfl

/-- A fraction of so many digits. -/
theorem fraction?_padded {width : Nat} (hpos : 0 < width) (hle : width ≤ 9)
    (hlen : (Nat.toDigits 10 n).length ≤ width) (hstop : ∀ c ∈ rest.head?, c.isDigit = false) :
    fraction? (("." ++ Text.padded width n).toList ++ rest) =
      some (n * Nat.pow 10 (9 - width), rest) := by
  have hdot : ".".toList = ['.'] := rfl
  have hnumeral := numeral_padded hlen
  have hrest : rest.dropWhile Char.isDigit = rest := by
    cases rest with
    | nil => rfl
    | cons c rest => exact List.dropWhile_cons_of_neg (by simp [hstop c rfl])
  have hwidth : ((Text.padded width n).toList ++ rest).length - rest.length = width := by
    rw [List.length_append, hnumeral.length_eq, Nat.add_sub_cancel]
  rw [String.toList_append, hdot, List.append_assoc, List.singleton_append]
  simp only [fraction?, hnumeral.digits?_append hpos hle (.inr hstop), Option.bind_eq_bind,
    Option.bind_some, Option.pure_def, hrest, hwidth]

/-- **A fraction is read up to its last digit**, and so is the absence of one. -/
theorem fraction?_fractionText {nano : Nat} (h : nano < 1000000000)
    (hstop : ∀ c ∈ rest.head?, c.isDigit = false) (hpoint : ∀ c ∈ rest.head?, c ≠ '.') :
    fraction? ((fractionText nano).toList ++ rest) = some (nano, rest) := by
  unfold fractionText
  split
  next hzero =>
    rw [hzero]
    exact fraction?_of_head hpoint
  next =>
    split
    next =>
      have hlen : (Nat.toDigits 10 (nano / 1000000)).length ≤ 3 :=
        (Nat.length_toDigits_le_iff (by decide) (by decide)).2
          (Nat.lt_of_lt_of_le (by omega : nano / 1000000 < 1000) (by decide))
      have hvalue : nano / 1000000 * 1000000 = nano := by omega
      rw [fraction?_padded (by decide) (by decide) hlen hstop]
      exact congrArg (fun nano => some (nano, rest)) hvalue
    next =>
      split
      next =>
        have hlen : (Nat.toDigits 10 (nano / 1000)).length ≤ 6 :=
          (Nat.length_toDigits_le_iff (by decide) (by decide)).2
            (Nat.lt_of_lt_of_le (by omega : nano / 1000 < 1000000) (by decide))
        have hvalue : nano / 1000 * 1000 = nano := by omega
        rw [fraction?_padded (by decide) (by decide) hlen hstop]
        exact congrArg (fun nano => some (nano, rest)) hvalue
      next =>
        have hlen : (Nat.toDigits 10 nano).length ≤ 9 :=
          (Nat.length_toDigits_le_iff (by decide) (by decide)).2
            (Nat.lt_of_lt_of_le h (by decide))
        rw [fraction?_padded (by decide) (by decide) hlen hstop]
        exact congrArg (fun nano => some (nano, rest)) (Nat.mul_one nano)

/-- **A time of day is read up to its last digit.** -/
theorem scanTime?_toRfc3339 (time : Time) (hstop : ∀ c ∈ rest.head?, c.isDigit = false)
    (hpoint : ∀ c ∈ rest.head?, c ≠ '.') :
    scanTime? (time.toRfc3339.toList ++ rest) = some (time, rest) := by
  obtain ⟨hhour, hminute, hsecond, hnano⟩ := time.exists_time
  have hour := numeral_two (Nat.lt_trans hhour (by decide))
  have minute := numeral_two (Nat.lt_trans hminute (by decide))
  have second := numeral_two (Nat.lt_of_le_of_lt hsecond (by decide))
  have htime : Time.ofParts? time.hour time.minute time.second time.nano = some time :=
    Time.ofParts?_eq_some_iff.2 ⟨rfl, rfl, rfl, rfl⟩
  have hcolon : ":".toList = [':'] := rfl
  simp only [Time.toRfc3339, scanTime?, String.toList_append, List.append_assoc, hcolon,
    List.cons_append, List.nil_append, hour.number?_append, minute.number?_append,
    second.number?_append, skipBlank_colon, mark?_self, fraction?_fractionText hnano hstop hpoint,
    htime, Option.bind_eq_bind, Option.bind_some, Option.pure_def]

/-! ## Zones -/

/-- Hours and minutes in two digits each, with a colon between them. -/
theorem hoursAndMinutes?_padded {hours minutes : Nat} (hhours : hours < 100)
    (hminutes : minutes < 60) :
    hoursAndMinutes? ((Text.padded 2 hours).toList ++ ':' :: (Text.padded 2 minutes).toList) =
      some (hours * 60 + minutes, []) := by
  have hdigits := all_isDigit_padded 2 minutes
  obtain ⟨a, b, x, y, hpair, ha, hb, hxy⟩ := (numeral_two hhours).exists_pair
  obtain ⟨c, d, z, w, hother, hc, hd, hzw⟩ := (numeral_two (n := minutes) (by omega)).exists_pair
  rw [hother, List.all_cons, Bool.and_eq_true] at hdigits
  have hskip : (':' :: [c, d]).dropWhile (fun c => c == ':' || Text.isBlank c) = [c, d] := by
    have hne : (c == ':') = false := by
      rw [beq_eq_false_iff_ne]
      rintro rfl
      exact absurd hdigits.1 (by decide)
    rw [List.dropWhile_cons_of_pos (by decide), List.dropWhile_cons_of_neg (by
      simp [hne, isBlank_eq_false_of_isDigit hdigits.1])]
  rw [hpair, hother]
  simp only [List.cons_append, List.nil_append, hoursAndMinutes?, ha, hb, hskip, hc, hd,
    Option.bind_eq_bind, Option.bind_some, Option.pure_def]
  rw [if_pos (by omega), hxy, hzw]

/-- **A zone is read as it is written.** -/
theorem scanZone?_zoneText {offset : Int} (h : offset.natAbs < 24 * 60) :
    scanZone? (zoneText "Z" offset).toList = some (offset, []) := by
  have hcolon : ":".toList = [':'] := rfl
  have hread := @hoursAndMinutes?_padded (offset.natAbs / 60) (offset.natAbs % 60) (by omega)
    (Nat.mod_lt _ (by decide))
  have hvalue : offset.natAbs / 60 * 60 + offset.natAbs % 60 = offset.natAbs := by omega
  rw [hvalue] at hread
  unfold zoneText
  split
  next hzero =>
    rw [hzero]
    rfl
  next =>
    split
    next hneg =>
      have hminus : "-".toList = ['-'] := rfl
      have hoffset : -(offset.natAbs : Int) = offset := by omega
      simp only [String.toList_append, hminus, hcolon, List.append_assoc, List.cons_append,
        List.nil_append, scanZone?, hread, Option.map_some, hoffset]
    next =>
      have hplus : "+".toList = ['+'] := rfl
      have hoffset : (offset.natAbs : Int) = offset := by omega
      simp only [String.toList_append, hplus, hcolon, List.append_assoc, List.cons_append,
        List.nil_append, scanZone?, hread, Option.map_some, hoffset]

/-- A zone begins with its sign or with the letter of universal time. -/
theorem exists_zoneText_eq_cons (offset : Int) :
    ∃ c rest, (zoneText "Z" offset).toList = c :: rest ∧ (c = 'Z' ∨ c = '-' ∨ c = '+') := by
  unfold zoneText
  split
  · exact ⟨'Z', [], rfl, .inl rfl⟩
  · split
    · have hminus : "-".toList = ['-'] := rfl
      simp only [String.toList_append, hminus, List.append_assoc]
      exact ⟨'-', _, rfl, .inr (.inl rfl)⟩
    · have hplus : "+".toList = ['+'] := rfl
      simp only [String.toList_append, hplus, List.append_assoc]
      exact ⟨'+', _, rfl, .inr (.inr rfl)⟩

/-! ## Timestamps -/

/-- The letter between a date and a time of day. -/
theorem mark?_letter (rest : List Char) :
    (mark? 'T' ('T' :: rest) <|> mark? 't' ('T' :: rest) <|> mark? ' ' ('T' :: rest)) =
      some rest := rfl

/-- **A timestamp in the standard form is read back**: its date, its time of day with a leap second
and a fraction, and its offset. -/
theorem Timestamp.ofRfc3339?_toRfc3339 (stamp : Timestamp) :
    Timestamp.ofRfc3339? (stamp.toRfc3339 "Z") = some stamp := by
  have hstamp : Timestamp.ofParts? stamp.date stamp.time stamp.offset = some stamp :=
    Timestamp.ofParts?_eq_some_iff.2 ⟨rfl, rfl, rfl⟩
  have hletter : "T".toList = ['T'] := rfl
  have hread := scanZone?_zoneText stamp.canTell.1
  obtain ⟨c, rest, hzone, hc⟩ := exists_zoneText_eq_cons stamp.offset
  have hdigit : c.isDigit = false := by rcases hc with rfl | rfl | rfl <;> rfl
  have hpoint : c ≠ '.' := by rcases hc with rfl | rfl | rfl <;> decide
  have hblank : Text.isBlank c = false := by rcases hc with rfl | rfl | rfl <;> rfl
  have htime : scanTime? (stamp.time.toRfc3339.toList ++ c :: rest) =
      some (stamp.time, c :: rest) := by
    refine scanTime?_toRfc3339 stamp.time (fun d hd => ?_) fun d hd => ?_
    · cases hd
      exact hdigit
    · cases hd
      exact hpoint
  rw [hzone] at hread
  have hend : Text.skipBlank [] = [] := rfl
  simp only [Timestamp.toRfc3339, Timestamp.ofRfc3339?, String.toList_append, List.append_assoc,
    hletter, List.cons_append, List.nil_append, scanDate?_toRfc3339, mark?_letter, hzone, htime,
    skipBlank_cons hblank, hread, hend, if_true, hstamp, Option.bind_eq_bind, Option.bind_some]

end MailOutline.Calendar
