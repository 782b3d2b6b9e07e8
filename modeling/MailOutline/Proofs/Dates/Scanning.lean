import MailOutline.Proofs.Dates.Written

/-!
# What the scans make of a written date

A scan that begins at a written piece answers with its value and stops behind it.

* `Numeral.number?_append`, `DayText.number?_append`, `MonthText.monthName?_append`,
  `Numeral.year?_append`: the pieces of a date.
* `ClockText.read?_append`: a date and a time of day are read as they are written, if nothing stands
  behind them.
* `ClockText.stuck_long`, `ClockText.exists_stuck_short`: in the other of the two ways they are not
  read at all.
* `ZoneText.read?_self`, `ZoneText.read?_take`: a zone is read as it is written, and a beginning of
  it denotes the same offset or none.
-/

namespace MailOutline.Calendar

/-! ## Characters -/

theorem toNat_of_isDigit {c : Char} (h : c.isDigit = true) : 48 ≤ c.toNat ∧ c.toNat ≤ 57 := by
  rw [Char.isDigit, Bool.and_eq_true, decide_eq_true_eq, decide_eq_true_eq] at h
  exact ⟨UInt32.le_iff_toNat_le.1 h.1, UInt32.le_iff_toNat_le.1 h.2⟩

theorem toNat_of_isAlpha {c : Char} (h : c.isAlpha = true) :
    (65 ≤ c.toNat ∧ c.toNat ≤ 90) ∨ (97 ≤ c.toNat ∧ c.toNat ≤ 122) := by
  rcases Bool.or_eq_true_iff.1 h with hupper | hlower
  · have hrange : 'A'.val ≤ c.val ∧ c.val ≤ 'Z'.val := of_decide_eq_true hupper
    exact .inl ⟨UInt32.le_iff_toNat_le.1 hrange.1, UInt32.le_iff_toNat_le.1 hrange.2⟩
  · obtain ⟨hge, hle⟩ := Bool.and_eq_true_iff.1 hlower
    have hfirst : 'a'.val ≤ c.val := of_decide_eq_true hge
    have hlast : c.val ≤ 'z'.val := of_decide_eq_true hle
    exact .inr ⟨UInt32.le_iff_toNat_le.1 hfirst, UInt32.le_iff_toNat_le.1 hlast⟩

theorem isDigit_eq_false_of_isAlpha {c : Char} (h : c.isAlpha = true) : c.isDigit = false := by
  rw [Bool.eq_false_iff]
  intro hdigit
  have halpha := toNat_of_isAlpha h
  have hrange := toNat_of_isDigit hdigit
  omega

theorem isBlank_eq_false_of_isDigit {c : Char} (h : c.isDigit = true) : Text.isBlank c = false := by
  have hrange := toNat_of_isDigit h
  simp only [Text.isBlank, Bool.or_eq_false_iff, Bool.and_eq_false_iff, decide_eq_false_iff_not,
    beq_eq_false_iff_ne]
  omega

theorem isBlank_eq_false_of_isAlpha {c : Char} (h : c.isAlpha = true) : Text.isBlank c = false := by
  have hrange := toNat_of_isAlpha h
  simp only [Text.isBlank, Bool.or_eq_false_iff, Bool.and_eq_false_iff, decide_eq_false_iff_not,
    beq_eq_false_iff_ne]
  omega

/-- A character is a letter if its lower case is one. -/
theorem isAlpha_of_toLower {c : Char} (h : c.toLower.isAlpha = true) : c.isAlpha = true := by
  by_cases hupper : 'A'.val ≤ c.val ∧ c.val ≤ 'Z'.val
  · exact Bool.or_eq_true_iff.2 (.inl (decide_eq_true hupper))
  · rwa [show c.toLower = c from dif_neg hupper] at h

theorem all_isAlpha_of_toLower {text word : List Char} (hword : word.all Char.isAlpha = true)
    (h : text.map Char.toLower = word) : text.all Char.isAlpha = true := by
  rw [List.all_eq_true]
  intro c hc
  refine isAlpha_of_toLower (List.all_eq_true.1 hword _ ?_)
  rw [← h]
  exact List.mem_map_of_mem hc

theorem skipBlank_cons {c : Char} (h : Text.isBlank c = false) (rest : List Char) :
    Text.skipBlank (c :: rest) = c :: rest :=
  List.dropWhile_cons_of_neg (by simp [h])

theorem skipBlank_space (rest : List Char) :
    Text.skipBlank (' ' :: rest) = Text.skipBlank rest := rfl

theorem isDigit_head_space (rest : List Char) :
    ∀ c ∈ (' ' :: rest).head?, c.isDigit = false := by
  intro c hc
  cases hc
  decide

variable {n day month : Nat} {text front rest tail : List Char} {year offset : Int}
  {clock : Clock} {form : ZoneForm} {date : Date} {time : Time}

/-! ## Numbers -/

/-- A run of digits is read as a whole if it is as long as it may be, or no digit follows. -/
theorem digits?_append {width : Nat} {run : List Char} (hne : run ≠ [])
    (hrun : run.all Char.isDigit = true) (hle : run.length ≤ width)
    (hstop : run.length = width ∨ ∀ c ∈ rest.head?, c.isDigit = false) :
    digits? width (run ++ rest) = some (Nat.ofDigitChars 10 run 0, rest) := by
  have htail : (rest.take (width - run.length)).takeWhile Char.isDigit = [] := by
    rcases hstop with heq | hhead
    · rw [heq, Nat.sub_self, List.take_zero, List.takeWhile_nil]
    · cases rest with
      | nil => rw [List.take_nil, List.takeWhile_nil]
      | cons c rest =>
        cases width - run.length with
        | zero => rw [List.take_zero, List.takeWhile_nil]
        | succ k => exact List.takeWhile_cons_of_neg (by simp [hhead c rfl])
  have hread : ((run ++ rest).take width).takeWhile Char.isDigit = run := by
    rw [List.take_append, List.take_of_length_le hle,
      List.takeWhile_append_of_pos (List.all_eq_true.1 hrun), htail, List.append_nil]
  simp only [digits?, hread, if_neg hne, List.drop_left]

theorem Numeral.exists_cons {width : Nat} (h : Numeral width text n) (hpos : 0 < width) :
    ∃ c rest, text = c :: rest ∧ c.isDigit = true := by
  obtain ⟨hlen, hdigits, -⟩ := h
  cases text with
  | nil => exact absurd hlen (Nat.ne_of_lt hpos)
  | cons c rest =>
    rw [List.all_cons, Bool.and_eq_true] at hdigits
    exact ⟨c, rest, rfl, hdigits.1⟩

theorem Numeral.exists_append {m k : Nat} (h : Numeral (m + k) text n) :
    ∃ front back a b, text = front ++ back ∧ Numeral m front a ∧ Numeral k back b := by
  obtain ⟨hlen, hdigits, -⟩ := h
  rw [← List.take_append_drop m text, List.all_append, Bool.and_eq_true] at hdigits
  refine ⟨text.take m, text.drop m, _, _, (List.take_append_drop m text).symm,
    ⟨?_, hdigits.1, rfl⟩, ⟨?_, hdigits.2, rfl⟩⟩
  · rw [List.length_take]
    omega
  · rw [List.length_drop]
    omega

/-- White space in front of a number does not count, and a number has none. -/
theorem Numeral.skipBlank_append {width : Nat} (h : Numeral width text n) (hpos : 0 < width)
    (rest : List Char) : Text.skipBlank (text ++ rest) = text ++ rest := by
  obtain ⟨c, text, rfl, hc⟩ := h.exists_cons hpos
  exact skipBlank_cons (isBlank_eq_false_of_isDigit hc) _

theorem Numeral.digits?_append {width bound : Nat} (h : Numeral width text n) (hpos : 0 < width)
    (hle : width ≤ bound) (hstop : width = bound ∨ ∀ c ∈ rest.head?, c.isDigit = false) :
    digits? bound (text ++ rest) = some (n, rest) := by
  have hne : text ≠ [] := by
    obtain ⟨c, rest, rfl, -⟩ := h.exists_cons hpos
    exact List.cons_ne_nil c rest
  obtain ⟨rfl, hdigits, rfl⟩ := h
  exact Calendar.digits?_append hne hdigits hle hstop

/-- **A number of two digits is read**, whatever follows. -/
theorem Numeral.number?_append (h : Numeral 2 text n) (rest : List Char) :
    number? 2 (text ++ rest) = some (n, rest) := by
  rw [number?, h.skipBlank_append (by decide)]
  exact h.digits?_append (by decide) (Nat.le_refl 2) (.inl rfl)

theorem number?_space (width : Nat) (rest : List Char) :
    number? width (' ' :: rest) = number? width rest := rfl

/-! ## The pieces of a date -/

theorem DayText.length_le (h : DayText text day) :
    1 ≤ text.length ∧ text.length ≤ 2 := by
  cases h with
  | one numeral => simp [numeral.length_eq]
  | two numeral => simp [numeral.length_eq]

/-- **The day is read** up to the space behind it. -/
theorem DayText.number?_append (h : DayText text day) (rest : List Char) :
    number? 2 (text ++ ' ' :: rest) = some (day, ' ' :: rest) := by
  cases h with
  | one numeral =>
    rw [number?, numeral.skipBlank_append (by decide)]
    exact numeral.digits?_append (by decide) (by decide) (.inr (isDigit_head_space rest))
  | two numeral => exact numeral.number?_append _

/-- The names of the months that are read are those that are written, in lower case. -/
theorem monthNames_eq :
    monthNames = monthWords.map fun word => word.toList.map Char.toLower := by
  decide

theorem MonthText.getElem?_monthNames (h : MonthText text month) :
    monthNames[month - 1]? = some (text.map Char.toLower) := by
  rw [monthNames_eq, List.getElem?_map]
  exact h.word

theorem MonthText.letters (h : MonthText text month) :
    text.length = 3 ∧ text.all Char.isAlpha = true := by
  have hmem := List.mem_of_getElem? h.getElem?_monthNames
  have hnames : ∀ name ∈ monthNames, name.length = 3 ∧ name.all Char.isAlpha = true := by decide
  obtain ⟨hlen, hletters⟩ := hnames _ hmem
  rw [List.length_map] at hlen
  exact ⟨hlen, all_isAlpha_of_toLower hletters rfl⟩

theorem findIdx?_eq_some_of_nodup {α : Type} [BEq α] [LawfulBEq α] {l : List α} (hnodup : l.Nodup)
    {i : Nat} {a : α} (h : l[i]? = some a) : l.findIdx? (· == a) = some i := by
  rw [List.findIdx?_eq_some_iff_getElem]
  obtain ⟨hi, ha⟩ := List.getElem?_eq_some_iff.1 h
  refine ⟨hi, by simp [ha], fun j hj => ?_⟩
  have hne := List.pairwise_iff_getElem.1 hnodup j i (by omega) hi hj
  rw [ha] at hne
  simpa using hne

/-- **The month is read**, in any case, whatever follows. -/
theorem MonthText.monthName?_append (h : MonthText text month) (rest : List Char) :
    monthName? (text ++ rest) = some (month, rest) := by
  obtain ⟨hlen, -⟩ := h.letters
  have hnodup : monthNames.Nodup := by decide
  have hindex := findIdx?_eq_some_of_nodup hnodup h.getElem?_monthNames
  rw [monthName?, ← hlen, List.take_left, hindex, List.drop_left, Option.map_some,
    Nat.sub_add_cancel h.pos]

/-- White space in front of a month does not count. -/
theorem MonthText.skipBlank_append (h : MonthText text month) (rest : List Char) :
    Text.skipBlank (' ' :: (text ++ rest)) = text ++ rest := by
  obtain ⟨hlen, hletters⟩ := h.letters
  cases text with
  | nil => cases hlen
  | cons c text =>
    rw [List.all_cons, Bool.and_eq_true] at hletters
    rw [skipBlank_space]
    exact skipBlank_cons (isBlank_eq_false_of_isAlpha hletters.1) _

/-- A year without a sign. -/
theorem Numeral.year?_append {width : Nat} (h : Numeral width text n) (hpos : 0 < width)
    (hle : width ≤ 4) (hstop : width = 4 ∨ ∀ c ∈ rest.head?, c.isDigit = false) :
    year? (' ' :: (text ++ rest)) = some ((n : Int), rest) := by
  have hread := h.digits?_append hpos hle hstop
  obtain ⟨c, text, rfl, hc⟩ := h.exists_cons hpos
  rw [year?, skipBlank_space, List.cons_append, skipBlank_cons (isBlank_eq_false_of_isDigit hc)]
  split
  next heq =>
    cases heq
    exact absurd hc (by decide)
  next heq =>
    cases heq
    exact absurd hc (by decide)
  · rw [← List.cons_append, hread]
    rfl

theorem YearText.exists_numeral_long (h : YearText .long text year) :
    ∃ n : Nat, Numeral 4 text n ∧ year = n := by
  cases h with
  | long numeral => exact ⟨_, numeral, rfl⟩

/-- **Two digits of a year stand for the years from 1970 to 2069.** -/
theorem YearText.exists_numeral_short (h : YearText .short text year) :
    ∃ n : Nat, Numeral 2 text n ∧ year = fullYear n := by
  cases h with
  | late numeral le =>
    refine ⟨_, numeral, ?_⟩
    rw [fullYear, if_pos (by omega)]
    rfl
  | early numeral ge =>
    refine ⟨_, numeral, ?_⟩
    rw [fullYear, if_neg (by omega)]
    rfl

/-! ## The two ways -/

theorem mark?_self (mark : Char) (rest : List Char) : mark? mark (mark :: rest) = some rest :=
  if_pos rfl

theorem mark?_of_space (h : ∀ c ∈ tail.head?, c = ' ') : mark? ':' tail = none := by
  cases tail with
  | nil => rfl
  | cons c tail =>
    obtain rfl : c = ' ' := h c rfl
    rfl

/-- **A date and a time of day are read**, and nothing may follow. -/
theorem ClockText.read?_append (h : ClockText clock front date time) (tail : List Char) :
    clock.read? (front ++ tail) = if tail = [] then some (date, time) else none := by
  have hdate : Date.ofParts? date.year date.month date.day = some date :=
    Date.ofParts?_eq_some_iff.2 ⟨rfl, rfl, rfl⟩
  have htime : Time.ofParts? time.hour time.minute time.second time.nano = some time :=
    Time.ofParts?_eq_some_iff.2 ⟨rfl, rfl, rfl, rfl⟩
  cases h with
  | long day month year hour minute second nano =>
    obtain ⟨n, year, hyear⟩ := year.exists_numeral_long
    rw [hyear] at hdate
    rw [nano] at htime
    simp only [Clock.read?, readLong?, List.append_assoc, List.cons_append, day.number?_append,
      month.skipBlank_append, month.monthName?_append,
      year.year?_append (by decide) (by decide) (.inl rfl), number?_space, hour.number?_append,
      minute.number?_append, second.number?_append, mark?_self, hdate, htime, Option.bind_eq_bind,
      Option.bind_some, Option.pure_def]
  | short day month year hour minute second nano =>
    obtain ⟨n, year, hyear⟩ := year.exists_numeral_short
    rw [hyear] at hdate
    rw [second, nano] at htime
    simp only [Clock.read?, readShort?, List.append_assoc, List.cons_append, day.number?_append,
      month.skipBlank_append, month.monthName?_append, year.number?_append, number?_space,
      hour.number?_append, minute.number?_append, mark?_self, hdate, htime, Option.bind_eq_bind,
      Option.bind_some, Option.pure_def]

theorem ClockText.read?_self (h : ClockText clock front date time) :
    clock.read? front = some (date, time) := by
  have hread := h.read?_append []
  rwa [List.append_nil, if_pos rfl] at hread

/-- Nothing that begins with `head`, and ends there or goes on with a space, is a date and a time of
day in this way. -/
def Clock.Stuck (clock : Clock) (head : List Char) : Prop :=
  ∀ tail : List Char, (∀ c ∈ tail.head?, c = ' ') → clock.read? (head ++ tail) = none

/-- Behind a letter there is no day. -/
theorem Clock.stuck_of_isAlpha (clock : Clock) {c : Char} (hc : c.isAlpha = true)
    (rest : List Char) : clock.Stuck (c :: rest) := by
  intro tail _
  have hday : number? 2 (c :: (rest ++ tail)) = none := by
    rw [number?, skipBlank_cons (isBlank_eq_false_of_isAlpha hc), digits?, List.take_succ_cons,
      List.takeWhile_cons_of_neg (by simp [isDigit_eq_false_of_isAlpha hc])]
    rfl
  cases clock <;>
    simp only [Clock.read?, readLong?, readShort?, List.cons_append, hday, Option.bind_eq_bind,
      Option.bind_none]

/-- **The short way is not taken for the long way**: the seconds are missing. -/
theorem ClockText.stuck_long (h : ClockText .short front date time) :
    Clock.long.Stuck front := by
  intro tail htail
  cases h with
  | short day month year hour minute second nano =>
    obtain ⟨n, year, -⟩ := year.exists_numeral_short
    simp only [Clock.read?, readLong?, List.append_assoc, List.cons_append, day.number?_append,
      month.skipBlank_append, month.monthName?_append,
      year.year?_append (by decide) (by decide) (.inr (isDigit_head_space _)), number?_space,
      hour.number?_append, minute.number?_append, mark?_self, mark?_of_space htail,
      Option.bind_eq_bind, Option.bind_some, Option.bind_none]

/-- **The long way is not taken for the short way**: two digits of the year are read as the year and
two as the hour, and there is no minute behind them. -/
theorem ClockText.exists_stuck_short (h : ClockText .long front date time) :
    ∃ head rest, front = head ++ ' ' :: rest ∧ head.length ≤ 11 ∧ Clock.short.Stuck head := by
  cases h with
  | @long d mon y h m s _ _ day month year hour minute second nano =>
    obtain ⟨_, year, -⟩ := year.exists_numeral_long
    obtain ⟨century, rest, _, _, rfl, hcentury, hrest⟩ := year.exists_append (m := 2) (k := 2)
    refine ⟨d ++ ' ' :: mon ++ ' ' :: (century ++ rest), h ++ ':' :: m ++ ':' :: s, by simp, ?_, ?_⟩
    · have hday := day.length_le
      have hmonth := month.letters.1
      have hyear := year.length_eq
      simp only [List.length_append, List.length_cons] at hyear ⊢
      omega
    · intro tail htail
      simp only [Clock.read?, readShort?, List.append_assoc, List.cons_append, day.number?_append,
        month.skipBlank_append, month.monthName?_append, number?_space, hcentury.number?_append,
        hrest.number?_append, mark?_of_space htail, Option.bind_eq_bind, Option.bind_some,
        Option.bind_none]

/-! ## Zones -/

theorem numericOffset?_eq_none {zone : List Char} (h : zone.length ≠ 5) :
    numericOffset? zone = none := by
  unfold numericOffset?
  split
  · exact absurd rfl h
  · exact absurd rfl h
  · rfl

/-- The names that are read are those of the table. -/
theorem zoneHours_range (name : List Char) : -8 ≤ zoneHours name ∧ zoneHours name ≤ 0 := by
  unfold zoneHours
  split <;> decide

theorem zoneHours_of_mem {name : String} {hours : Int} (h : (name, hours) ∈ zoneTable) :
    zoneHours (name.toList.map Char.toLower) = hours := by
  have htable : ∀ entry ∈ zoneTable, zoneHours (entry.1.toList.map Char.toLower) = entry.2 := by
    decide
  exact htable _ h

theorem zoneHours_of_unlisted {zone : List Char}
    (h : ∀ entry ∈ zoneTable, zone ≠ entry.1.toList.map Char.toLower) : zoneHours zone = 0 := by
  have hnames : zone ∉ zoneTable.map fun entry => entry.1.toList.map Char.toLower := by
    intro hmem
    obtain ⟨entry, hentry, heq⟩ := List.mem_map.1 hmem
    exact h entry hentry heq.symm
  unfold zoneHours
  split
  case h_9 => rfl
  all_goals exact absurd (by decide) hnames

theorem zoneHours_of_length {zone : List Char} (h : zone.length ≠ 3) : zoneHours zone = 0 := by
  refine zoneHours_of_unlisted fun entry hentry heq => h ?_
  have htable : ∀ entry ∈ zoneTable, (entry.1.toList.map Char.toLower).length = 3 := by decide
  rw [heq]
  exact htable entry hentry

/-- No name of the table begins with a name of universal time. -/
theorem zoneHours_of_take {zone : List Char} {k : Nat}
    (h : zone.take k = ['u', 't'] ∨ zone.take k = ['z']) : zoneHours zone = 0 := by
  refine zoneHours_of_unlisted fun entry hentry heq => ?_
  have htable : ∀ entry ∈ zoneTable, (entry.1.toList.map Char.toLower).head? ≠ some 'u' ∧
      (entry.1.toList.map Char.toLower).head? ≠ some 'z' := by
    decide
  rw [← List.take_append_drop k zone] at heq
  rcases h with h | h
  · refine (htable entry hentry).1 ?_
    rw [← heq, h]
    rfl
  · refine (htable entry hentry).2 ?_
    rw [← heq, h]
    rfl

theorem ZoneText.letters (h : ZoneText .named text offset) :
    text.length = 3 ∧ text.all Char.isAlpha = true := by
  cases h with
  | @named _ name hours mem same =>
    have htable : ∀ entry ∈ zoneTable, (entry.1.toList.map Char.toLower).length = 3 ∧
        (entry.1.toList.map Char.toLower).all Char.isAlpha = true := by
      decide
    obtain ⟨hlen, hletters⟩ := htable _ mem
    rw [← same, List.length_map] at hlen
    exact ⟨hlen, all_isAlpha_of_toLower hletters same⟩
  | other letters unlisted => simp [letters]

theorem ZoneText.zoneHours_eq (h : ZoneText .named text offset) :
    zoneHours (text.map Char.toLower) * 60 = offset := by
  cases h with
  | named mem same => rw [same, zoneHours_of_mem mem, Int.mul_comm]
  | other letters unlisted => rw [zoneHours_of_unlisted unlisted, Int.zero_mul]

/-- Any part of a name in front of it is refused, or is universal time where the name is. -/
theorem ZoneText.namedOffset?_take (h : ZoneText .named text offset) (k : Nat) :
    namedOffset? (text.take k) = none ∨ namedOffset? (text.take k) = some offset := by
  obtain ⟨hlen, hletters⟩ := h.letters
  by_cases hk : 3 ≤ k
  · right
    rw [List.take_of_length_le (by omega), ← h.zoneHours_eq]
    exact if_pos ⟨hletters, .inl (by omega)⟩
  · have hshort : (text.take k).length = k := by
      rw [List.length_take]
      omega
    rw [namedOffset?]
    split
    next hname =>
      right
      have hcut : (text.map Char.toLower).take k = ['u', 't'] ∨
          (text.map Char.toLower).take k = ['z'] := by
        rw [← List.map_take]
        exact hname.2.resolve_left (by omega)
      have hhours : zoneHours ((text.take k).map Char.toLower) = 0 :=
        zoneHours_of_length (by rw [List.length_map]; omega)
      rw [hhours, ← h.zoneHours_eq, zoneHours_of_take hcut]
    · exact .inl rfl

theorem Numeral.exists_pair (h : Numeral 2 text n) :
    ∃ a b x y, text = [a, b] ∧ digit? a = some x ∧ digit? b = some y ∧ 10 * x + y = n := by
  obtain ⟨hlen, hdigits, hvalue⟩ := h
  match text, hlen with
  | [a, b], _ =>
    simp only [List.all_cons, List.all_nil, Bool.and_true, Bool.and_eq_true] at hdigits
    rw [Nat.ofDigitChars_cons, Nat.ofDigitChars_cons, Nat.ofDigitChars_nil, Nat.mul_zero,
      Nat.zero_add] at hvalue
    exact ⟨a, b, _, _, rfl, if_pos hdigits.1, if_pos hdigits.2, hvalue⟩

/-- Hours and minutes in two digits each. -/
theorem exists_minutesOf? {h m : List Char} {hours minutes : Nat} (hour : Numeral 2 h hours)
    (hour_le : hours ≤ 23) (minute : Numeral 2 m minutes) (minute_le : minutes ≤ 59) :
    ∃ a b c d, h ++ m = [a, b, c, d] ∧ minutesOf? a b c d = some (60 * hours + minutes) := by
  obtain ⟨a, b, x, y, rfl, ha, hb, rfl⟩ := hour.exists_pair
  obtain ⟨c, d, z, w, rfl, hc, hd, rfl⟩ := minute.exists_pair
  refine ⟨a, b, c, d, rfl, ?_⟩
  simp only [minutesOf?, ha, hb, hc, hd, Option.bind_eq_bind, Option.bind_some]
  rw [if_pos ⟨by omega, by omega⟩, Nat.mul_comm]

theorem isDigit_of_digit? {c : Char} {n : Nat} (h : digit? c = some n) : c.isDigit = true := by
  unfold digit? at h
  split at h
  next hc => exact hc
  · cases h

theorem digits_of_minutesOf? {a b c d : Char} {n : Nat} (h : minutesOf? a b c d = some n) :
    [a, b, c, d].all Char.isDigit = true ∧ n < 24 * 60 := by
  simp only [minutesOf?, Option.bind_eq_bind, Option.bind_eq_some_iff] at h
  obtain ⟨_, ha, _, hb, _, hc, _, hd, h⟩ := h
  split at h
  next hrange =>
    cases h
    refine ⟨?_, by omega⟩
    simp only [List.all_cons, List.all_nil, isDigit_of_digit? ha, isDigit_of_digit? hb,
      isDigit_of_digit? hc, isDigit_of_digit? hd, Bool.and_self]
  · cases h

/-- An offset in digits is a sign and four of them. -/
theorem exists_sign_of_numericOffset? {zone : List Char} (h : numericOffset? zone = some offset) :
    ∃ sign digits, zone = sign :: digits ∧ (sign = '+' ∨ sign = '-') ∧
      digits.length = 4 ∧ digits.all Char.isDigit = true ∧ offset.natAbs < 24 * 60 := by
  unfold numericOffset? at h
  split at h
  next a b c d =>
    obtain ⟨_, hbind, rfl⟩ := Option.map_eq_some_iff.1 h
    obtain ⟨n, hminutes, hn⟩ := Option.bind_eq_some_iff.1 hbind
    obtain rfl := Option.some.inj hn
    obtain ⟨hdigits, hlt⟩ := digits_of_minutesOf? hminutes
    exact ⟨_, _, rfl, .inl rfl, rfl, hdigits, by omega⟩
  next a b c d =>
    obtain ⟨_, hbind, rfl⟩ := Option.map_eq_some_iff.1 h
    obtain ⟨n, hminutes, hn⟩ := Option.bind_eq_some_iff.1 hbind
    obtain rfl := Option.some.inj hn
    obtain ⟨hdigits, hlt⟩ := digits_of_minutesOf? hminutes
    exact ⟨_, _, rfl, .inr rfl, rfl, hdigits, by omega⟩
  · cases h

/-- **A zone is read as it is written.** -/
theorem ZoneText.read?_self (h : ZoneText form text offset) :
    form.read? text = some offset := by
  cases form with
  | named =>
    obtain ⟨hlen, hletters⟩ := h.letters
    rw [← h.zoneHours_eq]
    exact if_pos ⟨hletters, .inl (by omega)⟩
  | numeric =>
    cases h with
    | east hour hour_le minute minute_le =>
      obtain ⟨a, b, c, d, heq, hread⟩ := exists_minutesOf? hour hour_le minute minute_le
      rw [heq, ZoneForm.read?, numericOffset?, hread]
      rfl
    | west hour hour_le minute minute_le =>
      obtain ⟨a, b, c, d, heq, hread⟩ := exists_minutesOf? hour hour_le minute minute_le
      rw [heq, ZoneForm.read?, numericOffset?, hread]
      rfl

/-- The number of characters of a zone. -/
def ZoneForm.width : ZoneForm → Nat
  | .named => 3
  | .numeric => 5

theorem ZoneText.length_eq (h : ZoneText form text offset) :
    text.length = form.width := by
  cases form with
  | named => exact h.letters.1
  | numeric =>
    cases h with
    | east hour _ minute _ => simp [hour.length_eq, minute.length_eq, ZoneForm.width]
    | west hour _ minute _ => simp [hour.length_eq, minute.length_eq, ZoneForm.width]

/-- A sign in front is no letter. -/
theorem namedOffset?_eq_none_of_sign {sign : Char} (hsign : sign.isAlpha = false)
    (zone : List Char) (k : Nat) : namedOffset? ((sign :: zone).take k) = none := by
  cases k with
  | zero => rfl
  | succ k =>
    rw [List.take_succ_cons]
    refine if_neg fun h => ?_
    rw [List.all_cons, hsign, Bool.false_and] at h
    exact Bool.false_ne_true h.1

/-- **What is left of a zone that is cut off denotes its offset, or none.** -/
theorem ZoneText.read?_take (h : ZoneText form text offset) (other : ZoneForm) (k : Nat) :
    other.read? (text.take k) = none ∨ other.read? (text.take k) = some offset := by
  by_cases hwhole : form.width ≤ k ∧ other = form
  · obtain ⟨hk, rfl⟩ := hwhole
    rw [← h.length_eq] at hk
    rw [List.take_of_length_le hk]
    exact .inr h.read?_self
  · cases other with
    | numeric =>
      refine .inl (numericOffset?_eq_none ?_)
      rw [List.length_take, h.length_eq]
      cases form with
      | named =>
        rw [ZoneForm.width]
        omega
      | numeric =>
        rw [ZoneForm.width] at hwhole ⊢
        simp only [and_true] at hwhole
        omega
    | named =>
      cases h with
      | east => exact .inl (namedOffset?_eq_none_of_sign (by decide) _ k)
      | west => exact .inl (namedOffset?_eq_none_of_sign (by decide) _ k)
      | named mem same => exact (ZoneText.named mem same).namedOffset?_take k
      | other letters unlisted => exact (ZoneText.other letters unlisted).namedOffset?_take k

end MailOutline.Calendar
