import MailOutline.Proofs.Dates.Scanning

/-!
# A written date is read as what it says

Twelve layouts are tried in turn, each on a beginning of the text that it cuts off itself. So each
of them meets a date of every other layout, with the time of day or the zone cut somewhere else.

* `Layout.read?_written`: whatever the layout, a written date is read as what it says, or not at
  all.
* `Written.exists_layout`: there is a layout that reads it.
* `Timestamp.ofText?_written`: so it is read as what it says, with white space around it and a
  comment behind it.
-/

namespace MailOutline

namespace Text

/-! ## Cuts and splits -/

theorem cut_zero (text : List Char) : cut 0 text = [] := by
  cases text with
  | nil => rfl
  | cons c rest => exact if_neg (Nat.not_le.2 c.utf8Size_pos)

/-- Characters of one byte are counted one by one. -/
theorem cut_append {front : List Char} (hnarrow : ∀ c ∈ front, c.utf8Size = 1) (width : Nat)
    (rest : List Char) :
    cut width (front ++ rest) = front.take width ++ cut (width - front.length) rest := by
  induction front generalizing width with
  | nil => rw [List.nil_append, List.take_nil, List.nil_append, List.length_nil, Nat.sub_zero]
  | cons c front ih =>
    obtain ⟨hc, hfront⟩ := List.forall_mem_cons.1 hnarrow
    cases width with
    | zero => rw [cut_zero, List.take_zero, Nat.zero_sub, cut_zero, List.append_nil]
    | succ width =>
      rw [List.cons_append, cut, hc, if_pos (by omega), Nat.add_sub_cancel, ih hfront,
        List.take_succ_cons, List.cons_append, List.length_cons, Nat.add_sub_add_right]

/-- The last occurrence of a character, behind one that is known. -/
theorem splitLast?_append_cons (mark : Char) (front back : List Char) :
    splitLast? mark (front ++ mark :: back) =
      match splitLast? mark back with
      | some (more, last) => some (front ++ mark :: more, last)
      | none => some (front, back) := by
  cases hback : splitLast? mark back with
  | none => exact splitLast?_eq_some_iff.2 ⟨rfl, splitLast?_eq_none_iff.1 hback⟩
  | some parts =>
    obtain ⟨more, last⟩ := parts
    obtain ⟨rfl, hlast⟩ := splitLast?_eq_some_iff.1 hback
    exact splitLast?_eq_some_iff.2 ⟨by simp, hlast⟩

/-- White space is taken away in front of a text and behind it, up to where the text begins and
ends. -/
theorem trim_append {before text : List Char} (tail : List Char)
    (hbefore : before.all isBlank = true)
    (hfirst : ∃ first rest, text = first :: rest ∧ isBlank first = false)
    (hlast : ∃ rest last, text = rest ++ [last] ∧ isBlank last = false) :
    trim (before ++ text ++ tail) = text ++ (skipBlank tail.reverse).reverse := by
  have hstart : skipBlank (before ++ text ++ tail) = text ++ tail := by
    obtain ⟨first, rest, rfl, hfirst⟩ := hfirst
    rw [skipBlank, List.append_assoc, List.dropWhile_append_of_pos (List.all_eq_true.1 hbefore)]
    exact List.dropWhile_cons_of_neg (by simpa using hfirst)
  have hend : skipBlank text.reverse = text.reverse := by
    obtain ⟨rest, last, rfl, hlast⟩ := hlast
    rw [List.reverse_concat]
    exact List.dropWhile_cons_of_neg (by simpa using hlast)
  have hsplit : skipBlank (tail.reverse ++ text.reverse) =
      skipBlank tail.reverse ++ text.reverse := by
    rw [skipBlank, skipBlank, List.dropWhile_append]
    split
    next hempty =>
      rw [List.isEmpty_iff.1 hempty, List.nil_append]
      exact hend
    · rfl
  rw [trim, hstart, List.reverse_append, hsplit, List.reverse_append, List.reverse_reverse]

end Text

namespace Calendar

variable {layout : Layout} {clock : Clock} {form : ZoneForm} {text front back tail : List Char}
  {date : Date} {time : Time} {offset : Int}

/-! ## The characters of a written date -/

theorem utf8Size_of_lt {c : Char} (h : c.toNat < 128) : c.utf8Size = 1 :=
  Char.utf8Size_eq_one_iff.2 (UInt32.le_iff_toNat_le.2 (Nat.le_of_lt_succ h))

/-- The characters that dates are written with take one byte each. -/
def Narrow (text : List Char) : Prop := ∀ c ∈ text, c.utf8Size = 1

theorem narrow_append :
    Narrow (front ++ back) ↔ Narrow front ∧ Narrow back := List.forall_mem_append

theorem narrow_cons {c : Char} :
    Narrow (c :: text) ↔ c.utf8Size = 1 ∧ Narrow text := List.forall_mem_cons

theorem narrow_of_letters (h : text.all Char.isAlpha = true) : Narrow text := by
  intro c hc
  have hrange := toNat_of_isAlpha (List.all_eq_true.1 h c hc)
  exact utf8Size_of_lt (by omega)

theorem Numeral.narrow {width n : Nat} (h : Numeral width text n) : Narrow text := by
  intro c hc
  have hrange := toNat_of_isDigit (List.all_eq_true.1 h.digits c hc)
  exact utf8Size_of_lt (by omega)

theorem DayText.narrow {day : Nat} (h : DayText text day) : Narrow text := by
  cases h with
  | one numeral => exact numeral.narrow
  | two numeral => exact numeral.narrow

theorem ClockText.narrow (h : ClockText clock front date time) : Narrow front := by
  cases h with
  | long day month year hour minute second nano =>
    obtain ⟨n, year, -⟩ := year.exists_numeral_long
    simp only [narrow_append, narrow_cons, day.narrow, narrow_of_letters month.letters.2,
      year.narrow, hour.narrow, minute.narrow, second.narrow, and_true]
    decide
  | short day month year hour minute second nano =>
    obtain ⟨n, year, -⟩ := year.exists_numeral_short
    simp only [narrow_append, narrow_cons, day.narrow, narrow_of_letters month.letters.2,
      year.narrow, hour.narrow, minute.narrow, and_true]
    decide

/-- There is no white space in a zone. -/
theorem ZoneText.of_mem (h : ZoneText form text offset) {c : Char} (hc : c ∈ text) :
    c.utf8Size = 1 ∧ Text.isBlank c = false := by
  have hdigit {digits : List Char} {n : Nat} (numeral : Numeral 2 digits n) (hc : c ∈ digits) :
      c.utf8Size = 1 ∧ Text.isBlank c = false :=
    ⟨numeral.narrow c hc, isBlank_eq_false_of_isDigit (List.all_eq_true.1 numeral.digits c hc)⟩
  cases form with
  | named =>
    have hletters := h.letters.2
    have hletter : c.isAlpha = true := List.all_eq_true.1 hletters c hc
    exact ⟨narrow_of_letters hletters c hc, isBlank_eq_false_of_isAlpha hletter⟩
  | numeric =>
    cases h with
    | east hour _ minute _ =>
      rw [List.mem_cons, List.mem_append] at hc
      rcases hc with rfl | hc | hc
      · decide
      · exact hdigit hour hc
      · exact hdigit minute hc
    | west hour _ minute _ =>
      rw [List.mem_cons, List.mem_append] at hc
      rcases hc with rfl | hc | hc
      · decide
      · exact hdigit hour hc
      · exact hdigit minute hc

theorem ZoneText.narrow (h : ZoneText form text offset) : Narrow text := fun _ hc => (h.of_mem hc).1

theorem ZoneText.space_not_mem (h : ZoneText form text offset) : ' ' ∉ text :=
  fun hspace => absurd (h.of_mem hspace).2 (by decide)

theorem ZoneText.exists_concat (h : ZoneText form text offset) :
    ∃ rest last, text = rest ++ [last] ∧ Text.isBlank last = false := by
  have hne : text ≠ [] := by
    intro hnil
    have hlen := h.length_eq
    rw [hnil] at hlen
    cases form <;> exact absurd hlen (by decide)
  exact ⟨text.dropLast, text.getLast hne, (List.dropLast_concat_getLast hne).symm,
    (h.of_mem (List.getLast_mem hne)).2⟩

/-- A date begins with a digit. -/
theorem ClockText.exists_cons (h : ClockText clock front date time) :
    ∃ c rest, front = c :: rest ∧ c.isDigit = true := by
  have hday {d rest : List Char} {day : Nat} (h : DayText d day) :
      ∃ c more, d ++ rest = c :: more ∧ c.isDigit = true := by
    cases h with
    | one numeral =>
      obtain ⟨c, more, rfl, hc⟩ := numeral.exists_cons (by decide)
      exact ⟨c, _, rfl, hc⟩
    | two numeral =>
      obtain ⟨c, more, rfl, hc⟩ := numeral.exists_cons (by decide)
      exact ⟨c, _, rfl, hc⟩
  cases h with
  | long day => simpa only [List.append_assoc] using hday day
  | short day => simpa only [List.append_assoc] using hday day

/-- The number of characters of a date and a time of day with two digits for the day. -/
def Clock.width : Clock → Nat
  | .long => 20
  | .short => 15

theorem ClockText.length_eq (h : ClockText clock front date time) :
    front.length = clock.width ∨ front.length + 1 = clock.width := by
  cases h with
  | long day month year hour minute second nano =>
    obtain ⟨n, year, -⟩ := year.exists_numeral_long
    have hday := day.length_le
    simp only [List.length_append, List.length_cons, month.letters.1, year.length_eq,
      hour.length_eq, minute.length_eq, second.length_eq, Clock.width]
    omega
  | short day month year hour minute second nano =>
    obtain ⟨n, year, -⟩ := year.exists_numeral_short
    have hday := day.length_le
    simp only [List.length_append, List.length_cons, month.letters.1, year.length_eq,
      hour.length_eq, minute.length_eq, Clock.width]
    omega

/-- **A date in one of the two ways is not taken for one in the other**, whatever stands behind the
space after it. -/
theorem ClockText.exists_stuck (h : ClockText clock front date time) {other : Clock}
    (hne : clock ≠ other) (behind : List Char) :
    ∃ head rest, front ++ ' ' :: behind = head ++ ' ' :: rest ∧ Narrow head ∧
      head.length ≤ other.width ∧ other.Stuck head := by
  have hnarrow := h.narrow
  cases clock with
  | short =>
    have hlen : front.length ≤ 20 := by
      have hlen := h.length_eq
      rw [Clock.width] at hlen
      omega
    cases other with
    | short => exact absurd rfl hne
    | long => exact ⟨front, behind, rfl, hnarrow, hlen, h.stuck_long⟩
  | long =>
    obtain ⟨head, rest, rfl, hlen, hstuck⟩ := h.exists_stuck_short
    have hhead := (narrow_append.1 hnarrow).1
    cases other with
    | long => exact absurd rfl hne
    | short =>
      exact ⟨head, rest ++ ' ' :: behind, by simp, hhead, Nat.le_trans hlen (by decide), hstuck⟩

/-! ## The body of a layout -/

/-- The timestamp that a text without the day of the week denotes in a layout. -/
def Layout.readBody? (layout : Layout) (body : List Char) : Option Timestamp := do
  let (clock, zone) ← Text.splitLast? ' ' body
  let (date, time) ← layout.clock.read? clock
  let offset ← layout.zone.read? zone
  Timestamp.ofParts? date time offset

theorem Layout.read?_eq_bind (layout : Layout) (text : List Char) :
    layout.read? text = (layout.body? (Text.cut layout.width text)).bind layout.readBody? := rfl

theorem Layout.readBody?_of_stuck {head : List Char} (h : layout.clock.Stuck head)
    (rest : List Char) :
    layout.readBody? (head ++ ' ' :: rest) = none := by
  rw [readBody?, Text.splitLast?_append_cons]
  cases Text.splitLast? ' ' rest with
  | none =>
    have hread : layout.clock.read? head = none := by
      have hstuck := h [] (by simp)
      rwa [List.append_nil] at hstuck
    simp only [Option.bind_eq_bind, Option.bind_some, hread, Option.bind_none]
  | some parts =>
    have hread := h (' ' :: parts.1) (by simp)
    simp only [Option.bind_eq_bind, Option.bind_some, hread, Option.bind_none]

/-- Behind the right date and time of day, what has no space in it is the zone. -/
theorem Layout.readBody?_of_clockText (h : ClockText layout.clock front date time)
    (rest : List Char) :
    layout.readBody? (front ++ ' ' :: rest) =
      if ' ' ∈ rest then none
      else (layout.zone.read? rest).bind (Timestamp.ofParts? date time) := by
  rw [readBody?, Text.splitLast?_append_cons]
  cases hrest : Text.splitLast? ' ' rest with
  | none =>
    rw [if_neg (Text.splitLast?_eq_none_iff.1 hrest)]
    simp only [Option.bind_eq_bind, Option.bind_some, h.read?_self]
  | some parts =>
    have hmem : ' ' ∈ rest := by
      rw [(Text.splitLast?_eq_some_iff.1 hrest).1]
      simp
    have hread := h.read?_append (' ' :: parts.1)
    rw [if_neg (List.cons_ne_nil _ _)] at hread
    rw [if_pos hmem]
    simp only [Option.bind_eq_bind, Option.bind_some, hread, Option.bind_none]

/-- A cut behind a space, as long as it comes to the space. -/
theorem cut_append_space {head : List Char} (hnarrow : Narrow head) {width : Nat}
    (hwidth : head.length < width) (rest : List Char) :
    Text.cut width (head ++ ' ' :: rest) =
      head ++ ' ' :: Text.cut (width - (head.length + 1)) rest := by
  have hspace : Narrow [' '] := narrow_cons.2 ⟨by decide, List.forall_mem_nil _⟩
  have hcut := Text.cut_append (narrow_append.2 ⟨hnarrow, hspace⟩) width rest
  have hlen : (head ++ [' ']).length ≤ width := by
    rw [List.length_append]
    exact hwidth
  rwa [List.append_assoc, List.take_of_length_le hlen, List.append_assoc,
    List.length_append] at hcut

/-- **A zone that is cut off or goes on behind a space** denotes its offset, or is refused. -/
theorem ZoneText.read?_cut (h : ZoneText form back offset) (htail : ∀ c ∈ tail.head?, c = ' ')
    (other : ZoneForm) {width : Nat} (hspace : ' ' ∉ Text.cut width (back ++ tail)) :
    other.read? (Text.cut width (back ++ tail)) = none ∨
      other.read? (Text.cut width (back ++ tail)) = some offset := by
  rw [Text.cut_append h.narrow] at hspace ⊢
  have hbehind : Text.cut (width - back.length) tail = [] := by
    cases tail with
    | nil => rfl
    | cons c rest =>
      obtain rfl : c = ' ' := htail c rfl
      rw [Text.cut] at hspace ⊢
      split
      next hfit =>
        rw [if_pos hfit] at hspace
        exact absurd (List.mem_append_right _ List.mem_cons_self) hspace
      · rfl
  rw [hbehind, List.append_nil]
  exact h.read?_take other width

/-- A layout takes a date without the day of the week for what it says, or refuses it. -/
theorem Layout.readBody?_cut (front_text : ClockText clock front date time)
    (back_text : ZoneText form back offset) (htail : ∀ c ∈ tail.head?, c = ' ') {width : Nat}
    (hwidth : layout.clock.width < width) :
    layout.readBody? (Text.cut width (front ++ ' ' :: (back ++ tail))) = none ∨
      layout.readBody? (Text.cut width (front ++ ' ' :: (back ++ tail))) =
        Timestamp.ofParts? date time offset := by
  have hnarrow := front_text.narrow
  have hfront := front_text.length_eq
  -- With its own clock the layout comes to the zone, or to a space behind it. With the other clock
  -- it is stuck before that.
  by_cases hclock : clock = layout.clock
  · subst hclock
    rw [cut_append_space hnarrow (by omega), readBody?_of_clockText front_text]
    split
    · exact .inl rfl
    next hspace =>
      rcases back_text.read?_cut htail layout.zone hspace with hread | hread
      · exact .inl (by rw [hread, Option.bind_none])
      · exact .inr (by rw [hread, Option.bind_some])
  · obtain ⟨head, rest, heq, hhead, hlen, hstuck⟩ :=
      front_text.exists_stuck hclock (back ++ tail)
    rw [heq, cut_append_space hhead (Nat.lt_of_le_of_lt hlen hwidth), readBody?_of_stuck hstuck]
    exact .inl rfl

/-- The layout of a date reads it as what it says. -/
theorem Layout.readBody?_exact (front_text : ClockText layout.clock front date time)
    (back_text : ZoneText layout.zone back offset) (tail : List Char) :
    layout.readBody?
      (Text.cut (front.length + 1 + back.length) (front ++ ' ' :: (back ++ tail))) =
        Timestamp.ofParts? date time offset := by
  rw [cut_append_space front_text.narrow (by omega), readBody?_of_clockText front_text,
    Text.cut_append back_text.narrow, Nat.add_sub_cancel_left, List.take_length, Nat.sub_self,
    Text.cut_zero, List.append_nil, if_neg back_text.space_not_mem, back_text.read?_self,
    Option.bind_some]

/-! ## The layouts -/

/-- The number of bytes of a date in a layout, without the day of the week. -/
def Layout.span (layout : Layout) : Nat :=
  if layout.weekday then layout.width - 5 else layout.width

/-- Every layout has room for more than the day of the week. -/
theorem Layout.four_lt_width (h : layout ∈ Layout.all) : 4 < layout.width := by
  have hall : ∀ layout ∈ Layout.all, 4 < layout.width := by decide
  exact hall layout h

/-- Every layout has room for the date and the time of day, and more. -/
theorem Layout.width_lt_span (h : layout ∈ Layout.all) :
    layout.clock.width < layout.span := by
  have hall : ∀ layout ∈ Layout.all, layout.clock.width < layout.span := by decide
  exact hall layout h

/-- The day of the week stays whole in a cut. -/
theorem cut_weekday {a b c : Char} (letters : a.isAlpha ∧ b.isAlpha ∧ c.isAlpha) {width : Nat}
    (hwidth : 4 < width) (rest : List Char) :
    Text.cut width (a :: b :: c :: ',' :: ' ' :: rest) =
      a :: b :: c :: ',' :: ' ' :: Text.cut (width - 5) rest := by
  have hletters : Narrow [a, b, c] := narrow_of_letters (by simp [letters])
  have hcomma : Narrow [','] := narrow_cons.2 ⟨by decide, List.forall_mem_nil _⟩
  exact cut_append_space (narrow_append.2 ⟨hletters, hcomma⟩) hwidth rest

/-- No day of the week begins with a digit. -/
theorem afterWeekday?_cut {c : Char} (hc : c.isDigit = true) (width : Nat) (rest : List Char) :
    afterWeekday? (Text.cut width (c :: rest)) = none := by
  rw [Text.cut]
  split
  · unfold afterWeekday?
    split
    next heq =>
      obtain ⟨rfl, -⟩ := List.cons.inj heq
      refine if_neg fun h => ?_
      rw [isDigit_eq_false_of_isAlpha h.1] at hc
      cases hc
    · rfl
  · rfl

/-- A text that begins with a digit is the body, and in no layout with a day of the week. -/
theorem Layout.read?_of_isDigit (layout : Layout) {c : Char} (hc : c.isDigit = true)
    (rest : List Char) : layout.read? (c :: rest) =
      if layout.weekday then none else layout.readBody? (Text.cut layout.width (c :: rest)) := by
  rw [read?_eq_bind, body?]
  split
  · rw [afterWeekday?_cut hc, Option.bind_none]
  · rw [Option.bind_some]

/-- A text behind a day of the week is the body, and in no layout without one. -/
theorem Layout.read?_of_weekday (layout : Layout) {a b c : Char}
    (letters : a.isAlpha ∧ b.isAlpha ∧ c.isAlpha) (hwidth : 4 < layout.width) (rest : List Char) :
    layout.read? (a :: b :: c :: ',' :: ' ' :: rest) =
      if layout.weekday then layout.readBody? (Text.cut (layout.width - 5) rest) else none := by
  rw [read?_eq_bind, body?, cut_weekday letters hwidth]
  split
  · rw [afterWeekday?, if_pos letters, Option.bind_some]
  · have hstuck := layout.clock.stuck_of_isAlpha letters.1 [b, c, ',']
    rw [Option.bind_some]
    exact readBody?_of_stuck hstuck _

/-- **Whatever the layout, a written date is read as what it says, or not at all.** -/
theorem Layout.read?_written (hlayout : layout ∈ Layout.all)
    (h : Written text date time offset) (htail : ∀ c ∈ tail.head?, c = ' ') :
    layout.read? (text ++ tail) = none ∨
      layout.read? (text ++ tail) = Timestamp.ofParts? date time offset := by
  have hspan := width_lt_span hlayout
  rw [span] at hspan
  cases h with
  | @plain clock zone front back _ _ _ front_text back_text =>
    have hbody (hwidth : layout.clock.width < layout.width) :=
      readBody?_cut front_text back_text htail hwidth
    obtain ⟨c, rest, rfl, hc⟩ := front_text.exists_cons
    rw [List.append_assoc, List.cons_append, List.cons_append, read?_of_isDigit layout hc]
    split
    · exact .inl rfl
    next hweekday =>
      rw [if_neg hweekday] at hspan
      exact hbody hspan
  | @weekday zone a b c front back _ _ _ letters front_text back_text =>
    have htext : a :: b :: c :: ',' :: ' ' :: (front ++ ' ' :: back) ++ tail =
        a :: b :: c :: ',' :: ' ' :: (front ++ ' ' :: (back ++ tail)) := by
      simp
    rw [htext, read?_of_weekday layout letters (four_lt_width hlayout)]
    split
    next hweekday =>
      rw [if_pos hweekday] at hspan
      exact readBody?_cut front_text back_text htail hspan
    · exact .inl rfl

/-- **Each way to write a date has its layout.** -/
theorem Written.exists_layout (h : Written text date time offset) (tail : List Char) :
    ∃ layout ∈ Layout.all, layout.read? (text ++ tail) = Timestamp.ofParts? date time offset := by
  cases h with
  | @plain clock zone front back _ _ _ front_text back_text =>
    refine ⟨⟨false, clock, zone, front.length + 1 + back.length⟩, ?_, ?_⟩
    · rw [back_text.length_eq]
      rcases front_text.length_eq with hlen | hlen
      · rw [hlen]
        cases clock <;> cases zone <;> decide
      · rw [hlen]
        cases clock <;> cases zone <;> decide
    · rw [List.append_assoc]
      exact Layout.readBody?_exact front_text back_text tail
  | @weekday zone a b c front back _ _ _ letters front_text back_text =>
    refine ⟨⟨true, .long, zone, front.length + 1 + back.length + 5⟩, ?_, ?_⟩
    · rw [back_text.length_eq]
      rcases front_text.length_eq with hlen | hlen
      · rw [hlen]
        cases zone <;> decide
      · rw [hlen]
        cases zone <;> decide
    · have htext : a :: b :: c :: ',' :: ' ' :: (front ++ ' ' :: back) ++ tail =
          a :: b :: c :: ',' :: ' ' :: (front ++ ' ' :: (back ++ tail)) := by
        simp
      rw [htext, Layout.read?_of_weekday _ letters (Nat.lt_add_left _ (by decide)), if_pos rfl,
        Nat.add_sub_cancel]
      exact Layout.readBody?_exact front_text back_text tail

/-! ## The years that can be told -/

theorem daysIn_le (year : Int) (month : Nat) : daysIn year month ≤ 31 := by
  unfold daysIn
  split
  · split <;> decide
  all_goals decide

theorem Date.daysBefore_le (year : Int) (month : Nat) :
    Date.daysBefore year month ≤ 31 * (month - 1) := by
  unfold Date.daysBefore
  generalize month - 1 = n
  induction n with
  | zero => exact Nat.le_refl 0
  | succ n ih =>
    rw [List.range_succ, List.foldl_append, List.foldl_cons, List.foldl_nil]
    have hmonth := daysIn_le year (n + 1)
    omega

/-- Dates in four digits, and all zones, can be told. -/
theorem canTell_of_year (time : Time)
    (hyear : 0 ≤ date.year ∧ date.year ≤ 9999) (hoffset : offset.natAbs < 24 * 60) :
    CanTell date time offset := by
  have hbefore := Date.daysBefore_le date.year date.month
  have hday := daysIn_le date.year date.month
  obtain ⟨⟨-, hmonth⟩, -, hle⟩ := date.exists_day
  obtain ⟨hhour, hminute, -, -⟩ := time.exists_time
  refine ⟨hoffset, ?_, ?_, ?_⟩
  · simp only [minYear, maxYear]
    omega
  · simp only [startOfYear, minYear, unixSeconds, Date.dayNumber, Date.daysBeforeYear, Time.seconds]
    omega
  · simp only [startOfYear, maxYear, unixSeconds, Date.dayNumber, Date.daysBeforeYear, Time.seconds]
    omega

theorem ofDigitChars_lt {digits : List Char} (h : digits.all Char.isDigit = true) (start : Nat) :
    Nat.ofDigitChars 10 digits start < (start + 1) * Nat.pow 10 digits.length := by
  induction digits generalizing start with
  | nil => exact Nat.lt_of_lt_of_eq (Nat.lt_succ_self start) (Nat.mul_one _).symm
  | cons c digits ih =>
    rw [List.all_cons, Bool.and_eq_true] at h
    have hdigit : c.toNat - '0'.toNat < 10 := by
      have hrange := toNat_of_isDigit h.1
      have hzero : '0'.toNat = 48 := rfl
      omega
    rw [Nat.ofDigitChars_cons]
    calc Nat.ofDigitChars 10 digits (10 * start + (c.toNat - '0'.toNat))
        < (10 * start + (c.toNat - '0'.toNat) + 1) * Nat.pow 10 digits.length := ih h.2 _
      _ ≤ ((start + 1) * 10) * Nat.pow 10 digits.length := Nat.mul_le_mul_right _ (by omega)
      _ = (start + 1) * Nat.pow 10 (c :: digits).length := by
        rw [Nat.mul_assoc, Nat.mul_comm 10]
        rfl

theorem Numeral.lt {width n : Nat} (h : Numeral width text n) :
    n < Nat.pow 10 width := by
  obtain ⟨rfl, hdigits, rfl⟩ := h
  have hlt := ofDigitChars_lt hdigits 0
  rwa [Nat.zero_add, Nat.one_mul] at hlt

theorem YearText.range {year : Int} (h : YearText clock text year) :
    0 ≤ year ∧ year ≤ 9999 := by
  cases h with
  | @long _ n numeral =>
    have hlt : n < 10000 := numeral.lt
    omega
  | late numeral le => omega
  | @early _ n numeral ge =>
    have hlt : n < 100 := numeral.lt
    omega

theorem ClockText.year_range (h : ClockText clock front date time) :
    0 ≤ date.year ∧ date.year ≤ 9999 := by
  cases h with
  | long _ _ year => exact year.range
  | short _ _ year => exact year.range

theorem ZoneText.natAbs_lt (h : ZoneText form text offset) : offset.natAbs < 24 * 60 := by
  cases h with
  | east => omega
  | west => omega
  | named mem same =>
    have htable : ∀ entry ∈ zoneTable, (60 * entry.2).natAbs < 24 * 60 := by decide
    exact htable _ mem
  | other => decide

theorem Written.year_range (h : Written text date time offset) :
    0 ≤ date.year ∧ date.year ≤ 9999 := by
  cases h with
  | plain front_text => exact front_text.year_range
  | weekday _ front_text => exact front_text.year_range

theorem Written.natAbs_lt (h : Written text date time offset) : offset.natAbs < 24 * 60 := by
  cases h with
  | plain _ back_text => exact back_text.natAbs_lt
  | weekday _ _ back_text => exact back_text.natAbs_lt

/-! ## Any layout -/

theorem findSome?_eq_some_of_forall {α β : Type} {f : α → Option β} {l : List α} {b : β}
    (hall : ∀ a ∈ l, f a = none ∨ f a = some b) (hexists : ∃ a ∈ l, f a = some b) :
    l.findSome? f = some b := by
  obtain ⟨a, ha, hb⟩ := hexists
  cases hfind : l.findSome? f with
  | none =>
    rw [List.findSome?_eq_none_iff.1 hfind a ha] at hb
    cases hb
  | some b' =>
    obtain ⟨a', ha', hb'⟩ := List.exists_of_findSome?_eq_some hfind
    rcases hall a' ha' with hnone | hsome
    · rw [hnone] at hb'
      cases hb'
    · rw [← hb', hsome]

theorem Written.exists_cons (h : Written text date time offset) :
    ∃ first rest, text = first :: rest ∧ Text.isBlank first = false := by
  cases h with
  | plain front_text back_text =>
    obtain ⟨c, rest, rfl, hc⟩ := front_text.exists_cons
    exact ⟨c, _, rfl, isBlank_eq_false_of_isDigit hc⟩
  | weekday letters front_text back_text => exact ⟨_, _, rfl, isBlank_eq_false_of_isAlpha letters.1⟩

theorem Written.exists_concat (h : Written text date time offset) :
    ∃ rest last, text = rest ++ [last] ∧ Text.isBlank last = false := by
  cases h with
  | @plain _ _ front back _ _ _ front_text back_text =>
    obtain ⟨rest, last, rfl, hlast⟩ := back_text.exists_concat
    exact ⟨front ++ ' ' :: rest, last, by simp, hlast⟩
  | @weekday _ a b c front back _ _ _ letters front_text back_text =>
    obtain ⟨rest, last, rfl, hlast⟩ := back_text.exists_concat
    exact ⟨a :: b :: c :: ',' :: ' ' :: (front ++ ' ' :: rest), last, by simp, hlast⟩

/-- White space and commentary behind a date: nothing is left of it, or it goes on behind a
space. -/
theorem head?_behind {comment after : List Char} (hafter : after.all Text.isBlank = true)
    (hcomment : comment = [] ∨ ∃ more, comment = ' ' :: more) :
    ∀ c ∈ ((Text.skipBlank (comment ++ after).reverse).reverse).head?, c = ' ' := by
  intro c hc
  rcases hcomment with rfl | ⟨more, rfl⟩
  · have hall := List.all_eq_true.1 (List.all_reverse.trans hafter)
    have hblank : Text.skipBlank after.reverse = [] := by
      rw [Text.skipBlank, ← List.append_nil after.reverse, List.dropWhile_append_of_pos hall,
        List.dropWhile_nil]
    rw [List.nil_append, hblank] at hc
    cases hc
  · have hprefix : (Text.skipBlank (' ' :: more ++ after).reverse).reverse <+:
        ' ' :: (more ++ after) := by
      rw [← List.reverse_suffix, List.reverse_reverse]
      exact List.dropWhile_suffix _
    obtain ⟨rest, hrest⟩ := List.head?_eq_some_iff.1 hc
    rw [hrest] at hprefix
    exact (List.cons_prefix_cons.1 hprefix).1

/-- **A written date is read as what it says**, in each of the layouts, with any white space around
it and nothing or a comment behind a space after it. -/
theorem Timestamp.ofText?_written {before comment after : List Char}
    (h : Written text date time offset)
    (hbefore : before.all Text.isBlank = true) (hafter : after.all Text.isBlank = true)
    (hcomment : comment = [] ∨ ∃ more, comment = ' ' :: more) :
    ∃ stamp, Timestamp.ofText? (String.ofList (before ++ text ++ comment ++ after)) = some stamp ∧
      stamp.date = date ∧ stamp.time = time ∧ stamp.offset = offset := by
  have hbehind := head?_behind hafter hcomment
  have htell := canTell_of_year time h.year_range h.natAbs_lt
  have hstamp : Timestamp.ofParts? date time offset = some ⟨date, time, offset, htell⟩ :=
    Timestamp.ofParts?_eq_some_iff.2 ⟨rfl, rfl, rfl⟩
  refine ⟨⟨date, time, offset, htell⟩, ?_, rfl, rfl, rfl⟩
  rw [ofText?, String.toList_ofList, List.append_assoc _ comment,
    Text.trim_append _ hbefore h.exists_cons h.exists_concat]
  refine findSome?_eq_some_of_forall (fun layout hlayout => ?_) ?_
  · rw [← hstamp]
    exact layout.read?_written hlayout h hbehind
  · rw [← hstamp]
    exact h.exists_layout _

/-- A leap second of a leap day, in letters of any case. -/
theorem Timestamp.ofText?_written_leap :
    ∃ stamp, Timestamp.ofText? "\u00a0 sAt, 29 fEB 2020 23:59:60 pDt (leap second)\n" = some stamp ∧
      stamp.date = ⟨2020, 2, 29, by decide⟩ ∧ stamp.time = ⟨23, 59, 60, 0, by decide⟩ ∧
        stamp.offset = -420 := by
  have day : DayText ['2', '9'] 29 := .two ⟨rfl, by decide, by decide⟩
  have month : MonthText ['f', 'E', 'B'] 2 := ⟨by decide, by decide⟩
  have year : YearText .long ['2', '0', '2', '0'] 2020 := .long ⟨rfl, by decide, by decide⟩
  have hour : Numeral 2 ['2', '3'] 23 := ⟨rfl, by decide, by decide⟩
  have minute : Numeral 2 ['5', '9'] 59 := ⟨rfl, by decide, by decide⟩
  have second : Numeral 2 ['6', '0'] 60 := ⟨rfl, by decide, by decide⟩
  have zone : ZoneText .named ['p', 'D', 't'] (60 * -7) :=
    .named (List.mem_of_elem_eq_true (by decide) : ("PDT", -7) ∈ zoneTable) (by decide)
  have front : ClockText .long _ ⟨2020, 2, 29, by decide⟩ ⟨23, 59, 60, 0, by decide⟩ :=
    .long day month year hour minute second rfl
  have text := Written.weekday (by decide : 's'.isAlpha ∧ 'A'.isAlpha ∧ 't'.isAlpha) front zone
  have before : ['\u00a0', ' '].all Text.isBlank = true := by decide
  have after : ['\n'].all Text.isBlank = true := by decide
  have hread := ofText?_written text before after (.inr ⟨"(leap second)".toList, rfl⟩)
  simpa using hread

end Calendar

end MailOutline
