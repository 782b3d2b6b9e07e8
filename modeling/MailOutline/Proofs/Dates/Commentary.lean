import MailOutline.Proofs.Dates.Zones

/-!
# Comments behind a date

Programs that write a date often put the name of the zone in brackets behind it. A layout drops such
a comment where its width ends, so the date has to be as long as the layout is wide.

* `Layout.read?_comment`: with a comment behind it, a text is read as it was if it fills the width,
  and refused if it does not.
* `Layout.eq_of_size_lt`: a layout with room for more than the date agrees with any later one.
* `Timestamp.ofText?_commented`: a date keeps its meaning with a comment behind it, or loses it,
  according to whether it fills a layout that reads it.
-/

namespace MailOutline

namespace Text

/-! ## White space -/

/-- The text without the white space behind it. -/
def trimEnd (text : List Char) : List Char := (skipBlank text.reverse).reverse

variable {text : List Char}

theorem isBlank_of_skipBlank {c : Char} {rest : List Char} (h : skipBlank text = c :: rest) :
    isBlank c = false := by
  have hhead := List.head?_dropWhile_not isBlank text
  rw [skipBlank] at h
  rw [h] at hhead
  simpa using hhead

/-- What is left of a text begins and ends with something, and had white space around it. -/
theorem exists_append_trim (hne : trim text ≠ []) :
    ∃ before after, text = before ++ (trim text ++ after) ∧ before.all isBlank = true ∧
      after.all isBlank = true ∧ (∃ first rest, trim text = first :: rest ∧ isBlank first = false) ∧
      ∃ rest last, trim text = rest ++ [last] ∧ isBlank last = false := by
  obtain ⟨before, hbefore, blanks⟩ := Calendar.exists_blank text
  obtain ⟨after, hafter, blanks'⟩ := Calendar.exists_blank (skipBlank text).reverse
  have hcore : skipBlank text = trim text ++ after.reverse := by
    rw [trim, ← List.reverse_append, ← hafter, List.reverse_reverse]
  refine ⟨before, after.reverse, by rw [← hcore, ← hbefore], blanks, ?_, ?_, ?_⟩
  · rw [List.all_reverse, blanks']
  · obtain ⟨first, rest, hfirst⟩ := List.exists_cons_of_ne_nil hne
    rw [hfirst, List.cons_append] at hcore
    exact ⟨first, rest, hfirst, isBlank_of_skipBlank hcore⟩
  · cases hlast : skipBlank (skipBlank text).reverse with
    | nil => exact absurd (by rw [trim, hlast, List.reverse_nil]) hne
    | cons last rest =>
      exact ⟨rest.reverse, last, by rw [trim, hlast, List.reverse_cons],
        isBlank_of_skipBlank hlast⟩

theorem skipBlank_append {blank : List Char} (h : blank.all isBlank = true) (rest : List Char) :
    skipBlank (blank ++ rest) = skipBlank rest :=
  List.dropWhile_append_of_pos (List.all_eq_true.1 h)

/-- White space behind a text is dropped up to where the text ends. -/
theorem trimEnd_append {front after : List Char}
    (hlast : ∃ rest last, front = rest ++ [last] ∧ isBlank last = false)
    (blanks : after.all isBlank = true) : trimEnd (front ++ after) = front := by
  obtain ⟨rest, last, rfl, hlast⟩ := hlast
  rw [trimEnd, List.reverse_append, skipBlank_append (List.all_reverse.trans blanks),
    List.reverse_concat, Calendar.skipBlank_cons hlast, ← List.reverse_concat, List.reverse_reverse]

/-- White space in front of a text that has something behind it. -/
theorem trim_trimEnd_append (hne : trim text ≠ []) {tail rest : List Char} {last : Char}
    (htail : tail = rest ++ [last]) (hlast : isBlank last = false) :
    trim (trimEnd text ++ tail) = trim text ++ tail := by
  obtain ⟨before, after, htext, blanks, blanks', ⟨first, more, hfirst, hc⟩, less, final, hfinal,
    hd⟩ := exists_append_trim hne
  have hcut : trimEnd text = before ++ trim text := by
    have hend : trimEnd (before ++ trim text ++ after) = before ++ trim text :=
      trimEnd_append ⟨before ++ less, final, by rw [hfinal, List.append_assoc], hd⟩ blanks'
    rwa [List.append_assoc, ← htext] at hend
  have htrim := @trim_append before (trim text ++ tail) [] blanks
    ⟨first, more ++ tail, by rw [hfirst, List.cons_append], hc⟩
    ⟨trim text ++ rest, last, by rw [htail, List.append_assoc], hlast⟩
  rw [hcut, List.append_assoc]
  simpa [skipBlank] using htrim

/-! ## Cuts -/

/-- A cut of two texts: of the first, and of the second as far as there is room for it. -/
theorem cut_append_eq (width : Nat) (front back : List Char) :
    cut width (front ++ back) = cut width front ++ cut (width - sizeOfChars front) back := by
  induction front generalizing width with
  | nil => rw [List.nil_append, cut, sizeOfChars, List.nil_append, Nat.sub_zero]
  | cons c front ih =>
    rw [List.cons_append, cut, cut, sizeOfChars]
    split
    next => rw [ih, List.cons_append, Nat.sub_sub]
    next h => rw [Nat.sub_eq_zero_of_le (by omega), cut_zero, List.nil_append]

end Text

namespace Calendar

variable {layout other : Layout} {form form' : ZoneForm} {text front zone part : List Char}
  {clock : Clock} {date : Date} {time : Time} {offset offset' : Int} {stamp stamp' : Timestamp}

/-! ## One layout -/

/-- No bracket stands in front of a zone. -/
theorem Dated.bracket_not_mem {weekday : Bool} (h : Dated weekday clock front date time) :
    '(' ∉ front := by
  have hread {clock : Clock} {text : List Char} (hread : clock.read? text = some (date, time)) :
      '(' ∉ text := by
    obtain ⟨_, hloose⟩ := Clock.exists_looseText hread
    obtain ⟨a, b, c, _, rfl, hfront, minute, hbehind⟩ := hloose.exists_minute
    have hpiece {piece : List Char} (hall : piece.all isDateChar = true) : '(' ∉ piece :=
      fun hmem => absurd (List.all_eq_true.1 hall _ hmem) (by decide)
    have hlast : '(' ∉ c := by
      rcases hbehind with ⟨-, rfl⟩ | ⟨-, s, _, rfl, second⟩
      · exact List.not_mem_nil
      · simp [hpiece second.all_isDateChar]
    simp [hpiece hfront, hpiece minute.all_isDateChar, hlast]
  cases h with
  | plain read => exact hread read
  | weekday letters read =>
    have hletter {c : Char} (hc : c.isAlpha = true) : '(' ≠ c := by
      rintro rfl
      exact absurd hc (by decide)
    simp [hread read, hletter letters.1, hletter letters.2.1, hletter letters.2.2]

/-- **A comment behind a text** is dropped by a layout whose width the text fills, and is too much
for any other. -/
theorem Layout.read?_comment (hlayout : layout ∈ Layout.all) (text comment : List Char) :
    layout.read? (text ++ ' ' :: '(' :: comment) =
      if layout.width ≤ Text.sizeOfChars text then layout.read? text else none := by
  split
  next hle =>
    rw [read?_eq_bind, read?_eq_bind, Text.cut_append_eq, Nat.sub_eq_zero_of_le hle, Text.cut_zero,
      List.append_nil]
  next hlt =>
    have hsize : ' '.utf8Size = 1 := by decide
    have hcut : Text.cut layout.width (text ++ ' ' :: '(' :: comment) =
        text ++ ' ' :: Text.cut (layout.width - Text.sizeOfChars text - 1) ('(' :: comment) := by
      rw [Text.cut_append_eq, Text.cut_of_size_le (by omega), Text.cut, hsize, if_pos (by omega)]
    rw [Option.eq_none_iff_forall_ne_some]
    intro stamp hread
    obtain ⟨front, zone, hfront, hspace, hdated, hzone⟩ := (read?_eq_some_iff hlayout).1 hread
    rw [hcut, Text.cut] at hfront
    split at hfront
    · -- The bracket is neither in front of the zone nor in it.
      have hmem : '(' ∈ front ++ ' ' :: zone := by
        rw [← hfront]
        simp
      rw [List.mem_append, List.mem_cons] at hmem
      rcases hmem with hmem | hmem | hmem
      · exact hdated.bracket_not_mem hmem
      · exact absurd hmem (by decide)
      · exact absurd (List.all_eq_true.1 (ZoneForm.all_isZoneChar hzone) _ hmem) (by decide)
    · -- The space in front of the bracket is the last one, and nothing is behind it.
      have hempty : Text.splitLast? ' ' (text ++ [' ']) = some (text, []) :=
        Text.splitLast?_eq_some_iff.2 ⟨rfl, List.not_mem_nil⟩
      rw [hfront, Text.splitLast?_eq_some_iff.2 ⟨rfl, hspace⟩] at hempty
      cases hempty
      cases hform : layout.zone <;> rw [hform] at hzone <;> cases hzone

/-! ## Two layouts -/

/-- A zone and a beginning of it are read in the same form. In digits, they are the same. -/
theorem ZoneForm.eq_of_prefix (hzone : form.read? zone = some offset)
    (hpart : form'.read? part = some offset') (hbegins : part <+: zone) :
    form = form' ∧ (form = .numeric → part = zone) := by
  have hsign {sign : Char} (hsign : sign = '+' ∨ sign = '-') : sign.isAlpha = false := by
    rcases hsign with rfl | rfl <;> decide
  cases form with
  | named =>
    refine ⟨?_, nofun⟩
    cases form' with
    | named => rfl
    | numeric =>
      obtain ⟨sign, digits, rfl, hplus, -⟩ := exists_sign_of_numericOffset? hpart
      have hletter := List.all_eq_true.1 (letters_of_namedOffset? hzone).1 sign
        (hbegins.subset List.mem_cons_self)
      rw [hsign hplus] at hletter
      cases hletter
  | numeric =>
    obtain ⟨sign, digits, rfl, hplus, hlen, -⟩ := exists_sign_of_numericOffset? hzone
    cases form' with
    | named =>
      obtain ⟨hletters, ⟨hpos, -⟩, -⟩ := letters_of_namedOffset? hpart
      cases part with
      | nil => exact absurd hpos (Nat.lt_irrefl 0)
      | cons c part =>
        obtain ⟨rfl, -⟩ := List.cons_prefix_cons.1 hbegins
        rw [List.all_cons, hsign hplus, Bool.false_and] at hletters
        cases hletters
    | numeric =>
      obtain ⟨_, digits', rfl, -, hlen', -⟩ := exists_sign_of_numericOffset? hpart
      exact ⟨rfl, fun _ => hbegins.eq_of_length (by rw [List.length_cons, List.length_cons, hlen,
        hlen'])⟩

/-- `Before a b`: of two layouts that differ in their width only and have zones by name, the earlier
is the narrower, or wider by one. -/
def Layout.Before (a b : Layout) : Prop :=
  a.weekday = b.weekday → a.clock = b.clock → a.zone = .named → b.zone = .named →
    a.width < b.width ∨ a.width = b.width + 1

instance : DecidableRel Layout.Before := fun a b =>
  inferInstanceAs (Decidable (a.weekday = b.weekday → _))

theorem Layout.pairwise_before : Layout.all.Pairwise Layout.Before := by decide

/-- **A layout with room for more than the date agrees with any later one.** -/
theorem Layout.eq_of_size_lt (hlayout : layout ∈ Layout.all) (hother : other ∈ Layout.all)
    (hbefore : layout.Before other) (hread : layout.read? text = some stamp)
    (hread' : other.read? text = some stamp') (hwide : Text.sizeOfChars text < layout.width) :
    stamp = stamp' := by
  obtain ⟨front, zone, hcut, -, hdated, hzone⟩ := (read?_eq_some_iff hlayout).1 hread
  obtain ⟨front', part, hcut', -, hdated', hpart⟩ := (read?_eq_some_iff hother).1 hread'
  obtain ⟨rest, hrest⟩ := Text.cut_isPrefix other.width text
  rw [Text.cut_of_size_le (Nat.le_of_lt hwide)] at hcut
  rw [hcut', List.append_assoc, List.cons_append, hcut] at hrest
  obtain ⟨⟨hweekday, hclock, rfl⟩, hdate, htime⟩ := hdated.unique hdated' hrest.symm
  obtain ⟨-, rfl⟩ := List.cons.inj (List.append_cancel_left hrest)
  obtain ⟨hform, hnumeric⟩ := ZoneForm.eq_of_prefix hzone hpart (List.prefix_append _ _)
  have hsame : part = part ++ rest := by
    cases hlz : layout.zone with
    | numeric => exact hnumeric hlz
    | named =>
      -- The other layout is narrower by one at most, so it has room for the whole date too.
      have hwidth := hbefore hweekday hclock hlz (hform ▸ hlz)
      rw [Text.cut_of_size_le (by omega), hcut] at hcut'
      exact (List.cons.inj (List.append_cancel_left hcut')).2.symm
  rw [← hsame, hform, hpart, Option.some.injEq] at hzone
  obtain ⟨_, _, _, _⟩ := stamp
  obtain ⟨_, _, _, _⟩ := stamp'
  cases hdate
  cases htime
  cases hzone
  rfl

/-! ## All layouts -/

/-- Where the first layout that reads a date has room for more, all those that read it agree. -/
theorem Layout.eq_of_first {before after : List Layout}
    (hall : Layout.all = before ++ layout :: after)
    (hnone : ∀ other ∈ before, other.read? text = none)
    (hread : layout.read? text = some stamp) (hwide : Text.sizeOfChars text < layout.width) :
    ∀ other ∈ Layout.all, other.read? text = none ∨ other.read? text = some stamp := by
  intro other hother
  have hplace := hother
  have hpairwise := Layout.pairwise_before
  rw [hall, List.mem_append, List.mem_cons] at hplace
  rw [hall, List.pairwise_append, List.pairwise_cons] at hpairwise
  rcases hplace with hbefore | rfl | hafter
  · exact .inl (hnone other hbefore)
  · exact .inr hread
  · cases hread' : other.read? text with
    | none => exact .inl rfl
    | some stamp' =>
      have hlayout : layout ∈ Layout.all := hall ▸ List.mem_append_cons_self
      rw [Layout.eq_of_size_lt hlayout hother (hpairwise.2.1.1 other hafter) hread hread' hwide]
      exact .inr rfl

/-- The text is as long as some layout is wide that reads it, or longer. -/
def FillsLayout (text : List Char) : Prop :=
  ∃ layout ∈ Layout.all, layout.width ≤ Text.sizeOfChars text ∧ (layout.read? text).isSome

instance (text : List Char) : Decidable (FillsLayout text) :=
  inferInstanceAs (Decidable (∃ layout ∈ Layout.all, _))

/-- The text without the white space behind it, and a comment in brackets. -/
def commented (text comment : String) : String :=
  String.ofList (Text.trimEnd text.toList ++ ' ' :: '(' :: (comment.toList ++ [')']))

/-- **A date keeps its meaning with a comment behind it, or loses it**, according to whether it is
as long as some layout that reads it. -/
theorem Timestamp.ofText?_commented {text : String} (h : Timestamp.ofText? text = some stamp)
    (comment : String) :
    Timestamp.ofText? (commented text comment) =
      if FillsLayout (Text.trim text.toList) then some stamp else none := by
  have hne : Text.trim text.toList ≠ [] := by
    intro hnil
    have hnone : (Layout.all.findSome? fun layout => layout.read? []) = none := by decide
    rw [Timestamp.ofText?, hnil, hnone] at h
    cases h
  have htrim : Text.trim (commented text comment).toList =
      Text.trim text.toList ++ ' ' :: '(' :: (comment.toList ++ [')']) := by
    rw [commented, String.toList_ofList]
    have htail : ' ' :: '(' :: (comment.toList ++ [')']) =
        (' ' :: '(' :: comment.toList) ++ [')'] := rfl
    exact Text.trim_trimEnd_append hne htail (by decide)
  rw [Timestamp.ofText?] at h ⊢
  rw [htrim]
  generalize Text.trim text.toList = text at *
  obtain ⟨before, first, after, hall, hfirst, hnone⟩ := List.findSome?_eq_some_iff.1 h
  have hmem : first ∈ Layout.all := hall ▸ List.mem_append_cons_self
  have hcomment {layout : Layout} (hlayout : layout ∈ Layout.all) :=
    Layout.read?_comment hlayout text (comment.toList ++ [')'])
  by_cases hwide : first.width ≤ Text.sizeOfChars text
  · -- The layout that read the date is still the first that reads anything.
    have hfills : FillsLayout text := ⟨first, hmem, hwide, by rw [hfirst, Option.isSome_some]⟩
    rw [if_pos hfills]
    refine List.findSome?_eq_some_iff.2 ⟨before, first, after, hall, ?_, fun layout hbefore => ?_⟩
    · rw [hcomment hmem, if_pos hwide, hfirst]
    · rw [hcomment (hall ▸ List.mem_append_left _ hbefore), hnone layout hbefore, ite_self]
  · -- It had room for more, so whatever reads the date agrees with it.
    have hagree := Layout.eq_of_first hall hnone hfirst (Nat.lt_of_not_le hwide)
    split
    next hfills =>
      obtain ⟨layout, hlayout, hwidth, hsome⟩ := hfills
      refine findSome?_eq_some_of_forall (fun other hother => ?_) ⟨layout, hlayout, ?_⟩
      · rw [hcomment hother]
        split
        · exact hagree other hother
        · exact .inl rfl
      · rw [hcomment hlayout, if_pos hwidth]
        refine (hagree layout hlayout).resolve_left fun hnone => ?_
        rw [hnone] at hsome
        cases hsome
    next hfills =>
      refine List.findSome?_eq_none_iff.2 fun layout hlayout => ?_
      rw [hcomment hlayout]
      split
      next hwidth =>
        refine Option.not_isSome_iff_eq_none.1 fun hsome => ?_
        exact hfills ⟨layout, hlayout, hwidth, hsome⟩
      · rfl

/-- The comment of a zone in hours and minutes. -/
theorem Timestamp.ofText?_commented_pacific :
    ∃ stamp, Timestamp.ofText? "Mon, 19 Jan 2015 01:23:42 -0800" = some stamp ∧
      Timestamp.ofText? (commented "Mon, 19 Jan 2015 01:23:42 -0800" "PST") = some stamp := by
  have hread : Timestamp.ofText? "Mon, 19 Jan 2015 01:23:42 -0800" =
      some ⟨⟨2015, 1, 19, by decide⟩, ⟨1, 23, 42, 0, by decide⟩, -480, by decide⟩ := by decide
  refine ⟨_, hread, ?_⟩
  rw [Timestamp.ofText?_commented hread, if_pos (by decide)]

/-- A date in universal time, which is shorter than any layout that reads it, is lost behind the
same comment. -/
theorem Timestamp.ofText?_commented_universal :
    ¬ ∀ text comment stamp, '(' ∉ comment.toList → ')' ∉ comment.toList →
      Timestamp.ofText? text = some stamp →
      ∃ stamp', Timestamp.ofText? (commented text comment) = some stamp' ∧
        stamp'.unixSeconds = stamp.unixSeconds ∧ stamp'.nanos = stamp.nanos ∧
          stamp'.offset = stamp.offset := by
  intro hkeeps
  have hread : Timestamp.ofText? "8 Mar 2015 10:52:00 UT" =
      some ⟨⟨2015, 3, 8, by decide⟩, ⟨10, 52, 0, 0, by decide⟩, 0, by decide⟩ := by decide
  obtain ⟨stamp, hcommented, -⟩ := hkeeps _ "UTC" _ (by decide) (by decide) hread
  have hnone : Timestamp.ofText? (commented "8 Mar 2015 10:52:00 UT" "UTC") = none := by decide
  rw [hnone] at hcommented
  cases hcommented

end Calendar

end MailOutline
