import MailOutline.Proofs.Dates.Loose

/-!
# The zone of a date

The zone of a date is the run of letters, digits and signs behind the time of day. A layout that is
narrower than the date reads only the beginning of it.

* `ZoneAt`: the whole zone of a text, wherever a date and a time of day are read in front of it.
* `CutSafe`: the zones of which no beginning denotes another offset. Those that are written to the
  letter are such (`ZoneText.cutSafe`).
* `Timestamp.ofText?_zone`: the offset of a date is that of a beginning of its zone. It is always
  that of the whole zone if and only if the zone is one of those.
-/

namespace MailOutline.Calendar

variable {text front behind zone token part : List Char} {form : ZoneForm} {offset : Int}
  {layout : Layout} {stamp : Timestamp}

/-! ## Zones -/

/-- The letters, digits and signs of a zone. -/
def isZoneChar (c : Char) : Bool := c.isAlpha || c.isDigit || c == '+' || c == '-'

theorem isZoneChar_iff {c : Char} :
    isZoneChar c = true ↔ c.isAlpha = true ∨ c.isDigit = true ∨ c = '+' ∨ c = '-' := by
  simp only [isZoneChar, Bool.or_eq_true, beq_iff_eq, or_assoc]

theorem isBlank_eq_false_of_isZoneChar {c : Char} (h : isZoneChar c = true) :
    Text.isBlank c = false := by
  rcases isZoneChar_iff.1 h with h | h | rfl | rfl
  · exact isBlank_eq_false_of_isAlpha h
  · exact isBlank_eq_false_of_isDigit h
  · decide
  · decide

theorem narrow_of_isZoneChar (h : token.all isZoneChar = true) : Narrow token := by
  intro c hc
  rcases isZoneChar_iff.1 (List.all_eq_true.1 h c hc) with hletter | hdigit | rfl | rfl
  · have hrange := toNat_of_isAlpha hletter
    exact utf8Size_of_lt (by omega)
  · have hrange := toNat_of_isDigit hdigit
    exact utf8Size_of_lt (by omega)
  · decide
  · decide

theorem space_not_mem_of_isZoneChar (h : token.all isZoneChar = true) : ' ' ∉ token :=
  fun hmem => absurd (List.all_eq_true.1 h _ hmem) (by decide)

/-- The offset of a zone in either form. -/
def zoneOffset? (zone : List Char) : Option Int := (numericOffset? zone).or (namedOffset? zone)

/-- A name is at most five letters. -/
theorem letters_of_namedOffset? (h : namedOffset? zone = some offset) :
    zone.all Char.isAlpha = true ∧ (0 < zone.length ∧ zone.length ≤ 5) ∧
      offset.natAbs < 24 * 60 := by
  rw [namedOffset?] at h
  split at h
  next hname =>
    have hhours := zoneHours_range (zone.map Char.toLower)
    refine ⟨hname.1, ?_, by cases h; omega⟩
    have hlen (name : List Char) (h : zone.map Char.toLower = name) :
        zone.length = name.length := by
      rw [← h, List.length_map]
    rcases hname.2 with hlong | hname | hname
    · omega
    · rw [hlen _ hname]
      decide
    · rw [hlen _ hname]
      decide
  · cases h

theorem zoneOffset?_eq_some_iff :
    zoneOffset? zone = some offset ↔ ∃ form : ZoneForm, form.read? zone = some offset := by
  rw [zoneOffset?, Option.or_eq_some_iff]
  constructor
  · rintro (hread | ⟨-, hread⟩)
    · exact ⟨.numeric, hread⟩
    · exact ⟨.named, hread⟩
  · rintro ⟨form, hread⟩
    cases form with
    | numeric => exact .inl hread
    | named =>
      refine .inr ⟨?_, hread⟩
      have hletters := (letters_of_namedOffset? hread).1
      rw [Option.eq_none_iff_forall_ne_some]
      intro other hother
      obtain ⟨sign, digits, rfl, hsign, -⟩ := exists_sign_of_numericOffset? hother
      rw [List.all_cons, Bool.and_eq_true] at hletters
      rcases hsign with rfl | rfl
      · exact absurd hletters.1 (by decide)
      · exact absurd hletters.1 (by decide)

theorem ZoneForm.all_isZoneChar (h : form.read? zone = some offset) :
    zone.all isZoneChar = true := by
  rw [List.all_eq_true]
  intro c hc
  cases form with
  | named => exact isZoneChar_iff.2 (.inl (List.all_eq_true.1 (letters_of_namedOffset? h).1 c hc))
  | numeric =>
    obtain ⟨sign, digits, rfl, hsign, -, hdigits, -⟩ := exists_sign_of_numericOffset? h
    rcases List.mem_cons.1 hc with rfl | hc
    · exact isZoneChar_iff.2 (.inr (.inr hsign))
    · exact isZoneChar_iff.2 (.inr (.inl (List.all_eq_true.1 hdigits c hc)))

theorem ZoneForm.natAbs_lt (h : form.read? zone = some offset) : offset.natAbs < 24 * 60 := by
  cases form with
  | named => exact (letters_of_namedOffset? h).2.2
  | numeric =>
    obtain ⟨_, _, -, -, -, -, hlt⟩ := exists_sign_of_numericOffset? h
    exact hlt

/-! ## The place of the zone -/

/-- `ZoneAt text token`: behind a date and a time of day and a space, `token` is the whole run of
letters, digits and signs. -/
inductive ZoneAt : List Char → List Char → Prop
  /-- Behind what is read as a date and a time of day. -/
  | intro {weekday : Bool} {clock : Clock} {front behind : List Char} {date : Date} {time : Time}
      (dated : Dated weekday clock front date time) :
      ZoneAt (front ++ ' ' :: behind) (behind.takeWhile isZoneChar)

theorem ZoneAt.eq_of_dated {weekday : Bool} {clock : Clock} {date : Date} {time : Time}
    (h : ZoneAt text token) (hdated : Dated weekday clock front date time)
    (htext : text = front ++ ' ' :: behind) : token = behind.takeWhile isZoneChar := by
  cases h with
  | intro hdated' =>
    obtain ⟨⟨-, -, rfl⟩, -⟩ := hdated'.unique hdated htext
    rw [(List.cons.inj (List.append_cancel_left htext)).2]

/-- A text has one zone. -/
theorem ZoneAt.unique {other : List Char} (h : ZoneAt text token) (h' : ZoneAt text other) :
    token = other := by
  cases h' with
  | intro hdated => exact h.eq_of_dated hdated rfl

theorem ZoneAt.all_isZoneChar (h : ZoneAt text token) : token.all isZoneChar = true := by
  cases h with
  | intro => exact List.all_takeWhile

/-- A date is read with a beginning of its zone. -/
theorem Timestamp.exists_zoneAt {text : String} (h : Timestamp.ofText? text = some stamp) :
    ∃ token part, ZoneAt (Text.trim text.toList) token ∧ part <+: token ∧
      zoneOffset? part = some stamp.offset := by
  obtain ⟨_, _, _, front, zone, rest, htext, hdated, hzone⟩ := Timestamp.exists_dated h
  rw [htext]
  refine ⟨_, zone, .intro hdated, ?_, zoneOffset?_eq_some_iff.2 ⟨_, hzone⟩⟩
  rw [List.takeWhile_append_of_pos (List.all_eq_true.1 (ZoneForm.all_isZoneChar hzone))]
  exact List.prefix_append _ _

/-! ## Dates with a given zone -/

/-- A date and a time of day in which `n` spaces more would do no harm. -/
def spacedFront (n : Nat) : List Char :=
  'M' :: 'o' :: 'n' :: ',' :: ' ' :: '2' :: (List.replicate n ' ' ++ "Jan2006 15:04:05".toList)

theorem dated_spacedFront {n : Nat} (h : n < 5) :
    Dated true .long (spacedFront n) ⟨2006, 1, 2, by decide⟩ ⟨15, 4, 5, 0, by decide⟩ := by
  have hread : ∀ n < 5,
      Clock.long.read? ('2' :: (List.replicate n ' ' ++ "Jan2006 15:04:05".toList)) =
        some (⟨2006, 1, 2, by decide⟩, ⟨15, 4, 5, 0, by decide⟩) := by
    decide
  exact .weekday (by decide) (hread n h)

theorem narrow_spacedFront (n : Nat) : Narrow (spacedFront n) := by
  have hspaces : Narrow (List.replicate n ' ') := fun c hc => by
    rw [List.eq_of_mem_replicate hc]
    decide
  have hsizes : ("Jan2006 15:04:05".toList.all fun c => c.utf8Size == 1) = true := by decide
  have hrest : Narrow "Jan2006 15:04:05".toList := fun c hc =>
    beq_iff_eq.1 (List.all_eq_true.1 hsizes c hc)
  simp only [spacedFront, narrow_cons, narrow_append, hspaces, hrest, and_true]
  decide

theorem length_spacedFront (n : Nat) : (spacedFront n).length = n + 22 := by
  simp only [spacedFront, List.length_cons, List.length_append, List.length_replicate]
  rfl

theorem trim_spacedFront {n : Nat} (htoken : token.all isZoneChar = true) (hne : token ≠ []) :
    Text.trim (spacedFront n ++ ' ' :: token) = spacedFront n ++ ' ' :: token := by
  have hlast : Text.isBlank (token.getLast hne) = false :=
    isBlank_eq_false_of_isZoneChar (List.all_eq_true.1 htoken _ (List.getLast_mem hne))
  have hconcat : spacedFront n ++ ' ' :: token =
      (spacedFront n ++ ' ' :: token.dropLast) ++ [token.getLast hne] := by
    rw [List.append_assoc, List.cons_append, List.dropLast_concat_getLast]
  have htrim := @Text.trim_append [] (spacedFront n ++ ' ' :: token) [] rfl
    ⟨'M', _, rfl, by decide⟩ ⟨_, _, hconcat, hlast⟩
  rwa [List.nil_append, List.append_nil, List.reverse_nil, Text.skipBlank, List.dropWhile_nil,
    List.reverse_nil, List.append_nil] at htrim

theorem zoneAt_spacedFront {n : Nat} (hn : n < 5) (htoken : token.all isZoneChar = true)
    (hne : token ≠ []) :
    ZoneAt (Text.trim (String.ofList (spacedFront n ++ ' ' :: token)).toList) token := by
  have hrun : token.takeWhile isZoneChar = token := by
    calc token.takeWhile isZoneChar = (token ++ []).takeWhile isZoneChar := by
          rw [List.append_nil]
      _ = token := by
        rw [List.takeWhile_append_of_pos (List.all_eq_true.1 htoken), List.takeWhile_nil,
          List.append_nil]
  have hat : ZoneAt (spacedFront n ++ ' ' :: token) (token.takeWhile isZoneChar) :=
    .intro (dated_spacedFront hn)
  rw [hrun] at hat
  rwa [String.toList_ofList, trim_spacedFront htoken hne]

/-- A layout with a day of the week cuts the zone of such a date where its width ends. -/
theorem Layout.read?_spacedFront {n : Nat} (hlayout : layout ∈ Layout.all) (hn : n < 5)
    (hweekday : layout.weekday = true) (hclock : layout.clock = .long)
    (htoken : token.all isZoneChar = true) (hpart : part <+: token)
    (hwidth : layout.width = n + 23 + part.length) :
    layout.read? (spacedFront n ++ ' ' :: token) =
      (layout.zone.read? part).bind
        (Timestamp.ofParts? ⟨2006, 1, 2, by decide⟩ ⟨15, 4, 5, 0, by decide⟩) := by
  have hlength := length_spacedFront n
  obtain ⟨rest, rfl⟩ := hpart
  rw [List.all_append, Bool.and_eq_true] at htoken
  refine Layout.read?_of_dated hlayout (by rw [hweekday, hclock]; exact dated_spacedFront hn) ?_
    (space_not_mem_of_isZoneChar htoken.1)
  have hleft : layout.width - ((spacedFront n).length + 1) = part.length := by omega
  rw [cut_append_space (narrow_spacedFront n) (by omega), hleft,
    Text.cut_append (narrow_of_isZoneChar htoken.1), List.take_length, Nat.sub_self, Text.cut_zero,
    List.append_nil]

/-- **Any beginning of a zone that denotes an offset decides some date** with that zone. -/
theorem exists_ofText?_of_prefix (htoken : token.all isZoneChar = true) (hpart : part <+: token)
    (h : zoneOffset? part = some offset) :
    ∃ text stamp, Timestamp.ofText? text = some stamp ∧ ZoneAt (Text.trim text.toList) token ∧
      stamp.offset = offset := by
  obtain ⟨form, hread⟩ := zoneOffset?_eq_some_iff.1 h
  have hne : token ≠ [] := by
    rintro rfl
    rw [List.prefix_nil.1 hpart] at hread
    cases form <;> cases hread
  have htell : CanTell ⟨2006, 1, 2, by decide⟩ ⟨15, 4, 5, 0, by decide⟩ offset :=
    canTell_of_year _ (by decide) (ZoneForm.natAbs_lt hread)
  have hstamp : Timestamp.ofParts? ⟨2006, 1, 2, by decide⟩ ⟨15, 4, 5, 0, by decide⟩ offset =
      some ⟨_, _, offset, htell⟩ := Timestamp.ofParts?_eq_some_iff.2 ⟨rfl, rfl, rfl⟩
  have hlayouts {n : Nat} : Timestamp.ofText? (String.ofList (spacedFront n ++ ' ' :: token)) =
      Layout.all.findSome? fun layout => layout.read? (spacedFront n ++ ' ' :: token) := by
    rw [Timestamp.ofText?, String.toList_ofList, trim_spacedFront htoken hne]
  have hfirst : ⟨true, .long, .named, 28⟩ ∈ Layout.all := .head _
  have hsecond : ⟨true, .long, .numeric, 30⟩ ∈ Layout.all := .tail _ (.head _)
  cases form with
  | named =>
    -- With so many spaces the first layout cuts the zone behind that beginning.
    obtain ⟨-, ⟨hpos, hle⟩, -⟩ := letters_of_namedOffset? hread
    have hn : 5 - part.length < 5 := by omega
    refine ⟨_, ⟨_, _, offset, htell⟩, ?_, zoneAt_spacedFront hn htoken hne, rfl⟩
    rw [hlayouts, Layout.all, List.findSome?_cons, Layout.read?_spacedFront hfirst hn rfl rfl htoken
      hpart (by simp only; omega), hread, Option.bind_some, hstamp]
  | numeric =>
    -- The first layout cuts such a zone behind its second digit, and refuses what is left.
    obtain ⟨sign, digits, rfl, hsign, hlen, -⟩ := exists_sign_of_numericOffset? hread
    have hcut : (sign :: digits).take 3 <+: token := (List.take_prefix _ _).trans hpart
    have hnone : namedOffset? ((sign :: digits).take 3) = none :=
      namedOffset?_eq_none_of_sign (by rcases hsign with rfl | rfl <;> decide) _ _
    have htwo : 2 < 5 := by decide
    refine ⟨_, ⟨_, _, offset, htell⟩, ?_, zoneAt_spacedFront htwo htoken hne, rfl⟩
    rw [hlayouts, Layout.all, List.findSome?_cons,
      Layout.read?_spacedFront hfirst (by decide) rfl rfl htoken hcut (by simp [hlen]),
      ZoneForm.read?, hnone, Option.bind_none, List.findSome?_cons,
      Layout.read?_spacedFront hsecond (by decide) rfl rfl htoken hpart (by simp [hlen]), hread,
      Option.bind_some, hstamp]

/-! ## Zones that may be cut -/

/-- Every beginning of the zone denotes the offset of the zone, or none. -/
def CutSafe (token : List Char) : Prop :=
  ∀ part, part <+: token → zoneOffset? part = none ∨ zoneOffset? part = zoneOffset? token

theorem ZoneText.zoneOffset?_eq (h : ZoneText form text offset) :
    zoneOffset? text = some offset := zoneOffset?_eq_some_iff.2 ⟨form, h.read?_self⟩

/-- **A zone that is written to the letter may be cut anywhere.** -/
theorem ZoneText.cutSafe (h : ZoneText form text offset) : CutSafe text := by
  intro part hpart
  rw [h.zoneOffset?_eq, List.prefix_iff_eq_take.1 hpart]
  cases hzone : zoneOffset? (text.take part.length) with
  | none => exact .inl rfl
  | some other =>
    obtain ⟨form', hread⟩ := zoneOffset?_eq_some_iff.1 hzone
    rcases h.read?_take form' part.length with hnone | hsome
    · rw [hread] at hnone
      cases hnone
    · rw [← hread, hsome]
      exact .inr rfl

/-- **The offset of a date is that of a beginning of its zone.** It is that of the whole zone in
every date with the zone, if and only if the zone may be cut anywhere. -/
theorem Timestamp.ofText?_zone {text : String} (h : Timestamp.ofText? text = some stamp) :
    ∃ token, (∀ other, ZoneAt (Text.trim text.toList) other ↔ other = token) ∧
      (∃ part, part <+: token ∧ zoneOffset? part = some stamp.offset) ∧
      (CutSafe token ↔ ∀ text stamp, Timestamp.ofText? text = some stamp →
        ZoneAt (Text.trim text.toList) token → zoneOffset? token = some stamp.offset) := by
  obtain ⟨token, part, hat, hpart, hoffset⟩ := Timestamp.exists_zoneAt h
  refine ⟨token, fun other => ⟨fun hother => hother.unique hat, fun hother => hother ▸ hat⟩,
    ⟨part, hpart, hoffset⟩, fun hsafe text stamp h hat => ?_, fun hall part hpart => ?_⟩
  · obtain ⟨token', part, hat', hpart, hoffset⟩ := Timestamp.exists_zoneAt h
    obtain rfl := hat.unique hat'
    rcases hsafe part hpart with hnone | hsame
    · rw [hoffset] at hnone
      cases hnone
    · rw [← hsame, hoffset]
  · cases hzone : zoneOffset? part with
    | none => exact .inl rfl
    | some offset =>
      obtain ⟨text, stamp, h, hat', rfl⟩ := exists_ofText?_of_prefix hat.all_isZoneChar hpart hzone
      exact .inr (hall text stamp h hat').symm

/-- A zone in hours and minutes, in front of a comment. -/
theorem Timestamp.ofText?_zone_west :
    ∃ stamp, Timestamp.ofText? "Mon, 19 Jan 2015 01:23:42 -0800 (PST)" = some stamp ∧
      ZoneAt (Text.trim "Mon, 19 Jan 2015 01:23:42 -0800 (PST)".toList) "-0800".toList ∧
      zoneOffset? "-0800".toList = some stamp.offset := by
  have hread : Timestamp.ofText? "Mon, 19 Jan 2015 01:23:42 -0800 (PST)" =
      some ⟨⟨2015, 1, 19, by decide⟩, ⟨1, 23, 42, 0, by decide⟩, -480, by decide⟩ := by decide
  have hdated : Dated true .long "Mon, 19 Jan 2015 01:23:42".toList ⟨2015, 1, 19, by decide⟩
      ⟨1, 23, 42, 0, by decide⟩ := .weekday (by decide) (by decide)
  have zone : ZoneText .numeric "-0800".toList (-(60 * (8 : Nat) + (0 : Nat))) :=
    .west (h := ['0', '8']) (m := ['0', '0']) ⟨rfl, by decide, by decide⟩ (by decide)
      ⟨rfl, by decide, by decide⟩ (by decide)
  obtain ⟨token, htoken, -, hsafe⟩ := Timestamp.ofText?_zone hread
  have hat := (htoken token).2 rfl
  have hrun : "-0800 (PST)".toList.takeWhile isZoneChar = "-0800".toList := by decide
  obtain rfl := (hat.eq_of_dated hdated (by decide)).trans hrun
  exact ⟨_, hread, hat, hsafe.1 zone.cutSafe _ _ hread hat⟩

/-- A name that goes on in a sign and digits is no zone, and yet its first three letters decide. -/
theorem Timestamp.ofText?_zone_not_whole :
    ¬ ∀ text stamp, Timestamp.ofText? text = some stamp →
      ∃ token, ZoneAt (Text.trim text.toList) token ∧ zoneOffset? token = some stamp.offset := by
  intro hwhole
  have hread : Timestamp.ofText? "Mon, 2 Jan 2006 15:04:05 MST-0700" =
      some ⟨⟨2006, 1, 2, by decide⟩, ⟨15, 4, 5, 0, by decide⟩, -420, by decide⟩ := by decide
  have hdated : Dated true .long "Mon, 2 Jan 2006 15:04:05".toList ⟨2006, 1, 2, by decide⟩
      ⟨15, 4, 5, 0, by decide⟩ := .weekday (by decide) (by decide)
  obtain ⟨token, hat, hoffset⟩ := hwhole _ _ hread
  have htrim : Text.trim "Mon, 2 Jan 2006 15:04:05 MST-0700".toList =
      "Mon, 2 Jan 2006 15:04:05".toList ++ ' ' :: "MST-0700".toList := by decide
  obtain rfl := hat.eq_of_dated hdated htrim
  have hnone : zoneOffset? (List.takeWhile isZoneChar "MST-0700".toList) = none := by decide
  rw [hnone] at hoffset
  cases hoffset

end MailOutline.Calendar
