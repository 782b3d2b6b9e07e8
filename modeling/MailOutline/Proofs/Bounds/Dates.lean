import MailOutline.Proofs.Bounds.Checked
import MailOutline.Proofs.Dates.LetterCase
import MailOutline.Proofs.Grammar.Piece

/-!
# Dates are read without a stop

A text is cut at a byte, which may be one inside a character, and a zone is read byte by byte, with
sums and products of 32 bits. Both are written down as a machine carries them out.

Model of `truncate`, `numeric_offset`, `named_offset`, `parse_with` and `parse_date`, operation by
operation.

* `truncate?`: a text cut to a width, from where the end moves back until it lies between two
  characters. It always gets there, and what it keeps is the longest beginning that fits
  (`truncate?_eq`).
* `numericOffset?`, `namedOffset?`: zones. What passes the tests of a zone is small
  (`numericOffset?_eq`, `namedOffset?_eq`).
* `parseDate?_eq`: any text is read as `Timestamp.ofText?` reads it.
-/

namespace MailOutline.Checked

open MailOutline.Calendar (Layout ZoneForm Timestamp)
open MailOutline.Field (isDigit)

variable {text front zone : List Char}

/-! ## Cutting a text -/

/-- The beginning of a text up to a byte, if there is one: the place may lie inside a character, or
behind the end. -/
def sliceTo? : List Char → (place : Nat) → Option (List Char)
  | [], place => if place = 0 then some [] else none
  | c :: rest, place =>
    if place = 0 then some []
    else if c.utf8Size ≤ place then (sliceTo? rest (place - c.utf8Size)).map (c :: ·)
    else none

/-- Whether a byte place lies between two characters, or at an end of the text. -/
def isBoundary (text : List Char) (place : Nat) : Bool := (sliceTo? text place).isSome

/-- The last place between two characters, from `place` backwards. Below the first place there is no
other to go to. -/
def backOff (text : List Char) : (place : Nat) → Option Nat
  | 0 => if isBoundary text 0 then some 0 else none
  | place + 1 => if isBoundary text (place + 1) then some (place + 1) else backOff text place

/-- The beginning of a text that takes at most `width` bytes. -/
def truncate? (width : Nat) (text : List Char) : Option (List Char) :=
  if Text.sizeOfChars text ≤ width then some text
  else do
    let stop ← backOff text width
    sliceTo? text stop

theorem sliceTo?_eq_some_iff {place : Nat} :
    sliceTo? text place = some front ↔ front <+: text ∧ Text.sizeOfChars front = place := by
  induction text generalizing place front with
  | nil =>
    rw [sliceTo?, List.prefix_nil]
    constructor
    · intro h
      split at h <;> cases h
      next hzero => exact ⟨rfl, hzero.symm⟩
    · rintro ⟨rfl, rfl⟩
      exact if_pos rfl
  | cons c rest ih =>
    have hpos := c.utf8Size_pos
    rw [sliceTo?]
    constructor
    · intro h
      split at h
      next hzero =>
        cases h
        exact ⟨List.nil_prefix, hzero.symm⟩
      · split at h
        next hfits =>
          obtain ⟨more, hmore, rfl⟩ := Option.map_eq_some_iff.1 h
          obtain ⟨hbegins, hsize⟩ := ih.1 hmore
          refine ⟨List.cons_prefix_cons.2 ⟨rfl, hbegins⟩, ?_⟩
          rw [Text.sizeOfChars, hsize]
          omega
        · cases h
    · rintro ⟨hbegins, hsize⟩
      cases front with
      | nil => exact if_pos hsize.symm
      | cons d more =>
        obtain ⟨rfl, hmore⟩ := List.cons_prefix_cons.1 hbegins
        rw [Text.sizeOfChars] at hsize
        rw [if_neg (by omega), if_pos (by omega),
          ih.2 ⟨hmore, show Text.sizeOfChars more = place - d.utf8Size by omega⟩]
        rfl

theorem sizeOfChars_append (front back : List Char) :
    Text.sizeOfChars (front ++ back) = Text.sizeOfChars front + Text.sizeOfChars back := by
  induction front with
  | nil => exact (Nat.zero_add _).symm
  | cons c front ih => rw [List.cons_append, Text.sizeOfChars, Text.sizeOfChars, ih, Nat.add_assoc]

/-- **No place between the cut and the width** lies between two characters. -/
theorem not_isBoundary {width place : Nat} (hcut : Text.sizeOfChars (Text.cut width text) < place)
    (hwidth : place ≤ width) : isBoundary text place = false := by
  rw [isBoundary, Option.isSome_eq_false_iff, Option.isNone_iff_eq_none,
    Option.eq_none_iff_forall_ne_some]
  intro front hfront
  obtain ⟨hbegins, hsize⟩ := sliceTo?_eq_some_iff.1 hfront
  refine Nat.not_lt.2 hwidth (hsize ▸ Text.size_lt_of_isPrefix hbegins (Nat.lt_of_not_le ?_))
  -- A beginning no longer than the cut is a beginning of it, and takes no more bytes.
  intro hlen
  obtain ⟨more, hmore⟩ :=
    List.prefix_of_prefix_length_le hbegins (Text.cut_isPrefix width text) hlen
  rw [← hmore, sizeOfChars_append] at hcut
  omega

theorem sliceTo?_cut (width : Nat) (text : List Char) :
    sliceTo? text (Text.sizeOfChars (Text.cut width text)) = some (Text.cut width text) :=
  sliceTo?_eq_some_iff.2 ⟨Text.cut_isPrefix width text, rfl⟩

/-- **The end moves back to the cut**, and no further. -/
theorem backOff_eq {width place : Nat} (hcut : Text.sizeOfChars (Text.cut width text) ≤ place)
    (hwidth : place ≤ width) :
    backOff text place = some (Text.sizeOfChars (Text.cut width text)) := by
  have hstop : isBoundary text (Text.sizeOfChars (Text.cut width text)) = true := by
    rw [isBoundary, sliceTo?_cut]
    rfl
  induction place with
  | zero =>
    rw [Nat.le_zero.1 hcut] at hstop ⊢
    exact if_pos hstop
  | succ place ih =>
    rw [backOff]
    rcases Nat.eq_or_lt_of_le hcut with heq | hlt
    · rw [heq] at hstop ⊢
      exact if_pos hstop
    · rw [if_neg (by rw [not_isBoundary hlt hwidth]; exact Bool.false_ne_true)]
      exact ih (Nat.le_of_lt_succ hlt) (Nat.le_of_succ_le hwidth)

/-- **Cutting a text never stops the program**, even where the width ends inside a character. -/
theorem truncate?_eq (width : Nat) (text : List Char) :
    truncate? width text = some (Text.cut width text) := by
  rw [truncate?]
  by_cases h : Text.sizeOfChars text ≤ width
  · rw [if_pos h, Text.cut_of_size_le h]
  · rw [if_neg h, backOff_eq (Text.size_cut_le width text) (Nat.le_refl _)]
    exact sliceTo?_cut width text

/-- The second byte of `é` does not fit, so that the whole character is left out. -/
example : truncate? 2 ['a', 'é', 'b'] = some ['a'] := rfl

/-! ## Zones -/

/-- The minutes of an offset in seconds, which is less than a day. -/
def minutesOf? (seconds : Int) : Option Int :=
  if -86400 < seconds ∧ seconds < 86400 then some (seconds / 60) else none

/-- The number that two digits denote. -/
def twoDigits? (tens units : UInt8) : Option Int := do
  let high ← int32? ((← sub? tens.toNat 0x30) * 10)
  int32? (high + (← sub? units.toNat 0x30))

/-- The seconds of so many hours and minutes. -/
def secondsOf? (hours minutes : Int) : Option Int := do
  let whole ← int32? (hours * 60)
  let all ← int32? (whole + minutes)
  int32? (all * 60)

/-- The offset that the bytes of a sign with hours and minutes denote. -/
def offsetOfBytes? (bytes : List UInt8) : Option (Option Int) :=
  if bytes.length ≠ 5 then return none
  else do
    if (← slice? bytes 1 bytes.length).all isDigit = false then return none
    else do
      let hours ← twoDigits? (← bytes[1]?) (← bytes[2]?)
      let minutes ← twoDigits? (← bytes[3]?) (← bytes[4]?)
      if 60 ≤ minutes then return none
      else do
        let seconds ← secondsOf? hours minutes
        let sign ← bytes[0]?
        if sign = 0x2B then return minutesOf? seconds
        else if sign = 0x2D then return minutesOf? (-seconds)
        else return none

/-- The offset that a sign with hours and minutes denotes. -/
def numericOffset? (zone : List Char) : Option (Option Int) :=
  offsetOfBytes? (Text.bytes (String.ofList zone))

/-- The offset that an abbreviation denotes. -/
def namedOffset? (zone : List Char) : Option (Option Int) :=
  let name := zone.map Char.toLower
  let size := Text.sizeOfChars zone
  if ¬(name = ['u', 't'] ∨ name = ['z']) ∧ ¬(3 ≤ size ∧ size ≤ 5) then return none
  else if zone.all Char.isAlpha = false then return none
  else do
    let seconds ← int32? (Calendar.zoneHours name * 3600)
    return minutesOf? seconds

/-- The value of a byte that is a digit. -/
theorem toNat_of_isDigit {byte : UInt8} (h : isDigit byte = true) :
    48 ≤ byte.toNat ∧ byte.toNat ≤ 57 := by
  obtain ⟨hge, hle⟩ := Bool.and_eq_true_iff.1 h
  exact ⟨UInt8.le_iff_toNat_le.1 (of_decide_eq_true hge),
    UInt8.le_iff_toNat_le.1 (of_decide_eq_true hle)⟩

theorem twoDigits?_eq {tens units : UInt8} (htens : isDigit tens = true)
    (hunits : isDigit units = true) :
    twoDigits? tens units =
      some (((tens.toNat - 48 : Nat) : Int) * 10 + ((units.toNat - 48 : Nat) : Int)) := by
  have hhigh := toNat_of_isDigit htens
  have hlow := toNat_of_isDigit hunits
  refine Option.bind_eq_some_iff.2 ⟨_, sub?_of_le hhigh.1, ?_⟩
  refine Option.bind_eq_some_iff.2 ⟨_, int32?_of_range (by omega), ?_⟩
  refine Option.bind_eq_some_iff.2 ⟨_, sub?_of_le hlow.1, ?_⟩
  exact int32?_of_range (by omega)

theorem secondsOf?_eq {hours minutes : Int} (hhours : 0 ≤ hours ∧ hours < 100)
    (hminutes : 0 ≤ minutes ∧ minutes < 60) :
    secondsOf? hours minutes = some ((hours * 60 + minutes) * 60) := by
  refine Option.bind_eq_some_iff.2 ⟨_, int32?_of_range (by omega), ?_⟩
  refine Option.bind_eq_some_iff.2 ⟨_, int32?_of_range (by omega), ?_⟩
  exact int32?_of_range (by omega)

theorem minutesOf?_mul (minutes : Int) :
    minutesOf? (minutes * 60) =
      if -1440 < minutes ∧ minutes < 1440 then some minutes else none := by
  unfold minutesOf?
  by_cases h : -1440 < minutes ∧ minutes < 1440
  · rw [if_pos h, if_pos (by omega)]
    exact congrArg some (by omega)
  · rw [if_neg h, if_neg (by omega)]

/-! ## Zones, byte by byte -/

theorem digit?_ofUInt8 {byte : UInt8} (h : isDigit byte = true) :
    Calendar.digit? (Char.ofUInt8 byte) = some (byte.toNat - 48) := by
  rw [Calendar.digit?, if_pos ((Text.isDigit_ofUInt8 byte).trans h), Text.toNat_ofUInt8]

theorem ofUInt8_eq_iff {byte : UInt8} {c : Char} (h : c.toNat < 256) :
    Char.ofUInt8 byte = c ↔ byte = UInt8.ofNat c.toNat := by
  rw [← Char.toNat_inj, Text.toNat_ofUInt8, ← UInt8.toNat_inj, UInt8.toNat_ofNat',
    Nat.mod_eq_of_lt h]

section

variable {sign d₁ d₂ d₃ d₄ : UInt8} (h₁ : isDigit d₁ = true) (h₂ : isDigit d₂ = true)
  (h₃ : isDigit d₃ = true) (h₄ : isDigit d₄ = true)
include h₁ h₂ h₃ h₄

/-- What is done with a byte and four digits behind it. -/
theorem offsetOfBytes?_digits :
    offsetOfBytes? [sign, d₁, d₂, d₃, d₄] = do
      let hours ← twoDigits? d₁ d₂
      let minutes ← twoDigits? d₃ d₄
      if 60 ≤ minutes then return none
      else do
        let seconds ← secondsOf? hours minutes
        if sign = 0x2B then return minutesOf? seconds
        else if sign = 0x2D then return minutesOf? (-seconds)
        else return none := by
  have hall : ¬[d₁, d₂, d₃, d₄].all isDigit = false := by simp [h₁, h₂, h₃, h₄]
  have hlen : ¬[sign, d₁, d₂, d₃, d₄].length ≠ 5 := fun h => h rfl
  rw [offsetOfBytes?, if_neg hlen]
  exact if_neg hall

/-- **A byte with four digits behind it** is the zone that the characters denote. -/
theorem offsetOfBytes?_eq :
    offsetOfBytes? [sign, d₁, d₂, d₃, d₄] =
      some (Calendar.numericOffset? ([sign, d₁, d₂, d₃, d₄].map Char.ofUInt8)) := by
  have hplus : Char.ofUInt8 sign = '+' ↔ sign = 0x2B := ofUInt8_eq_iff (by decide)
  have hminus : Char.ofUInt8 sign = '-' ↔ sign = 0x2D := ofUInt8_eq_iff (by decide)
  have hrange₁ := toNat_of_isDigit h₁
  have hrange₂ := toNat_of_isDigit h₂
  have hrange₃ := toNat_of_isDigit h₃
  have hrange₄ := toNat_of_isDigit h₄
  simp only [List.map_cons, List.map_nil, Calendar.numericOffset?_cons, Calendar.minutesOf?,
    digit?_ofUInt8 h₁, digit?_ofUInt8 h₂, digit?_ofUInt8 h₃, digit?_ofUInt8 h₄, hplus, hminus]
  rw [offsetOfBytes?_digits h₁ h₂ h₃ h₄, twoDigits?_eq h₁ h₂, twoDigits?_eq h₃ h₄]
  simp only [Option.bind_eq_bind, Option.bind_some]
  by_cases hminutes : 10 * (d₃.toNat - 48) + (d₄.toNat - 48) < 60
  · rw [if_neg (by omega), secondsOf?_eq (by omega) (by omega), Option.bind_some, ← Int.neg_mul,
      minutesOf?_mul, minutesOf?_mul]
    by_cases hhours : 10 * (d₁.toNat - 48) + (d₂.toNat - 48) < 24
    · simp only [if_pos (And.intro hminutes hhours), Option.bind_some, Option.pure_def,
        Option.map_some]
      split
      · rw [if_pos (by omega)]
        exact congrArg (fun n => some (some n)) (by omega)
      · split
        · rw [if_pos (by omega)]
          exact congrArg (fun n => some (some n)) (by omega)
        · rfl
    · simp only [if_neg fun h : _ ∧ _ => hhours h.2]
      split
      · rw [if_neg (by omega)]
        rfl
      · split
        · rw [if_neg (by omega)]
          rfl
        · rfl
  · rw [if_pos (by omega)]
    simp only [if_neg fun h : _ ∧ _ => hminutes h.1]
    split
    · rfl
    · split <;> rfl

theorem lt_of_mem_offset (hsign : sign = 0x2B ∨ sign = 0x2D) :
    ∀ byte ∈ [sign, d₁, d₂, d₃, d₄], byte < 0x80 := by
  have hascii : sign < 0x80 := by rcases hsign with rfl | rfl <;> decide
  simp only [List.forall_mem_cons]
  exact ⟨hascii, Field.lt_of_isDigit h₁, Field.lt_of_isDigit h₂, Field.lt_of_isDigit h₃,
    Field.lt_of_isDigit h₄, fun _ h => nomatch h⟩

end

/-- Bytes that spell ASCII are the text that they spell. -/
theorem eq_map_of_bytes {run : List UInt8} (hascii : ∀ byte ∈ run, byte < 0x80)
    (h : Text.bytes (String.ofList zone) = run) : zone = run.map Char.ofUInt8 := by
  have hspelled := Text.ofBytes?_spelled hascii
  rw [← h, Text.ofBytes?_bytes, Option.some.injEq, h] at hspelled
  exact String.ofList_inj.1 hspelled

theorem exists_byte_of_isDigit {c : Char} (h : c.isDigit = true) :
    ∃ byte, c = Char.ofUInt8 byte ∧ isDigit byte = true := by
  have hrange := Calendar.toNat_of_isDigit h
  have hbyte : Char.ofUInt8 (UInt8.ofNat c.toNat) = c := (ofUInt8_eq_iff (by omega)).2 rfl
  refine ⟨UInt8.ofNat c.toNat, hbyte.symm, ?_⟩
  rw [← Text.isDigit_ofUInt8, hbyte]
  exact h

/-- A numeric zone is a sign and four digits, one byte each. -/
theorem exists_bytes_of_numericOffset? {offset : Int}
    (h : Calendar.numericOffset? zone = some offset) :
    ∃ sign d₁ d₂ d₃ d₄, Text.bytes (String.ofList zone) = [sign, d₁, d₂, d₃, d₄] ∧
      isDigit d₁ = true ∧ isDigit d₂ = true ∧ isDigit d₃ = true ∧ isDigit d₄ = true ∧
      (sign = 0x2B ∨ sign = 0x2D) := by
  obtain ⟨c, digits, rfl, hmark, hlen, hdigits, -⟩ := Calendar.exists_sign_of_numericOffset? h
  match digits, hlen with
  | [c₁, c₂, c₃, c₄], _ =>
    simp only [List.all_cons, List.all_nil, Bool.and_eq_true, and_true] at hdigits
    obtain ⟨sign, rfl, hsign⟩ : ∃ sign, c = Char.ofUInt8 sign ∧ (sign = 0x2B ∨ sign = 0x2D) := by
      rcases hmark with rfl | rfl
      · exact ⟨0x2B, rfl, .inl rfl⟩
      · exact ⟨0x2D, rfl, .inr rfl⟩
    obtain ⟨d₁, rfl, h₁⟩ := exists_byte_of_isDigit hdigits.1
    obtain ⟨d₂, rfl, h₂⟩ := exists_byte_of_isDigit hdigits.2.1
    obtain ⟨d₃, rfl, h₃⟩ := exists_byte_of_isDigit hdigits.2.2.1
    obtain ⟨d₄, rfl, h₄⟩ := exists_byte_of_isDigit hdigits.2.2.2
    exact ⟨sign, d₁, d₂, d₃, d₄, Text.bytes_spelled (lt_of_mem_offset h₁ h₂ h₃ h₄ hsign), h₁, h₂,
      h₃, h₄, hsign⟩

theorem offsetOfBytes?_eq_none {bytes : List UInt8}
    (h : ∀ sign d₁ d₂ d₃ d₄, bytes = [sign, d₁, d₂, d₃, d₄] →
      ¬[d₁, d₂, d₃, d₄].all isDigit = true) : offsetOfBytes? bytes = some none := by
  unfold offsetOfBytes?
  by_cases hlen : bytes.length = 5
  · match bytes, hlen with
    | [sign, d₁, d₂, d₃, d₄], _ =>
      rw [if_neg fun hne => hne rfl]
      exact if_pos (Bool.eq_false_iff.2 (h sign d₁ d₂ d₃ d₄ rfl))
  · exact if_pos hlen

/-- **No zone stops the program**: a digit is never below `0`, and the sums stay small. -/
theorem numericOffset?_eq (zone : List Char) :
    numericOffset? zone = some (Calendar.numericOffset? zone) := by
  unfold numericOffset?
  by_cases hdigits : ∃ sign d₁ d₂ d₃ d₄, Text.bytes (String.ofList zone) =
      [sign, d₁, d₂, d₃, d₄] ∧ [d₁, d₂, d₃, d₄].all isDigit = true
  · obtain ⟨sign, d₁, d₂, d₃, d₄, hbytes, hall⟩ := hdigits
    simp only [List.all_cons, List.all_nil, Bool.and_eq_true, and_true] at hall
    obtain ⟨h₁, h₂, h₃, h₄⟩ := hall
    rw [hbytes, offsetOfBytes?_eq h₁ h₂ h₃ h₄]
    refine congrArg some ?_
    by_cases hsign : sign = 0x2B ∨ sign = 0x2D
    · rw [← eq_map_of_bytes (lt_of_mem_offset h₁ h₂ h₃ h₄ hsign) hbytes]
    -- Behind any other byte four digits are no zone, whatever character the byte belongs to.
    · have hzone : Calendar.numericOffset? zone = none := by
        rw [Option.eq_none_iff_forall_ne_some]
        intro offset hread
        obtain ⟨_, _, _, _, _, hsame, -, -, -, -, hmark⟩ := exists_bytes_of_numericOffset? hread
        rw [hbytes] at hsame
        exact hsign ((List.cons.inj hsame).1 ▸ hmark)
      have hplus : Char.ofUInt8 sign ≠ '+' := fun h =>
        hsign (.inl ((ofUInt8_eq_iff (by decide)).1 h))
      have hminus : Char.ofUInt8 sign ≠ '-' := fun h =>
        hsign (.inr ((ofUInt8_eq_iff (by decide)).1 h))
      rw [hzone]
      exact (Calendar.numericOffset?_cons ..).trans ((if_neg hplus).trans (if_neg hminus))
  · have hzone : Calendar.numericOffset? zone = none := by
      rw [Option.eq_none_iff_forall_ne_some]
      intro offset hread
      obtain ⟨sign, d₁, d₂, d₃, d₄, hbytes, h₁, h₂, h₃, h₄, -⟩ :=
        exists_bytes_of_numericOffset? hread
      exact hdigits ⟨sign, d₁, d₂, d₃, d₄, hbytes, by simp [h₁, h₂, h₃, h₄]⟩
    rw [hzone]
    exact offsetOfBytes?_eq_none fun sign d₁ d₂ d₃ d₄ hbytes hall =>
      hdigits ⟨sign, d₁, d₂, d₃, d₄, hbytes, hall⟩

theorem sizeOfChars_of_narrow (h : Calendar.Narrow text) :
    Text.sizeOfChars text = text.length := by
  induction text with
  | nil => rfl
  | cons c rest ih =>
    obtain ⟨hc, hrest⟩ := Calendar.narrow_cons.1 h
    rw [Text.sizeOfChars, hc, ih hrest, List.length_cons, Nat.add_comm]

/-- **No abbreviation stops the program**: the hours of its zone are few. -/
theorem namedOffset?_eq (zone : List Char) :
    namedOffset? zone = some (Calendar.namedOffset? zone) := by
  have hrange := Calendar.zoneHours_range (zone.map Char.toLower)
  have hseconds : minutesOf? (Calendar.zoneHours (zone.map Char.toLower) * 3600) =
      some (Calendar.zoneHours (zone.map Char.toLower) * 60) := by
    rw [show Calendar.zoneHours (zone.map Char.toLower) * 3600 =
      Calendar.zoneHours (zone.map Char.toLower) * 60 * 60 by omega, minutesOf?_mul,
      if_pos (by omega)]
  unfold namedOffset? Calendar.namedOffset?
  simp only
  by_cases hletters : zone.all Char.isAlpha = true
  · rw [sizeOfChars_of_narrow (Calendar.narrow_of_letters hletters)]
    by_cases hknown : zone.map Char.toLower = ['u', 't'] ∨ zone.map Char.toLower = ['z']
    · rw [if_neg fun h => h.1 hknown, if_neg (by rw [hletters]; exact Bool.noConfusion),
        int32?_of_range (by omega), if_pos ⟨hletters, .inr hknown⟩]
      exact congrArg some hseconds
    · by_cases hlong : 3 ≤ zone.length ∧ zone.length ≤ 5
      · rw [if_neg fun h => h.2 hlong, if_neg (by rw [hletters]; exact Bool.noConfusion),
          int32?_of_range (by omega), if_pos ⟨hletters, .inl hlong⟩]
        exact congrArg some hseconds
      · rw [if_pos ⟨hknown, hlong⟩, if_neg fun h => h.2.elim hlong hknown]
        rfl
  · rw [if_neg fun h : zone.all Char.isAlpha = true ∧ _ => hletters h.1]
    split
    · rfl
    · exact if_pos (Bool.eq_false_iff.2 hletters)

/-! ## Dates -/

/-- The offset of a zone, written in one of the two ways. -/
def readZone? : ZoneForm → List Char → Option (Option Int)
  | .named => namedOffset?
  | .numeric => numericOffset?

/-- The timestamp that a text denotes in a layout. -/
def readLayout? (layout : Layout) (text : List Char) : Option (Option Timestamp) := do
  match layout.body? (← truncate? layout.width text) with
  | none => return none
  | some body =>
    match Text.splitLast? ' ' body with
    | none => return none
    | some (clock, zone) =>
      match layout.clock.read? clock with
      | none => return none
      | some (date, time) =>
        match ← readZone? layout.zone zone with
        | none => return none
        | some offset => return Timestamp.ofParts? date time offset

/-- The timestamp that a text denotes in the first layout that fits it. -/
def parseDate? (text : String) : Option (Option Timestamp) :=
  let trimmed := Text.trim text.toList
  Layout.all.findSomeM? fun layout => readLayout? layout trimmed

theorem readZone?_eq (form : ZoneForm) (zone : List Char) :
    readZone? form zone = some (form.read? zone) := by
  cases form with
  | named => exact namedOffset?_eq zone
  | numeric => exact numericOffset?_eq zone

theorem readLayout?_eq (layout : Layout) (text : List Char) :
    readLayout? layout text = some (layout.read? text) := by
  unfold readLayout? Layout.read?
  simp only [truncate?_eq, readZone?_eq, Option.bind_eq_bind, Option.bind_some, Option.pure_def]
  cases layout.body? (Text.cut layout.width text) with
  | none => rfl
  | some body =>
    cases hsplit : Text.splitLast? ' ' body with
    | none => simp only [hsplit, Option.bind_some, Option.bind_none]
    | some parts =>
      obtain ⟨clock, zone⟩ := parts
      simp only [hsplit, Option.bind_some]
      cases layout.clock.read? clock with
      | none => rfl
      | some found =>
        cases layout.zone.read? zone with
        | none => rfl
        | some offset => rfl

/-- **No text stops the reading of a date**, and each is read as the total function reads it. -/
theorem parseDate?_eq (text : String) : parseDate? text = some (Timestamp.ofText? text) := by
  simp only [parseDate?, readLayout?_eq]
  exact List.findSomeM?_pure

end MailOutline.Checked
