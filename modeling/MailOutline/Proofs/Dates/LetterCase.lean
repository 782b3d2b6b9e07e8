import MailOutline.Proofs.Dates.Reading
import MailOutline.Text.Basic

/-!
# Dates read in any letter case

Letters occur in a date as the day of the week, the month and the name of a zone, and none of them
is read with regard to its case. So a text denotes the same date when its letters are put into lower
case.

* `toLower_cases`: a character is its own lower case, or both are letters. Whatever tells letters
  from other characters only does not see the difference (`comp_toLower`).
* `digits?_lower`, `number?_lower`, `year?_lower`, `monthName?_lower`, `mark?_lower`: the scans find
  the same value, with the rest in lower case.
* `Clock.read?_lower`, `ZoneForm.read?_lower`, `Layout.read?_lower`: so do the pieces of a layout.
* `Timestamp.ofText?_congr`: texts with the same letters denote the same date.
-/

namespace MailOutline.Calendar

/-! ## Characters -/

theorem isAlpha_of_toNat {c : Char} (hge : 97 ≤ c.toNat) (hle : c.toNat ≤ 122) :
    c.isAlpha = true :=
  Bool.or_eq_true_iff.2 (.inr (Bool.and_eq_true_iff.2
    ⟨decide_eq_true (UInt32.le_iff_toNat_le.2 hge), decide_eq_true (UInt32.le_iff_toNat_le.2 hle)⟩))

/-- A character is its own lower case, or both are letters and differ. -/
theorem toLower_cases (c : Char) :
    c.toLower = c ∨ c.isAlpha = true ∧ 97 ≤ c.toLower.toNat ∧ c.toLower.toNat ≤ 122 := by
  by_cases hupper : 'A'.val ≤ c.val ∧ c.val ≤ 'Z'.val
  · refine .inr ⟨Bool.or_eq_true_iff.2 (.inl (decide_eq_true hupper)), ?_⟩
    have hge : 65 ≤ c.val.toNat := UInt32.le_iff_toNat_le.1 hupper.1
    have hle : c.val.toNat ≤ 90 := UInt32.le_iff_toNat_le.1 hupper.2
    have hval : c.toLower.val = c.val + 32 := congrArg Char.val (dif_pos hupper)
    have hnat : c.toLower.toNat = c.val.toNat + 32 := by
      rw [Char.toNat, hval, UInt32.toNat_add]
      exact Nat.mod_eq_of_lt (by
        have hword : (32 : UInt32).toNat = 32 := rfl
        omega)
    omega
  · exact .inl (dif_neg hupper)

theorem toLower_toLower (c : Char) : c.toLower.toLower = c.toLower := by
  rcases toLower_cases c with heq | ⟨-, hge, -⟩
  · rw [heq, heq]
  · refine dif_neg fun hupper => ?_
    have hle : c.toLower.toNat ≤ 90 := UInt32.le_iff_toNat_le.1 hupper.2
    omega

/-- What is the same for all letters is the same for a character and its lower case. -/
theorem comp_toLower {α : Type} {f : Char → α} {a : α} (h : ∀ c : Char, c.isAlpha = true → f c = a)
    (c : Char) : f c.toLower = f c := by
  rcases toLower_cases c with heq | ⟨halpha, hge, hle⟩
  · rw [heq]
  · rw [h c halpha, h _ (isAlpha_of_toNat hge hle)]

theorem isAlpha_toLower (c : Char) : c.toLower.isAlpha = c.isAlpha :=
  comp_toLower (fun _ h => h) c

theorem isDigit_toLower (c : Char) : c.toLower.isDigit = c.isDigit :=
  comp_toLower (fun _ h => isDigit_eq_false_of_isAlpha h) c

theorem isBlank_toLower (c : Char) : Text.isBlank c.toLower = Text.isBlank c :=
  comp_toLower (fun _ h => isBlank_eq_false_of_isAlpha h) c

theorem utf8Size_toLower (c : Char) : c.toLower.utf8Size = c.utf8Size := by
  refine comp_toLower (f := Char.utf8Size) (fun c h => utf8Size_of_lt ?_) c
  have hrange := toNat_of_isAlpha h
  omega

theorem toLower_eq_iff {mark : Char} (h : mark.isAlpha = false) (c : Char) :
    c.toLower = mark ↔ c = mark := by
  have hmark : ∀ c : Char, c.isAlpha = true → decide (c = mark) = false := fun c hc =>
    decide_eq_false fun heq => Bool.false_ne_true (h.symm.trans (heq ▸ hc))
  rw [← decide_eq_decide]
  exact comp_toLower (f := fun c => decide (c = mark)) hmark c

/-! ## Texts -/

variable (text : List Char)

theorem toLower_comp_toLower : Char.toLower ∘ Char.toLower = Char.toLower := by
  funext c
  exact toLower_toLower c

/-- Characters that are picked by a test that ignores case. -/
theorem takeWhile_lower {p : Char → Bool} (h : ∀ c : Char, p c.toLower = p c) :
    (text.map Char.toLower).takeWhile p = (text.takeWhile p).map Char.toLower := by
  rw [List.takeWhile_map, Function.comp_def]
  simp only [h]

theorem dropWhile_lower {p : Char → Bool} (h : ∀ c : Char, p c.toLower = p c) :
    (text.map Char.toLower).dropWhile p = (text.dropWhile p).map Char.toLower := by
  rw [List.dropWhile_map, Function.comp_def]
  simp only [h]

theorem skipBlank_lower :
    Text.skipBlank (text.map Char.toLower) = (Text.skipBlank text).map Char.toLower :=
  dropWhile_lower text isBlank_toLower

theorem trim_lower : Text.trim (text.map Char.toLower) = (Text.trim text).map Char.toLower := by
  unfold Text.trim
  rw [skipBlank_lower, ← List.map_reverse, skipBlank_lower, List.map_reverse]

theorem cut_lower (width : Nat) :
    Text.cut width (text.map Char.toLower) = (Text.cut width text).map Char.toLower := by
  induction text generalizing width with
  | nil => rfl
  | cons c rest ih =>
    rw [List.map_cons, Text.cut, Text.cut, utf8Size_toLower, ih]
    split <;> rfl

theorem splitLast?_lower {mark : Char} (h : mark.isAlpha = false) :
    Text.splitLast? mark (text.map Char.toLower) = (Text.splitLast? mark text).map
      fun (front, back) => (front.map Char.toLower, back.map Char.toLower) := by
  induction text with
  | nil => rfl
  | cons c rest ih =>
    rw [List.map_cons, Text.splitLast?, Text.splitLast?, ih]
    cases Text.splitLast? mark rest with
    | some parts => rfl
    | none =>
      simp only [Option.map_none, toLower_eq_iff h]
      split <;> rfl

/-! ## Scans -/

theorem digits?_lower (width : Nat) :
    digits? width (text.map Char.toLower) =
      (digits? width text).map fun (n, rest) => (n, rest.map Char.toLower) := by
  have hrun : ((text.map Char.toLower).take width).takeWhile Char.isDigit =
      (text.take width).takeWhile Char.isDigit := by
    rw [← List.map_take, takeWhile_lower _ isDigit_toLower]
    refine (List.map_congr_left fun c hc => ?_).trans (List.map_id _)
    exact Text.toLower_of_isDigit (List.all_eq_true.1 List.all_takeWhile c hc)
  simp only [digits?, hrun]
  split
  · rfl
  · rw [Option.map_some, List.map_drop]

theorem number?_lower (width : Nat) :
    number? width (text.map Char.toLower) =
      (number? width text).map fun (n, rest) => (n, rest.map Char.toLower) := by
  rw [number?, skipBlank_lower, digits?_lower, number?]

theorem mark?_lower {mark : Char} (h : mark.isAlpha = false) :
    mark? mark (text.map Char.toLower) = (mark? mark text).map (List.map Char.toLower) := by
  cases text with
  | nil => rfl
  | cons c rest =>
    simp only [List.map_cons, mark?, toLower_eq_iff h]
    split <;> rfl

theorem monthName?_lower :
    monthName? (text.map Char.toLower) =
      (monthName? text).map fun (month, rest) => (month, rest.map Char.toLower) := by
  unfold monthName?
  rw [← List.map_take, ← List.map_drop, List.map_map, toLower_comp_toLower, Option.map_map]
  rfl

/-- A year is scanned behind its sign, if it has one. -/
theorem year?_eq (text : List Char) :
    year? text =
      match mark? '+' (Text.skipBlank text), mark? '-' (Text.skipBlank text) with
      | some rest, _ => (digits? rest.length rest).map fun (n, left) => ((n : Int), left)
      | none, some rest => (digits? rest.length rest).map fun (n, left) => (-(n : Int), left)
      | none, none => (digits? 4 (Text.skipBlank text)).map fun (n, left) => ((n : Int), left) := by
  unfold year?
  cases Text.skipBlank text with
  | nil => rfl
  | cons c rest =>
    by_cases hplus : c = '+'
    · subst hplus
      rfl
    · by_cases hminus : c = '-'
      · subst hminus
        rfl
      · simp only [mark?, if_neg hplus, if_neg hminus]
        split
        next heq => exact absurd (List.cons.inj heq).1 hplus
        next heq => exact absurd (List.cons.inj heq).1 hminus
        next => rfl

theorem year?_lower :
    year? (text.map Char.toLower) =
      (year? text).map fun (year, rest) => (year, rest.map Char.toLower) := by
  rw [year?_eq, year?_eq, skipBlank_lower, mark?_lower _ (by decide), mark?_lower _ (by decide)]
  cases mark? '+' (Text.skipBlank text) with
  | some rest =>
    simp only [Option.map_some, List.length_map, digits?_lower, Option.map_map]
    rfl
  | none =>
    cases mark? '-' (Text.skipBlank text) with
    | some rest =>
      simp only [Option.map_none, Option.map_some, List.length_map, digits?_lower, Option.map_map]
      rfl
    | none =>
      simp only [Option.map_none, digits?_lower, Option.map_map]
      rfl

/-! ## Layouts -/

/-- A step that goes on in the same way from a changed outcome. -/
theorem bind_of_map {α β : Type} {x y : Option α} {change : α → α} {f : α → Option β}
    (hx : y = x.map change) (hf : ∀ a, f (change a) = f a) : (y >>= f) = (x >>= f) := by
  subst hx
  cases x with
  | none => rfl
  | some a => exact hf a

theorem readLong?_lower : readLong? (text.map Char.toLower) = readLong? text := by
  have hcolon : ∀ rest : List Char, mark? ':' (rest.map Char.toLower) =
      (mark? ':' rest).map (List.map Char.toLower) := fun rest => mark?_lower rest (by decide)
  refine bind_of_map (number?_lower text 2) fun (day, rest) => ?_
  refine bind_of_map ((congrArg monthName? (skipBlank_lower rest)).trans (monthName?_lower _))
    fun (month, rest) => ?_
  refine bind_of_map (year?_lower rest) fun (year, rest) => ?_
  refine bind_of_map (number?_lower rest 2) fun (hour, rest) => ?_
  refine bind_of_map (hcolon rest) fun rest => ?_
  refine bind_of_map (number?_lower rest 2) fun (minute, rest) => ?_
  refine bind_of_map (hcolon rest) fun rest => ?_
  refine bind_of_map (number?_lower rest 2) fun (second, rest) => ?_
  simp only [List.map_eq_nil_iff]

theorem readShort?_lower : readShort? (text.map Char.toLower) = readShort? text := by
  have hcolon : ∀ rest : List Char, mark? ':' (rest.map Char.toLower) =
      (mark? ':' rest).map (List.map Char.toLower) := fun rest => mark?_lower rest (by decide)
  refine bind_of_map (number?_lower text 2) fun (day, rest) => ?_
  refine bind_of_map ((congrArg monthName? (skipBlank_lower rest)).trans (monthName?_lower _))
    fun (month, rest) => ?_
  refine bind_of_map (number?_lower rest 2) fun (year, rest) => ?_
  refine bind_of_map (number?_lower rest 2) fun (hour, rest) => ?_
  refine bind_of_map (hcolon rest) fun rest => ?_
  refine bind_of_map (number?_lower rest 2) fun (minute, rest) => ?_
  simp only [List.map_eq_nil_iff]

theorem Clock.read?_lower (clock : Clock) :
    clock.read? (text.map Char.toLower) = clock.read? text := by
  cases clock with
  | long => exact readLong?_lower text
  | short => exact readShort?_lower text

theorem digit?_toLower (c : Char) : digit? c.toLower = digit? c := by
  refine comp_toLower (f := digit?) (a := none) (fun c h => ?_) c
  rw [digit?, isDigit_eq_false_of_isAlpha h, if_neg Bool.false_ne_true]

/-- A numeric zone is a sign with four characters. -/
theorem numericOffset?_cons (sign h₁ h₂ m₁ m₂ : Char) :
    numericOffset? [sign, h₁, h₂, m₁, m₂] =
      if sign = '+' then (minutesOf? h₁ h₂ m₁ m₂).map fun n => (n : Int)
      else if sign = '-' then (minutesOf? h₁ h₂ m₁ m₂).map fun n => -(n : Int)
      else none := by
  by_cases hplus : sign = '+'
  · subst hplus
    rfl
  · rw [if_neg hplus]
    by_cases hminus : sign = '-'
    · subst hminus
      rfl
    · rw [if_neg hminus]
      unfold numericOffset?
      split
      next heq => exact absurd (List.cons.inj heq).1 hplus
      next heq => exact absurd (List.cons.inj heq).1 hminus
      next => rfl

theorem numericOffset?_lower : numericOffset? (text.map Char.toLower) = numericOffset? text := by
  by_cases hlen : text.length = 5
  · have hplus := @toLower_eq_iff '+' (by decide)
    have hminus := @toLower_eq_iff '-' (by decide)
    match text, hlen with
    | [sign, h₁, h₂, m₁, m₂], _ =>
      simp only [List.map_cons, List.map_nil, numericOffset?_cons, minutesOf?, digit?_toLower,
        hplus, hminus]
  · rw [numericOffset?_eq_none hlen, numericOffset?_eq_none (by rwa [List.length_map])]

theorem namedOffset?_lower : namedOffset? (text.map Char.toLower) = namedOffset? text := by
  have hall : (text.map Char.toLower).all Char.isAlpha = text.all Char.isAlpha := by
    rw [List.all_map]
    exact congrArg text.all (funext isAlpha_toLower)
  simp only [namedOffset?, List.map_map, toLower_comp_toLower, hall, List.length_map]

theorem ZoneForm.read?_lower (form : ZoneForm) :
    form.read? (text.map Char.toLower) = form.read? text := by
  cases form with
  | named => exact namedOffset?_lower text
  | numeric => exact numericOffset?_lower text

/-- A day of the week is three letters with a comma and a space. -/
theorem afterWeekday?_cons (a b c d e : Char) (rest : List Char) :
    afterWeekday? (a :: b :: c :: d :: e :: rest) =
      if (d = ',' ∧ e = ' ') ∧ a.isAlpha ∧ b.isAlpha ∧ c.isAlpha then some rest else none := by
  by_cases hmarks : d = ',' ∧ e = ' '
  · obtain ⟨rfl, rfl⟩ := hmarks
    simp only [afterWeekday?, and_self, true_and]
  · rw [if_neg fun h => hmarks h.1]
    unfold afterWeekday?
    split
    next heq =>
      simp only [List.cons.injEq] at heq
      exact absurd ⟨heq.2.2.2.1, heq.2.2.2.2.1⟩ hmarks
    next => rfl

theorem afterWeekday?_of_length {text : List Char} (h : text.length < 5) :
    afterWeekday? text = none := by
  unfold afterWeekday?
  split
  · simp only [List.length_cons] at h
    omega
  · rfl

theorem afterWeekday?_lower :
    afterWeekday? (text.map Char.toLower) = (afterWeekday? text).map (List.map Char.toLower) := by
  by_cases hlen : text.length < 5
  · rw [afterWeekday?_of_length hlen, afterWeekday?_of_length (by rwa [List.length_map])]
    rfl
  · have hcomma := @toLower_eq_iff ',' (by decide)
    have hspace := @toLower_eq_iff ' ' (by decide)
    match text, hlen with
    | a :: b :: c :: d :: e :: rest, _ =>
      simp only [List.map_cons, afterWeekday?_cons, isAlpha_toLower, hcomma, hspace]
      split <;> rfl
    | [], h | [_], h | [_, _], h | [_, _, _], h | [_, _, _, _], h => exact absurd (by simp) h

theorem Layout.body?_lower (layout : Layout) :
    layout.body? (text.map Char.toLower) = (layout.body? text).map (List.map Char.toLower) := by
  unfold Layout.body?
  split
  · exact afterWeekday?_lower text
  · rfl

theorem Layout.read?_lower (layout : Layout) :
    layout.read? (text.map Char.toLower) = layout.read? text := by
  unfold Layout.read?
  rw [cut_lower]
  refine bind_of_map (layout.body?_lower _) fun body => ?_
  refine bind_of_map (splitLast?_lower body (by decide)) fun (clock, zone) => ?_
  simp only [Clock.read?_lower, ZoneForm.read?_lower]

/-- **A date is read without regard to letter case.** -/
theorem Timestamp.ofText?_congr {a b : String} (h : Text.sameLetters a b = true) :
    Timestamp.ofText? a = Timestamp.ofText? b := by
  have hlower : ∀ text : String, Timestamp.ofText? text =
      Layout.all.findSome? fun layout =>
        layout.read? ((Text.trim (text.toList.map Char.toLower))) := fun text => by
    simp only [Timestamp.ofText?, trim_lower, Layout.read?_lower]
  rw [hlower a, hlower b, Text.sameLetters_iff_toList.1 h]

end MailOutline.Calendar
