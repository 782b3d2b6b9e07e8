import MailOutline.Proofs.Grammar.Reading

/-!
# Where a text is refused

A text that is refused is read as the grammar says up to one place. In front of it so many lists are
open, with the values that stand in them so far. There nothing can be read, or a value was read
already and something follows it.

* `Inside`: the text in front of a place inside so many open lists.
* `Refused`: what is wrong at such a place. Outside of all lists the end of the text and a closing
  parenthesis stand where a value is missing. Inside a list they do not.
* `refused_of_value`, `toStep_value_of_refused`: what is wrong with a value where it begins.
* `RefusedInside`: what is wrong inside so many of the lists in front of which the text stands.
* `exists_refusedInside_items`, `exists_refusedInside`: what is refused is refused there. By
  induction on the length of the text in a list, and on the levels.
* `toStep_items_of_inside`, `toStep_value_of_inside`: what is refused there is refused as a whole.
  By induction on the open lists.
* `RefusedWhole`, `whole_eq_error_iff`: all of a text.
* `RefusedWhole.pos_iff`: when a list is open there.
-/

namespace MailOutline.Field

open Reading (toStep)
open Text (decimal)

variable {input rest behind front : List UInt8} {byte : UInt8} {failure : Failure}
  {fields : List Field} {limit levels left outer lists : Nat}
  {one : (input : List UInt8) → Except Failure (Reading Field input)}

/-! ## Places -/

/-- `Inside behind left lists front`: behind `front` and in front of `behind`, so many lists are
open. The values that stand in them so far nest so deep at most that a list at `behind`, with `left`
levels, would nest as deep. -/
inductive Inside (behind : List UInt8) (left : Nat) : (lists : Nat) → (front : List UInt8) → Prop
  /-- Behind white space alone, no list is open. -/
  | none {space : List UInt8} (blank : space.all isSpace = true) : Inside behind left 0 space
  /-- A list that is open, some values in it, and the lists that are open inside it. -/
  | list {space body front : List UInt8} {fields : List Field} {lists : Nat}
      (blank : space.all isSpace = true) (elements : DenoteAll Word body (front ++ behind) fields)
      (shallow : depthAll fields ≤ left + lists) (inner : Inside behind left lists front) :
      Inside behind left (lists + 1) (space ++ 0x28 :: (body ++ front))

theorem Inside.append_space {space : List UInt8} (blank : space.all isSpace = true)
    (h : Inside behind left lists front) : Inside behind left lists (space ++ front) := by
  have hblank : ∀ {more : List UInt8}, more.all isSpace = true →
      (space ++ more).all isSpace = true := fun hmore => by
    rw [List.all_append, blank, hmore, Bool.true_and]
  cases h with
  | none hmore => exact .none (hblank hmore)
  | list hmore elements shallow inner =>
    rw [← List.append_assoc]
    exact .list (hblank hmore) elements shallow inner

/-! ## What is wrong there -/

/-- Whether a value may begin with the byte. -/
def startsValue (byte : UInt8) : Bool :=
  byte == 0x28 || byte == 0x22 || byte == 0x7B || isAtomByte byte

/-- `Refused limit left lists input failure`: inside so many open lists, with `left` levels left of
the `limit`, there is something wrong in front of a text that does not begin with white space. -/
inductive Refused (limit left lists : Nat) : (input : List UInt8) → Failure → Prop
  /-- The text ends, and a value is missing. -/
  | endOfInput (outside : lists = 0) : Refused limit left lists [] ⟨.fault .endOfInput, []⟩
  /-- A closing parenthesis that closes no list. -/
  | closingParenthesis {rest : List UInt8} (outside : lists = 0) :
      Refused limit left lists (0x29 :: rest) ⟨.fault .closingParenthesis, 0x29 :: rest⟩
  /-- The text ends, and a list is open. -/
  | endInList (inside : 0 < lists) : Refused limit left lists [] ⟨.fault .endInList, []⟩
  /-- One list too many. -/
  | tooDeep {rest : List UInt8} (no_level : left = 0) :
      Refused limit left lists (0x28 :: rest) ⟨.tooDeep limit, 0x28 :: rest⟩
  /-- A quoted string with a fault in it. -/
  | quoted {rest : List UInt8} {failure : Failure} (h : quoted rest = .error failure) :
      Refused limit left lists (0x22 :: rest) failure
  /-- A literal with a fault in it. -/
  | literal {rest : List UInt8} {failure : Failure} (h : literal rest = .error failure) :
      Refused limit left lists (0x7B :: rest) failure
  /-- Digits that denote no number of 32 bits. -/
  | number {digit : UInt8} {more rest : List UInt8} (digits : (digit :: more).all isDigit = true)
      (large : UInt32.size ≤ decimal (digit :: more)) (maximal : stops isAtomByte rest = true) :
      Refused limit left lists (digit :: (more ++ rest)) ⟨.fault .numberTooLarge, rest⟩
  /-- A byte that no value begins with. -/
  | unexpectedByte {byte : UInt8} {rest : List UInt8} (no_value : startsValue byte = false)
      (no_close : byte ≠ 0x29) (no_space : isSpace byte = false) :
      Refused limit left lists (byte :: rest) ⟨.fault (.unexpectedByte byte), byte :: rest⟩

theorem Refused.stops (h : Refused limit left lists input failure) :
    stops isSpace input = true := by
  cases h with
  | endOfInput | closingParenthesis | endInList | tooDeep | quoted | literal => rfl
  | number digits =>
    have hatoms := all_isAtomByte_of_digits digits
    rw [List.all_cons, Bool.and_eq_true] at hatoms
    simp [Field.stops, isSpace_of_isAtomByte hatoms.1]
  | unexpectedByte _ _ no_space => simp [Field.stops, no_space]

/-- Inside a list, a closing parenthesis is in its place. -/
theorem Refused.ne_close (h : Refused limit left lists (byte :: rest) failure)
    (hlists : 0 < lists) : byte ≠ 0x29 := by
  rintro rfl
  cases h with
  | closingParenthesis outside => exact absurd outside (Nat.ne_of_gt hlists)
  | number digits =>
    rw [List.all_cons, Bool.and_eq_true] at digits
    exact absurd digits.1 (by decide)
  | unexpectedByte _ no_close => exact no_close rfl

/-! ## Values -/

/-- What is wrong with a value where it begins. -/
theorem refused_of_value (hopen : byte = 0x28 → left = 0) (hclose : byte = 0x29 → lists = 0)
    (hspace : isSpace byte = false)
    (h : toStep (value limit left (byte :: rest)) = .error failure) :
    Refused limit left lists (byte :: rest) failure := by
  by_cases hlist : byte = 0x28
  · obtain rfl := hopen hlist
    subst hlist
    cases h
    exact .tooDeep rfl
  by_cases hquote : byte = 0x22
  · subst hquote
    rw [toStep_value_quoted] at h
    exact .quoted (eq_of_map_eq_error h)
  by_cases hbrace : byte = 0x7B
  · subst hbrace
    rw [toStep_value_literal] at h
    exact .literal (eq_of_map_eq_error h)
  by_cases hatom : isAtomByte byte = true
  · have hatoms := all_isAtomByte_run hatom rest
    have hstop := stops_dropWhile isAtomByte rest
    rw [toStep_value_word limit left hatom, word] at h
    split at h
    next hword =>
      cases h
      obtain ⟨hdigits, hlarge, rfl⟩ :=
        (wordField_eq_error_iff (List.cons_ne_nil _ _) hatoms).1 hword
      have hnumber : Refused limit left lists
          (byte :: (rest.takeWhile isAtomByte ++ rest.dropWhile isAtomByte)) _ :=
        .number hdigits hlarge hstop
      rwa [List.takeWhile_append_dropWhile] at hnumber
    · cases h
  · unfold value at h
    simp only [if_neg hlist, if_neg hquote, if_neg hbrace, if_neg hatom] at h
    split at h
    next heq =>
      cases h
      subst heq
      exact .closingParenthesis (hclose rfl)
    next heq =>
      cases h
      exact .unexpectedByte (by simp [startsValue, hlist, hquote, hbrace, hatom]) heq hspace

/-- Where something is wrong, no value is read. -/
theorem toStep_value_of_refused (h : Refused limit left lists input failure)
    (hinput : input = [] → lists = 0) : toStep (value limit left input) = .error failure := by
  cases h with
  | endOfInput => exact toStep_value_nil limit left
  | closingParenthesis =>
    unfold value
    rfl
  | endInList inside => exact absurd (hinput rfl) (Nat.ne_of_gt inside)
  | tooDeep no_level =>
    subst no_level
    rfl
  | quoted h =>
    rw [toStep_value_quoted, h]
    rfl
  | literal h =>
    rw [toStep_value_literal, h]
    rfl
  | @number digit more rest digits large maximal =>
    have hatoms := all_isAtomByte_of_digits digits
    obtain ⟨hdigit, hmore⟩ := Bool.and_eq_true_iff.1 ((List.all_cons).symm.trans hatoms)
    obtain ⟨hrun, hbehind⟩ := takeWhile_dropWhile_iff.2 ⟨rfl, hmore, maximal⟩
    rw [toStep_value_word limit left hdigit, hrun, hbehind, word,
      (wordField_eq_error_iff (List.cons_ne_nil _ _) hatoms).2 ⟨digits, large, rfl⟩]
    rfl
  | @unexpectedByte byte rest no_value no_close =>
    simp only [startsValue, Bool.or_eq_false_iff, beq_eq_false_iff_ne] at no_value
    obtain ⟨⟨⟨hopen, hquote⟩, hbrace⟩, hatom⟩ := no_value
    unfold value
    simp only [if_neg hopen, if_neg no_close, if_neg hquote, if_neg hbrace, hatom]
    rfl

/-! ## What is refused is refused inside some lists -/

/-- `RefusedInside limit levels outer lists input failure`: inside `outer` lists, and with so many
levels left, the text is refused inside so many lists that it opens. -/
def RefusedInside (limit levels outer lists : Nat) (input : List UInt8) (failure : Failure) :
    Prop :=
  ∃ left front behind, left + lists = levels ∧ input = front ++ behind ∧
    Inside behind left lists front ∧ Refused limit left (outer + lists) behind failure

theorem RefusedInside.append_space {space : List UInt8} (blank : space.all isSpace = true)
    (h : RefusedInside limit levels outer lists input failure) :
    RefusedInside limit levels outer lists (space ++ input) failure := by
  obtain ⟨left, front, behind, hlevels, rfl, hinside, hrefused⟩ := h
  exact ⟨left, space ++ front, behind, hlevels, (List.append_assoc _ _ _).symm,
    hinside.append_space blank, hrefused⟩

/-- Behind values of a list, a text is refused inside one list more. -/
theorem RefusedInside.list {body : List UInt8} (elements : DenoteAll Word body rest fields)
    (shallow : depthAll fields ≤ levels)
    (h : RefusedInside limit levels (outer + 1) lists rest failure) :
    RefusedInside limit (levels + 1) outer (lists + 1) (0x28 :: (body ++ rest)) failure := by
  obtain ⟨left, front, behind, rfl, rfl, hinside, hrefused⟩ := h
  rw [Nat.add_right_comm, Nat.add_assoc outer] at hrefused
  exact ⟨left, 0x28 :: (body ++ front), behind, rfl, by simp,
    @Inside.list _ _ [] _ _ _ _ rfl elements shallow hinside, hrefused⟩

/-- Where something is wrong, the text is refused inside no list. -/
theorem Refused.inside (h : Refused limit levels outer input failure) :
    RefusedInside limit levels outer 0 input failure :=
  ⟨levels, [], input, rfl, rfl, .none rfl, h⟩

/-- What `one` refuses is refused inside some lists. -/
def RefusesInside (limit levels : Nat)
    (one : (input : List UInt8) → Except Failure (Reading Field input)) : Prop :=
  ∀ {outer byte rest failure}, (byte = 0x29 → outer = 0) → isSpace byte = false →
    toStep (one (byte :: rest)) = .error failure →
      ∃ lists, RefusedInside limit levels outer lists (byte :: rest) failure

/-- A list is refused behind the elements that are read. -/
theorem exists_refusedInside_items (hrefuses : RefusesInside limit levels one)
    (hreads : ReadsDenoted levels one) (h : toStep (items one input) = .error failure) :
    ∃ lists body rest fields, input = body ++ rest ∧ DenoteAll Word body rest fields ∧
      depthAll fields ≤ levels ∧ RefusedInside limit levels (outer + 1) lists rest failure := by
  induction hlen : input.length using Nat.strongRecOn generalizing input with
  | ind n ih =>
    obtain ⟨space, hspace, blank⟩ := exists_space input
    rw [toStep_items] at h
    split at h
    next hskip =>
      cases h
      rw [hskip, List.append_nil] at hspace
      refine ⟨0, space, [], [], by rw [hspace, List.append_nil], .nil blank, Nat.zero_le _, ?_⟩
      exact (Refused.endInList (Nat.succ_pos outer)).inside
    next byte behind hskip =>
      rw [hskip] at hspace
      split at h
      · cases h
      next hclose =>
        split at h
        next hfirst =>
          cases h
          obtain ⟨lists, hinside⟩ := hrefuses (fun heq => absurd heq hclose)
            (isSpace_of_skipSpace hskip) hfirst
          exact ⟨lists, space, byte :: behind, [], hspace, .nil blank, Nat.zero_le _, hinside⟩
        next first left hfirst =>
          split at h
          next hmore =>
            cases h
            obtain ⟨written, hwritten, hdenotes, hdepth⟩ := hreads hfirst
            have hshorter : left.length < n := hlen ▸ length_lt_of_first hskip hfirst
            obtain ⟨lists, body, rest, fields, rfl, hall, hdepths, hinside⟩ :=
              ih _ hshorter hmore rfl
            refine ⟨lists, space ++ written ++ body, rest, first :: fields, ?_,
              .cons blank hdenotes hall, Nat.max_le.2 ⟨hdepth, hdepths⟩, hinside⟩
            rw [hspace, hwritten]
            simp
          · cases h

/-- **What is refused is refused inside some lists**, as many as there are levels at most. -/
theorem exists_refusedInside (limit levels : Nat) :
    RefusesInside limit levels (value limit levels) := by
  induction levels with
  | zero =>
    intro outer byte rest failure hclose hspace h
    exact ⟨0, (refused_of_value (fun _ => rfl) hclose hspace h).inside⟩
  | succ levels ih =>
    intro outer byte rest failure hclose hspace h
    by_cases hopen : byte = 0x28
    · subst hopen
      rw [toStep_value_list] at h
      obtain ⟨lists, body, rest, fields, rfl, hall, hdepth, hinside⟩ :=
        exists_refusedInside_items ih (exists_denotes limit levels) (eq_of_map_eq_error h)
      exact ⟨lists + 1, hinside.list hall hdepth⟩
    · exact ⟨0, (refused_of_value (fun heq => absurd heq hopen) hclose hspace h).inside⟩

/-! ## What is refused inside lists is refused as a whole -/

theorem skipSpace_space {space : List UInt8} (blank : space.all isSpace = true)
    (input : List UInt8) : skipSpace (space ++ input) = skipSpace input :=
  List.dropWhile_append_of_pos (List.all_eq_true.1 blank)

/-- Behind elements that are read, a list fails as what is left of it does. -/
theorem toStep_items_append (limit levels : Nat) {body rest : List UInt8} {fields : List Field}
    {failure : Failure} (hdepth : depthAll fields ≤ levels)
    (hrest : toStep (items (value limit levels) rest) = .error failure) :
    DenoteAll Word body rest fields →
      toStep (items (value limit levels) (body ++ rest)) = .error failure
  | .nil blank => by
    rw [toStep_items] at hrest ⊢
    rw [skipSpace_space blank, hrest]
  | @DenoteAll.cons _ space written more _ _ _ blank first others => by
    rw [depthAll] at hdepth
    have hfirst := toStep_value_of_denotes limit levels
      (Nat.le_trans (Nat.le_max_left _ _) hdepth) first
    have hmore := toStep_items_append limit levels
      (Nat.le_trans (Nat.le_max_right _ _) hdepth) hrest others
    obtain ⟨byte, tail, rfl, hspace, hclose⟩ := first.exists_cons
    have hinput : space ++ byte :: tail ++ more ++ rest =
        space ++ byte :: (tail ++ (more ++ rest)) := by simp
    rw [List.cons_append] at hfirst
    rw [hinput, toStep_items_cons _ blank hspace hclose, hfirst]
    simp only [hmore]

/-- A list fails as what is left of it behind its elements does. -/
theorem toStep_value_append (limit : Nat) {body : List UInt8}
    (elements : DenoteAll Word body rest fields) (shallow : depthAll fields ≤ levels)
    (hrest : toStep (items (value limit levels) rest) = .error failure) :
    toStep (value limit (levels + 1) (0x28 :: (body ++ rest))) = .error failure := by
  rw [toStep_value_list, toStep_items_append limit levels shallow hrest elements]
  rfl

/-- **Where something is wrong inside lists**, the elements of the outermost are refused. -/
theorem toStep_items_of_inside (h : Inside behind left lists front)
    (hrefused : Refused limit left (outer + 1 + lists) behind failure) :
    toStep (items (value limit (left + lists)) (front ++ behind)) = .error failure := by
  induction h generalizing outer with
  | none blank =>
    rw [toStep_items, skipSpace_append blank hrefused.stops]
    cases behind with
    | nil =>
      cases hrefused with
      | endOfInput outside => exact absurd outside (Nat.succ_ne_zero outer)
      | endInList => rfl
    | cons byte rest =>
      have hvalue := toStep_value_of_refused hrefused (fun h => nomatch h)
      simp only [if_neg (hrefused.ne_close (Nat.succ_pos outer)), Nat.add_zero, hvalue]
  | @list space body front fields lists blank elements shallow inner ih =>
    have hinner : Refused limit left (outer + 1 + 1 + lists) behind failure := by
      rwa [Nat.add_right_comm]
    have hvalue := toStep_value_append limit elements shallow (ih hinner)
    have hinput : space ++ 0x28 :: (body ++ front) ++ behind =
        space ++ 0x28 :: (body ++ (front ++ behind)) := by simp
    rw [hinput, ← Nat.add_assoc, toStep_items_cons _ blank (by decide) (by decide), hvalue]

/-- **Where something is wrong inside lists of its own**, a value is refused. -/
theorem toStep_value_of_inside (h : RefusedInside limit levels 0 lists input failure) :
    toStep (value limit levels (skipSpace input)) = .error failure := by
  obtain ⟨left, front, behind, rfl, rfl, hinside, hrefused⟩ := h
  cases hinside with
  | none blank =>
    rw [skipSpace_append blank hrefused.stops]
    exact toStep_value_of_refused hrefused fun _ => rfl
  | @list space body front fields lists blank elements shallow inner =>
    have hinner : Refused limit left (0 + 1 + lists) behind failure := by
      rwa [Nat.add_right_comm]
    have hinput : space ++ 0x28 :: (body ++ front) ++ behind =
        space ++ 0x28 :: (body ++ (front ++ behind)) := by simp
    rw [hinput, skipSpace_append blank rfl]
    exact toStep_value_append limit elements shallow (toStep_items_of_inside inner hinner)

/-! ## Whole texts -/

/-- `RefusedWhole limit lists input failure`: with lists at most `limit` deep, the text is no field,
and so many lists are open where this shows. -/
inductive RefusedWhole (limit : Nat) : (lists : Nat) → (input : List UInt8) → Failure → Prop
  /-- There is something wrong with the value. -/
  | value {lists : Nat} {input : List UInt8} {failure : Failure}
      (h : RefusedInside limit limit 0 lists input failure) :
      RefusedWhole limit lists input failure
  /-- Something follows the value and the white space around it. -/
  | trailingData {before written after rest : List UInt8} {byte : UInt8} {field : Field}
      (front_blank : before.all isSpace = true)
      (denotes : Denotes Word written (after ++ byte :: rest) field)
      (shallow : field.depth ≤ limit) (back_blank : after.all isSpace = true)
      (no_space : isSpace byte = false) :
      RefusedWhole limit 0 (before ++ written ++ after ++ byte :: rest)
        ⟨.fault .trailingData, byte :: rest⟩

theorem exists_refusedWhole (h : whole limit input = .error failure) :
    ∃ lists, RefusedWhole limit lists input failure := by
  obtain ⟨space, hspace, blank⟩ := exists_space input
  rw [whole_eq] at h
  split at h
  next hvalue =>
    cases h
    cases hskip : skipSpace input with
    | nil =>
      rw [hskip] at hspace hvalue
      rw [toStep_value_nil] at hvalue
      cases hvalue
      rw [hspace]
      exact ⟨0, .value ((Refused.endOfInput rfl).inside.append_space blank)⟩
    | cons byte rest =>
      rw [hskip] at hspace hvalue
      obtain ⟨lists, hinside⟩ := exists_refusedInside limit limit (fun _ => rfl)
        (isSpace_of_skipSpace hskip) hvalue
      rw [hspace]
      exact ⟨lists, .value (hinside.append_space blank)⟩
  next field left hvalue =>
    split at h
    · cases h
    next byte rest hskip =>
      cases h
      obtain ⟨written, hwritten, hdenotes, hdepth⟩ := exists_denotes limit limit hvalue
      obtain ⟨after, hafter, hblank⟩ := exists_space left
      rw [hskip] at hafter
      subst hafter
      rw [hspace, hwritten, ← List.append_assoc, ← List.append_assoc]
      exact ⟨0, .trailingData blank hdenotes hdepth hblank (isSpace_of_skipSpace hskip)⟩

/-- **A text that is refused**: where and inside how many of its lists. -/
theorem whole_eq_error_iff :
    whole limit input = .error failure ↔ ∃ lists, RefusedWhole limit lists input failure := by
  refine ⟨exists_refusedWhole, ?_⟩
  rintro ⟨lists, hrefused⟩
  rw [whole_eq]
  cases hrefused with
  | value h => rw [toStep_value_of_inside h]
  | @trailingData before written after rest byte field front_blank denotes shallow back_blank
      no_space =>
    obtain ⟨first, tail, rfl, hspace, -⟩ := denotes.exists_cons
    have hinput : before ++ first :: tail ++ after ++ byte :: rest =
        before ++ (first :: tail ++ (after ++ byte :: rest)) := by simp
    rw [hinput, skipSpace_append front_blank (by simp [stops, hspace]),
      toStep_value_of_denotes limit limit shallow denotes]
    simp only [skipSpace_append back_blank (by simp [stops, no_space] :
      stops isSpace (byte :: rest) = true)]
    rfl

/-! ## Inside a list -/

/-- An opening parenthesis is wrong only where no level is left. -/
theorem Refused.left_eq_zero (h : Refused limit left lists (0x28 :: rest) failure) : left = 0 := by
  cases h with
  | tooDeep no_level => exact no_level
  | number digits =>
    rw [List.all_cons, Bool.and_eq_true] at digits
    exact absurd digits.1 (by decide)
  | unexpectedByte no_value => exact absurd no_value (by decide)

/-- Where something is wrong, no value was read. -/
theorem Refused.cause_ne_trailingData (h : Refused limit left lists input failure) :
    failure.cause ≠ .fault .trailingData := by
  intro hcause
  cases h with
  | quoted h =>
    obtain ⟨fault, left, rfl, hpiece⟩ := exists_fault_of_quoted h
    cases hcause
    cases hpiece
  | literal h =>
    obtain ⟨fault, left, rfl, hpiece⟩ := exists_fault_of_literal h
    cases hcause
    cases hpiece
  | _ => cases hcause

/-- **A text is refused inside a list** exactly if its first byte that is no white space opens a
list, as the limit allows, and if nothing follows this list. -/
theorem RefusedWhole.pos_iff (h : RefusedWhole limit lists input failure) :
    0 < lists ↔ 0 < limit ∧ (skipSpace input).head? = some 0x28 ∧
      failure.cause ≠ .fault .trailingData := by
  cases h with
  | value h =>
    obtain ⟨left, front, behind, rfl, rfl, hinside, hrefused⟩ := h
    cases hinside with
    | none blank =>
      rw [skipSpace_append blank hrefused.stops]
      refine ⟨fun hlists => absurd hlists (Nat.lt_irrefl 0), ?_⟩
      rintro ⟨hlimit, hhead, -⟩
      obtain ⟨rest, rfl⟩ := List.head?_eq_some_iff.1 hhead
      rwa [hrefused.left_eq_zero] at hlimit
    | @list space body front fields lists blank elements shallow inner =>
      rw [List.append_assoc, skipSpace_append blank rfl]
      exact ⟨fun hlists => ⟨Nat.lt_of_lt_of_le hlists (Nat.le_add_left _ _), rfl,
        hrefused.cause_ne_trailingData⟩, fun _ => Nat.succ_pos lists⟩
  | trailingData => simp

end MailOutline.Field
