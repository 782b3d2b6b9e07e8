import MailOutline.Proofs.Bounds.Pieces

/-!
# The reader never stops

Values and lists are read with the number of the open lists, which grows by one at each opening
parenthesis up to the limit. It is a word, whatever the limit: for each open list a byte of the text
has been read.

Model of `read_field`, `read_value` and `read_list`, operation by operation.

* `value`, `elements`: values and lists. They do what the total steps do, with twice as many rounds
  as there are bytes left (`valuesDone_elementsDone`, by induction on the rounds).
* `field`, `calls`: one call of the reader, and any number of them one after the other
  (`field_eq_read`, `calls_eq_readMany`).
-/

namespace MailOutline.Checked

open MailOutline.Field (isSpace isAtomByte skipSpace)
open Cursor

variable {input rest : List UInt8}

/-! ## Values and lists -/

mutual

/-- The value where the reader stands, inside `depth` lists. -/
def value (input : List UInt8) (limit : Nat) : (rounds depth : Nat) → Cursor Field
  | 0, _ => need none
  | rounds + 1, depth => do
    match ← peek input with
    | none => fail .endOfInput
    | some byte =>
      if byte = 0x28 then do
        let inner ← need (add? depth 1)
        if limit < inner then refuse (.tooDeep limit)
        else do
          let _ ← advance input
          Field.list <$> elements input limit rounds inner
      else if byte = 0x29 then fail .closingParenthesis
      else if byte = 0x22 then Field.atom <$> quoted input
      else if byte = 0x7B then Field.atom <$> literal input
      else if isAtomByte byte then word input
      else fail (.unexpectedByte byte)

/-- The elements of a list up to its closing parenthesis, inside `depth` lists. -/
def elements (input : List UInt8) (limit : Nat) : (rounds depth : Nat) → Cursor (List Field)
  | 0, _ => need none
  | rounds + 1, depth => do
    advanceWhile input isSpace (input.length + 1)
    match ← peek input with
    | none => fail .endInList
    | some byte =>
      if byte = 0x29 then do
        let _ ← advance input
        return []
      else do
        let first ← value input limit rounds depth
        let more ← elements input limit rounds depth
        return first :: more

end

/-- A reader in front of the end `rest` of its text, inside `depth` lists, with `levels` levels
left. -/
structure Stands (input rest : List UInt8) (limit depth levels : Nat) : Prop where
  /-- It stands in its text. -/
  isSuffix : rest <:+ input
  /-- The depth and the levels left make up the limit. -/
  sum : depth + levels = limit
  /-- For each open list a byte has been read. -/
  depth_le : depth ≤ before input rest

namespace Stands

variable {limit depth levels : Nat}

/-- The reader further on, inside the same lists. -/
theorem further {left : List UInt8} (h : Stands input rest limit depth levels)
    (hleft : left <:+ rest) : Stands input left limit depth levels := by
  have hlen := hleft.length_le
  have hdepth := h.depth_le
  refine ⟨hleft.trans h.isSuffix, h.sum, ?_⟩
  unfold before at hdepth ⊢
  omega

/-- The reader behind an opening parenthesis, inside one list more. -/
theorem inner {byte : UInt8} (h : Stands input (byte :: rest) limit depth (levels + 1)) :
    Stands input rest limit (depth + 1) levels := by
  refine ⟨(List.suffix_cons byte rest).trans h.isSuffix, ?_, ?_⟩
  · rw [← h.sum]
    omega
  · rw [← before_cons h.isSuffix]
    exact Nat.succ_le_succ h.depth_le

end Stands

/-- `rounds` rounds are enough for every value inside some lists, and do what the total step
does. -/
def ValuesDone (input : List UInt8) (limit rounds : Nat) : Prop :=
  ∀ {rest depth levels}, Stands input rest limit depth levels → 2 * rest.length + 1 ≤ rounds →
    Does input (value input limit rounds depth) rest
      (Field.Reading.toStep (Field.value limit levels rest))

/-- `rounds` rounds are enough for the elements of every list, and do what the total step does. -/
def ElementsDone (input : List UInt8) (limit rounds : Nat) : Prop :=
  ∀ {rest depth levels}, Stands input rest limit depth levels → 2 * rest.length + 2 ≤ rounds →
    Does input (elements input limit rounds depth) rest
      (Field.Reading.toStep (Field.items (Field.value limit levels) rest))

section

variable {limit rounds : Nat}

theorem ValuesDone.succ (hword : input.length < UInt64.size)
    (helements : ElementsDone input limit rounds) : ValuesDone input limit (rounds + 1) := by
  intro rest depth levels h hrounds
  refine .bind (does_peek h.isSuffix) ?_
  cases rest with
  | nil =>
    rw [Field.toStep_value_nil]
    exact .of_fail _
  | cons byte rest =>
    have hlen := before_add_length h.isSuffix
    have hdepth := h.depth_le
    rw [List.length_cons] at hlen hrounds
    simp only [List.head?_cons]
    by_cases hopen : byte = 0x28
    · subst hopen
      rw [if_pos rfl]
      refine .bind (.of_need (add?_of_lt (by omega))) ?_
      cases levels with
      | zero =>
        rw [if_pos (by rw [← h.sum]; omega)]
        unfold Field.value
        exact .of_refuse _
      | succ levels =>
        rw [if_neg (by rw [← h.sum]; omega), Field.toStep_value_list]
        exact .bind (does_advance h.isSuffix hword) (.map (helements h.inner (by omega)) _)
    rw [if_neg hopen]
    by_cases hclose : byte = 0x29
    · subst hclose
      rw [if_pos rfl]
      unfold Field.value
      exact .of_fail _
    rw [if_neg hclose]
    by_cases hquote : byte = 0x22
    · subst hquote
      rw [if_pos rfl, Field.toStep_value_quoted]
      exact .map (does_quoted h.isSuffix hword) _
    rw [if_neg hquote]
    by_cases hbrace : byte = 0x7B
    · subst hbrace
      rw [if_pos rfl, Field.toStep_value_literal]
      exact .map (does_literal h.isSuffix hword) _
    rw [if_neg hbrace]
    by_cases hatom : isAtomByte byte = true
    · have hrun := does_word h.isSuffix hword
      rw [List.takeWhile_cons_of_pos hatom, List.dropWhile_cons_of_pos hatom] at hrun
      rw [if_pos hatom, Field.toStep_value_word _ _ hatom]
      exact hrun
    · rw [if_neg hatom]
      unfold Field.value
      simp only [if_neg hopen, if_neg hclose, if_neg hquote, if_neg hbrace, if_neg hatom]
      exact .of_fail _

theorem ElementsDone.succ (hword : input.length < UInt64.size)
    (hvalue : ValuesDone input limit rounds) (hmore : ElementsDone input limit rounds) :
    ElementsDone input limit (rounds + 1) := by
  intro rest depth levels h hrounds
  have hskip : skipSpace rest <:+ rest := List.dropWhile_suffix isSpace
  refine .bind (does_advanceWhile isSpace h.isSuffix hword
    (Nat.lt_succ_of_le h.isSuffix.length_le)) ?_
  rw [Field.toStep_items]
  change Does input _ (skipSpace rest) _
  refine .bind (does_peek (hskip.trans h.isSuffix)) ?_
  cases hrest : skipSpace rest with
  | nil => exact .of_fail _
  | cons byte behind =>
    rw [hrest] at hskip
    have hhere := h.further hskip
    have hlen := hskip.length_le
    simp only [List.head?_cons]
    by_cases hclose : byte = 0x29
    · rw [if_pos hclose, if_pos hclose]
      exact .bind (does_advance hhere.isSuffix hword) (.of_pure [])
    · rw [if_neg hclose, if_neg hclose]
      have hfirst := hvalue hhere (by omega)
      have hvalueLeft := Field.left_value_isSuffix limit levels (byte :: behind)
      cases hread : Field.Reading.toStep (Field.value limit levels (byte :: behind)) with
      | error failure =>
        rw [hread] at hfirst
        exact .bind_error hfirst
      | ok found =>
        obtain ⟨first, left⟩ := found
        rw [hread] at hfirst hvalueLeft
        have hleft : left <:+ byte :: behind := hvalueLeft
        have hshorter : left.length < rest.length := Field.length_lt_of_first hrest hread
        refine .bind hfirst ?_
        have hothers := hmore (hhere.further hleft) (by omega)
        simp only
        cases hread' : Field.Reading.toStep (Field.items (Field.value limit levels) left) with
        | error failure =>
          rw [hread'] at hothers
          exact .bind_error hothers
        | ok found =>
          rw [hread'] at hothers
          exact .bind hothers (.of_pure _)

/-- **Values and lists never stop the reader**, with as many rounds as the text asks for. -/
theorem valuesDone_elementsDone (hword : input.length < UInt64.size) (limit rounds : Nat) :
    ValuesDone input limit rounds ∧ ElementsDone input limit rounds := by
  induction rounds with
  | zero => exact ⟨fun _ h => absurd h (by omega), fun _ h => absurd h (by omega)⟩
  | succ rounds ih => exact ⟨ValuesDone.succ hword ih.2, ElementsDone.succ hword ih.1 ih.2⟩

end

/-! ## Calls -/

/-- One value with white space around it, up to the end of the text. -/
def field (input : List UInt8) (limit : Nat) : Cursor Field := do
  advanceWhile input isSpace (input.length + 1)
  let field ← value input limit (2 * input.length + 1) 0
  advanceWhile input isSpace (input.length + 1)
  if (← here) < input.length then fail .trailingData
  else return field

/-- What so many calls answer, with the place behind each of them, if no call stops the program. -/
def calls (input : List UInt8) (limit : Nat) :
    (count place : Nat) → Option (List (Except ReadError Field × Nat))
  | 0, _ => some []
  | count + 1, place => do
    let call ← field input limit place
    let more ← calls input limit count call.2
    return call :: more

theorem does_field (limit : Nat) (h : rest <:+ input) (hword : input.length < UInt64.size) :
    Does input (field input limit) rest
      ((Field.whole limit rest).map fun found => (found, [])) := by
  have hspace : ∀ {rest : List UInt8}, rest <:+ input →
      Does input (advanceWhile input isSpace (input.length + 1)) rest (.ok ((), skipSpace rest)) :=
    fun h => does_advanceWhile isSpace h hword (Nat.lt_succ_of_le h.length_le)
  have hskip : skipSpace rest <:+ input := (List.dropWhile_suffix isSpace).trans h
  have hlen := hskip.length_le
  have hstart : Stands input (skipSpace rest) limit 0 limit :=
    ⟨hskip, Nat.zero_add limit, Nat.zero_le _⟩
  have hvalue := (valuesDone_elementsDone hword limit (2 * input.length + 1)).1 hstart (by omega)
  refine .bind (hspace h) ?_
  rw [Field.whole_eq]
  have hleft := (Field.left_value_isSuffix limit limit (skipSpace rest)).trans hskip
  cases hread : Field.Reading.toStep (Field.value limit limit (skipSpace rest)) with
  | error failure =>
    rw [hread] at hvalue
    exact .bind_error hvalue
  | ok found =>
    obtain ⟨found, left⟩ := found
    rw [hread] at hvalue hleft
    refine .bind hvalue (.bind (hspace hleft) (.bind .of_here ?_))
    have hend : skipSpace left <:+ input := (List.dropWhile_suffix isSpace).trans hleft
    have hplace := before_add_length hend
    simp only
    cases hrest : skipSpace left with
    | nil =>
      rw [if_neg (by rw [before, List.length_nil]; omega)]
      exact .of_pure found
    | cons byte behind =>
      rw [hrest, List.length_cons] at hplace
      rw [if_pos (by omega)]
      exact .of_fail _

/-- **One call** answers what the total reader answers, and stops where it stops. -/
theorem field_eq_read (limit : Nat) {place : Nat} (h : place ≤ input.length)
    (hword : input.length < UInt64.size) :
    field input limit place =
      some ((Reader.behind limit input place).read.1,
        (Reader.behind limit input place).read.2.position) := by
  have hsuffix : input.drop place <:+ input := List.drop_suffix place input
  have hplace : before input (input.drop place) = place := by
    rw [before, List.length_drop]
    omega
  have hmove : ∀ {left : List UInt8}, left <:+ input.drop place →
      before input left = place + ((input.drop place).length - left.length) := by
    intro left hleft
    have hlen := hleft.length_le
    rw [List.length_drop] at hlen ⊢
    rw [before]
    omega
  have hfield := does_field limit hsuffix hword
  rw [Does, hplace] at hfield
  rw [hfield, Reader.read, show (Reader.behind limit input place).rest = input.drop place from rfl,
    show (Reader.behind limit input place).maxDepth = limit from rfl]
  cases hread : Field.whole limit (input.drop place) with
  | ok found => exact congrArg some (Prod.ext rfl (hmove List.nil_suffix))
  | error failure =>
    have hleft := hmove (Field.rest_isSuffix_of_whole hread)
    obtain ⟨cause, left⟩ := failure
    cases cause with
    | fault fault =>
      refine congrArg some (Prod.ext ?_ hleft)
      exact congrArg (fun stop => Except.error (ReadError.malformed stop fault)) hleft
    | tooDeep deep => exact congrArg some (Prod.ext rfl hleft)

/-- **No call ever stops the program**, and together they answer what the total reader answers. -/
theorem calls_eq_readMany (limit count : Nat) {place : Nat} (h : place ≤ input.length)
    (hword : input.length < UInt64.size) :
    calls input limit count place =
      some ((Reader.readMany count (Reader.behind limit input place)).map fun call =>
        (call.1, call.2.position)) := by
  induction count generalizing place with
  | zero => rfl
  | succ count ih =>
    obtain ⟨later, -, hlater, hread⟩ := @Reader.exists_behind_of_read limit _ _ h
    rw [calls, field_eq_read limit h hword, Reader.readMany, List.map_cons, hread,
      show (Reader.behind limit input later).position = later from rfl]
    simp only [Option.bind_eq_bind, Option.bind_some, ih hlater, Option.pure_def]

end MailOutline.Checked
