import MailOutline.Proofs.Bounds.Cursor
import MailOutline.Proofs.Grammar.Calls

/-!
# The pieces of a field's text are read without a stop

Each piece of a field's text is written down as a run from place to place, in the order in which a
machine carries it out. In front of any end of the text it does what the total step does.

Model of `read_quoted_string`, `read_literal`, `read_number_or_atom` and `take_atom`, operation by
operation.

* `quoted`, `word`: quoted strings and runs of atom bytes (`does_quoted`, `does_word`).
* `literal`: a string behind its size, which may be any word. It is compared with what is left
  before it is added to a place (`does_literalText`, `does_literal`).
-/

namespace MailOutline.Checked

open MailOutline.Field (Step isDigit isAtomByte)
open Cursor

variable {input rest : List UInt8}

/-! ## Quoted strings -/

/-- The bytes that a quoted string holds, read from behind its opening quote. -/
def quotedBytes (input : List UInt8) : (rounds : Nat) → Cursor (List UInt8)
  | 0 => need none
  | rounds + 1 => do
    match ← advance input with
    | none => fail .endInQuoted
    | some byte =>
      if byte = 0x22 then return []
      else if byte = 0x5C then do
        match ← advance input with
        | none => fail .endInQuoted
        | some escaped =>
          if escaped = 0x22 ∨ escaped = 0x5C then do
            let held ← quotedBytes input rounds
            return escaped :: held
          else fail (.invalidEscape escaped)
      else do
        let held ← quotedBytes input rounds
        return byte :: held

/-- The string that a quoted string denotes, read from its opening quote. -/
def quoted (input : List UInt8) : Cursor String := do
  let _ ← advance input
  let held ← quotedBytes input (input.length + 1)
  match Text.ofBytes? held with
  | none => fail .quotedNotUtf8
  | some text => return text

theorem does_quotedBytes {rounds : Nat} (h : rest <:+ input) (hword : input.length < UInt64.size)
    (hrounds : rest.length < rounds) :
    Does input (quotedBytes input rounds) rest (Field.quotedBytes rest) := by
  induction rounds generalizing rest with
  | zero => exact absurd hrounds (Nat.not_lt_zero _)
  | succ rounds ih =>
    cases rest with
    | nil => exact .bind does_advance_nil (.of_fail _)
    | cons byte rest =>
      have hrest : rest <:+ input := (List.suffix_cons byte rest).trans h
      have hlen : rest.length < rounds := Nat.lt_of_succ_lt_succ hrounds
      refine .bind (does_advance h hword) ?_
      simp only
      by_cases hquote : byte = 0x22
      · subst hquote
        rw [if_pos rfl]
        unfold Field.quotedBytes
        exact .of_pure []
      rw [if_neg hquote]
      by_cases hslash : byte = 0x5C
      · subst hslash
        rw [if_pos rfl]
        cases rest with
        | nil => exact .bind does_advance_nil (.of_fail _)
        | cons escaped behind =>
          have hbehind : behind <:+ input := (List.suffix_cons escaped behind).trans hrest
          refine .bind (does_advance hrest hword) ?_
          simp only
          by_cases hescape : escaped = 0x22 ∨ escaped = 0x5C
          · rw [if_pos hescape, Field.quotedBytes_escaped hescape]
            exact .map (ih hbehind (Nat.lt_of_succ_lt hlen)) _
          · rw [if_neg hescape, Field.quotedBytes_refused hescape]
            exact .of_fail _
      · rw [if_neg hslash, Field.quotedBytes_plain hquote hslash]
        exact .map (ih hrest hlen) _

theorem does_quoted (h : 0x22 :: rest <:+ input) (hword : input.length < UInt64.size) :
    Does input (quoted input) (0x22 :: rest) (Field.quoted rest) := by
  have hrest : rest <:+ input := (List.suffix_cons _ rest).trans h
  have hheld := does_quotedBytes hrest hword (Nat.lt_succ_of_le hrest.length_le)
  refine .bind (does_advance h hword) ?_
  unfold Field.quoted
  cases hread : Field.quotedBytes rest with
  | error failure =>
    rw [hread] at hheld
    exact .bind_error hheld
  | ok found =>
    obtain ⟨held, left⟩ := found
    rw [hread] at hheld
    refine .bind hheld ?_
    simp only
    cases Text.ofBytes? held with
    | none => exact .of_fail _
    | some text => exact .of_pure text

/-! ## Literals -/

/-- Moves behind the size of a literal, up to a closing brace or the end, and tells whether a plus
sign was met. -/
def sizeEnd (input : List UInt8) : (rounds : Nat) → (plus : Bool) → Cursor Bool
  | 0, _ => need none
  | rounds + 1, plus => do
    match ← peek input with
    | none => return plus
    | some byte =>
      if isDigit byte ∧ plus = false then do
        let _ ← advance input
        sizeEnd input rounds plus
      else if byte = 0x2B ∧ plus = false then do
        let _ ← advance input
        sizeEnd input rounds true
      else if byte = 0x7D then return plus
      else fail .literalSizeByte

/-- The text without the plus signs at its end. -/
def withoutPlus (text : List Char) : List Char := (text.reverse.dropWhile (· == '+')).reverse

/-- Whether the line ends here. The second byte is only looked at behind a first one that fits. -/
def atLineEnd (input : List UInt8) : Cursor Bool := do
  if (← peek input) = some 0x0D then return (← peekAt input 1) = some 0x0A
  else return false

/-- The end of line behind the size of a literal. -/
def literalLine (input : List UInt8) (plus : Bool) : Cursor Unit := do
  if ← atLineEnd input then skip input 2
  else if plus then return ()
  else fail .literalLineEnd

/-- The string that the next `size` bytes spell. -/
def literalText (input : List UInt8) (size : Nat) : Cursor String := do
  let place ← here
  if (← need (sub? input.length place)) < size then fail .literalIncomplete
  else do
    let stop ← need (add? place size)
    let data ← need (slice? input place stop)
    skip input size
    match Text.ofBytes? data with
    | none => fail .literalNotUtf8
    | some text => return text

/-- The string behind the size of a literal and its closing brace. -/
def literalBody (input : List UInt8) (plus : Bool) (size : Nat) : Cursor String := do
  literalLine input plus
  literalText input size

/-- The string that a literal denotes, read from its opening brace. -/
def literal (input : List UInt8) : Cursor String := do
  let _ ← advance input
  let start ← here
  let plus ← sizeEnd input (input.length + 1) false
  match Text.ofBytes? (← sliceFrom input start) with
  | none => fail .literalSizeNotUtf8
  | some text =>
    match Text.natOfDigits? UInt64.size (withoutPlus text.toList) with
    | none => fail .literalSizeNumber
    | some size => do
      if (← advance input) ≠ some 0x7D then fail .literalSizeUnclosed
      else literalBody input plus size

/-- The size of a literal that ends in front of `stop`. -/
def closedSize (plus : Bool) (stop : List UInt8) : Step Bool :=
  if stop ≠ [] ∧ stop.head? ≠ some 0x7D then Field.fail .literalSizeByte stop else .ok (plus, stop)

theorem closedSize_cons (plus : Bool) (byte : UInt8) (rest : List UInt8) :
    closedSize plus (byte :: rest) =
      if byte = 0x7D then .ok (plus, byte :: rest)
      else Field.fail .literalSizeByte (byte :: rest) := by
  by_cases hclose : byte = 0x7D <;> simp [closedSize, hclose]

theorem does_sizeEnd_closed {rounds : Nat} {plus : Bool} (h : rest <:+ input)
    (hdigit : ∀ byte, rest.head? = some byte → ¬(isDigit byte = true ∧ plus = false))
    (hplus : ∀ byte, rest.head? = some byte → ¬(byte = 0x2B ∧ plus = false)) :
    Does input (sizeEnd input (rounds + 1) plus) rest (closedSize plus rest) := by
  refine .bind (does_peek h) ?_
  cases rest with
  | nil => exact .of_pure plus
  | cons byte rest =>
    simp only [List.head?_cons, closedSize_cons]
    rw [if_neg (hdigit byte rfl), if_neg (hplus byte rfl)]
    by_cases hclose : byte = 0x7D
    · rw [if_pos hclose, if_pos hclose]
      exact .of_pure plus
    · rw [if_neg hclose, if_neg hclose]
      exact .of_fail _

theorem literalHead_cons_digit {byte : UInt8} (h : isDigit byte = true) (rest : List UInt8) :
    Field.literalHead (byte :: rest) =
      (byte :: (Field.literalHead rest).1, (Field.literalHead rest).2) := by
  unfold Field.literalHead
  simp only [List.takeWhile_cons_of_pos h, List.dropWhile_cons_of_pos h]
  split <;> rfl

theorem literalHead_of_not_digit (h : ∀ byte, rest.head? = some byte → ¬isDigit byte = true) :
    Field.literalHead rest =
      if rest.head? = some 0x2B then ([], true, rest.tail) else ([], false, rest) := by
  cases rest with
  | nil => rfl
  | cons byte rest =>
    have hbyte := h byte rfl
    unfold Field.literalHead
    simp only [List.takeWhile_cons_of_neg hbyte, List.dropWhile_cons_of_neg hbyte]

/-- **The end of a size** is where its digits and a plus sign end. -/
theorem does_sizeEnd {rounds : Nat} (h : rest <:+ input) (hword : input.length < UInt64.size)
    (hrounds : rest.length < rounds) :
    Does input (sizeEnd input rounds false) rest
      (closedSize (Field.literalHead rest).2.1 (Field.literalHead rest).2.2) := by
  induction rounds generalizing rest with
  | zero => exact absurd hrounds (Nat.not_lt_zero _)
  | succ rounds ih =>
    by_cases hhead : ∃ byte, rest.head? = some byte ∧ isDigit byte = true
    · obtain ⟨byte, hbyte, hdigit⟩ := hhead
      obtain ⟨rest, rfl⟩ := List.head?_eq_some_iff.1 hbyte
      refine .bind (does_peek h) ?_
      simp only [List.head?_cons]
      rw [if_pos ⟨hdigit, trivial⟩, literalHead_cons_digit hdigit]
      exact .bind (does_advance h hword)
        (ih ((List.suffix_cons byte rest).trans h) (Nat.lt_of_succ_lt_succ hrounds))
    · have hnone : ∀ byte, rest.head? = some byte → ¬isDigit byte = true := fun byte hbyte hdigit =>
        hhead ⟨byte, hbyte, hdigit⟩
      rw [literalHead_of_not_digit hnone]
      by_cases hplus : rest.head? = some 0x2B
      · obtain ⟨rest, rfl⟩ := List.head?_eq_some_iff.1 hplus
        have hrest : rest <:+ input := (List.suffix_cons _ rest).trans h
        obtain ⟨more, rfl⟩ : ∃ more, rounds = more + 1 :=
          Nat.exists_eq_succ_of_ne_zero fun hzero => by
            rw [hzero, List.length_cons] at hrounds
            omega
        rw [if_pos hplus]
        refine .bind (does_peek h) ?_
        simp only [List.head?_cons, List.tail_cons]
        rw [if_neg fun hdigit => hnone _ rfl hdigit.1, if_pos ⟨trivial, trivial⟩]
        exact .bind (does_advance h hword)
          (does_sizeEnd_closed hrest (fun _ _ hand => by cases hand.2) fun _ _ hand => by
            cases hand.2)
      · rw [if_neg hplus]
        exact does_sizeEnd_closed h (fun byte hbyte hand => hnone byte hbyte hand.1)
          fun byte hbyte hand => hplus (hand.1 ▸ hbyte)

theorem does_atLineEnd (h : rest <:+ input) (hword : input.length < UInt64.size) :
    Does input (atLineEnd input) rest (.ok ([0x0D, 0x0A].isPrefixOf rest, rest)) := by
  refine .bind (does_peek h) ?_
  match rest with
  | [] => exact .of_pure false
  | first :: rest =>
    simp only [List.head?_cons, Option.some.injEq]
    by_cases hfirst : first = 0x0D
    · rw [if_pos hfirst]
      refine .bind (does_peekAt h (Nat.succ_le_succ (Nat.zero_le _)) hword) ?_
      have hsame : decide ((first :: rest)[1]? = some 0x0A) =
          [0x0D, 0x0A].isPrefixOf (first :: rest) := by
        subst hfirst
        cases rest with
        | nil => rfl
        | cons second rest =>
          simp [List.isPrefixOf, eq_comm, Bool.beq_eq_decide_eq]
      rw [← hsame]
      exact .of_pure _
    · have hdiffer : [0x0D, 0x0A].isPrefixOf (first :: rest) = false := by
        simp [List.isPrefixOf, Ne.symm hfirst]
      rw [if_neg hfirst, hdiffer]
      exact .of_pure false

theorem does_literalLine (plus : Bool) (h : rest <:+ input) (hword : input.length < UInt64.size) :
    Does input (literalLine input plus) rest (Field.literalLine plus rest) := by
  refine .bind (does_atLineEnd h hword) ?_
  unfold Field.literalLine
  by_cases hline : [0x0D, 0x0A].isPrefixOf rest = true
  · have hlen : 2 ≤ rest.length := (List.isPrefixOf_iff_prefix.1 hline).length_le
    rw [if_pos hline, if_pos hline]
    exact does_skip h hlen hword
  · rw [if_neg hline, if_neg hline]
    cases plus with
    | true => exact .of_pure ()
    | false => exact .of_fail _

/-- **A literal of any size**: nothing is added to a place before the size is known to fit. -/
theorem does_literalText (size : Nat) (h : rest <:+ input) (hword : input.length < UInt64.size) :
    Does input (literalText input size) rest (Field.literalText size rest) := by
  have hlen := before_add_length h
  have hleft : sub? input.length (before input rest) = some rest.length := by
    rw [sub?_of_le (before_le input rest), ← hlen, Nat.add_sub_cancel_left]
  refine .bind .of_here (.bind (.of_need hleft) ?_)
  unfold Field.literalText
  by_cases hshort : rest.length < size
  · rw [if_pos hshort, if_pos hshort]
    exact .of_fail _
  · have hfits : size ≤ rest.length := Nat.le_of_not_lt hshort
    have hslice : slice? input (before input rest) (before input rest + size) =
        some (rest.take size) := by
      have hsuffix : rest.take size ++ rest.drop size <:+ input := by rwa [List.take_append_drop]
      have hparts := slice?_before hsuffix
      rwa [List.take_append_drop, before_drop h hfits] at hparts
    rw [if_neg hshort, if_neg hshort]
    refine .bind (.of_need (add?_of_lt (by omega))) (.bind (.of_need hslice)
      (.bind (does_skip h hfits hword) ?_))
    cases Text.ofBytes? (rest.take size) with
    | none => exact .of_fail _
    | some text => exact .of_pure text

theorem withoutPlus_of_forall {text : List Char} (h : ∀ c ∈ text, c ≠ '+') :
    withoutPlus text = text := by
  have hkeep : text.reverse.dropWhile (· == '+') = text.reverse := by
    cases hlast : text.reverse with
    | nil => rfl
    | cons c rest =>
      have hmem : c ∈ text := List.mem_reverse.1 (hlast ▸ List.mem_cons_self)
      exact List.dropWhile_cons_of_neg (by simpa using h c hmem)
  rw [withoutPlus, hkeep, List.reverse_reverse]

theorem withoutPlus_append_plus (text : List Char) :
    withoutPlus (text ++ ['+']) = withoutPlus text := by
  rw [withoutPlus, List.reverse_append]
  rfl

/-- The bytes of a size: its digits, and the plus sign if there is one. -/
def sizeRun (digits : List UInt8) (plus : Bool) : List UInt8 :=
  digits ++ if plus then [0x2B] else []

theorem sizeRun_of_literalHead {digits stop : List UInt8} {plus : Bool}
    (h : Field.literalHead rest = (digits, plus, stop)) :
    digits.all isDigit = true ∧ rest = sizeRun digits plus ++ stop := by
  obtain ⟨hall, hparts⟩ := Field.eq_of_literalHead h
  refine ⟨hall, ?_⟩
  rw [hparts, sizeRun]
  cases plus <;> simp

section

variable {digits : List UInt8} (hall : digits.all isDigit = true)
include hall

theorem lt_of_mem_digits {byte : UInt8} (h : byte ∈ digits) : byte < 0x80 :=
  Field.lt_of_isDigit (List.all_eq_true.1 hall byte h)

theorem ofBytes?_sizeRun (plus : Bool) :
    Text.ofBytes? (sizeRun digits plus) = some (Text.spelled (sizeRun digits plus)) := by
  refine Text.ofBytes?_spelled fun byte hbyte => ?_
  rcases List.mem_append.1 hbyte with hdigit | hplus
  · exact lt_of_mem_digits hall hdigit
  · cases plus with
    | false => cases hplus
    | true =>
      rw [List.mem_singleton.1 hplus]
      decide

/-- The digits of a size are what is left of its text without the plus sign. -/
theorem withoutPlus_sizeRun (plus : Bool) :
    withoutPlus (Text.spelled (sizeRun digits plus)).toList = (Text.spelled digits).toList := by
  have hdigits : ∀ c ∈ digits.map Char.ofUInt8, c ≠ '+' := by
    rintro c hc rfl
    obtain ⟨byte, hbyte, heq⟩ := List.mem_map.1 hc
    have hdigit := List.all_eq_true.1 hall byte hbyte
    rw [← Text.isDigit_ofUInt8, heq] at hdigit
    exact absurd hdigit (by decide)
  have hsame := withoutPlus_of_forall hdigits
  rw [Text.toList_spelled, Text.toList_spelled, sizeRun]
  cases plus with
  | false => simpa using hsame
  | true =>
    rw [if_pos rfl, List.map_append]
    exact (withoutPlus_append_plus _).trans hsame

end

theorem does_literalBody (plus : Bool) (size : Nat) (h : rest <:+ input)
    (hword : input.length < UInt64.size) :
    Does input (literalBody input plus size) rest
      (match Field.literalLine plus rest with
      | .error failure => .error failure
      | .ok ((), body) => Field.literalText size body) := by
  have hline := does_literalLine plus h hword
  have hleft := (Field.left_literalLine_isSuffix plus rest).trans h
  cases hread : Field.literalLine plus rest with
  | error failure =>
    rw [hread] at hline
    exact .bind_error hline
  | ok found =>
    obtain ⟨⟨⟩, body⟩ := found
    rw [hread] at hline hleft
    exact .bind hline (does_literalText size hleft hword)

/-- **A literal** does not stop the program, whatever stands behind its opening brace. -/
theorem does_literal (h : 0x7B :: rest <:+ input) (hword : input.length < UInt64.size) :
    Does input (literal input) (0x7B :: rest) (Field.literal rest) := by
  have hrest : rest <:+ input := (List.suffix_cons _ rest).trans h
  have hend := does_sizeEnd hrest hword (Nat.lt_succ_of_le hrest.length_le)
  refine .bind (does_advance h hword) (.bind .of_here ?_)
  unfold Field.literal
  cases hhead : Field.literalHead rest with
  | mk digits behind =>
    obtain ⟨plus, stop⟩ := behind
    rw [hhead] at hend
    simp only at hend ⊢
    by_cases hopen : stop ≠ [] ∧ stop.head? ≠ some 0x7D
    · rw [closedSize, if_pos hopen] at hend
      rw [if_pos hopen]
      exact .bind_error hend
    rw [closedSize, if_neg hopen] at hend
    rw [if_neg hopen]
    obtain ⟨hall, hrun⟩ := sizeRun_of_literalHead hhead
    have hstop : stop <:+ input := by
      rw [hrun] at hrest
      exact (List.suffix_append _ _).trans hrest
    have hslice := does_sliceFrom (hrun ▸ hrest)
    rw [← hrun] at hslice
    refine .bind hend (.bind hslice ?_)
    rw [Field.literalSize_of_digits hall]
    simp only [ofBytes?_sizeRun hall, withoutPlus_sizeRun hall]
    cases Text.natOfDigits? UInt64.size (Text.spelled digits).toList with
    | none => exact .of_fail _
    | some size =>
      cases stop with
      | nil => exact .bind does_advance_nil (.of_fail _)
      | cons close line =>
        have hclose : close = 0x7D := by simpa using hopen
        refine .bind (does_advance hstop hword) ?_
        rw [if_neg (by simp [hclose])]
        exact does_literalBody plus size ((List.suffix_cons close line).trans hstop) hword

/-! ## Words -/

/-- The field that a run of atom bytes denotes. -/
def word (input : List UInt8) : Cursor Field := do
  let start ← here
  advanceWhile input isAtomByte (input.length + 1)
  match Field.wordField (← sliceFrom input start) with
  | .error fault => fail fault
  | .ok field => return field

theorem does_word (h : rest <:+ input) (hword : input.length < UInt64.size) :
    Does input (word input) rest
      (Field.word (rest.takeWhile isAtomByte) (rest.dropWhile isAtomByte)) := by
  have hsplit : rest.takeWhile isAtomByte ++ rest.dropWhile isAtomByte = rest :=
    List.takeWhile_append_dropWhile
  have hslice := does_sliceFrom (hsplit ▸ h)
  rw [hsplit] at hslice
  refine .bind .of_here (.bind (does_advanceWhile isAtomByte h hword
    (Nat.lt_succ_of_le h.length_le)) (.bind hslice ?_))
  unfold Field.word
  cases Field.wordField (rest.takeWhile isAtomByte) with
  | error fault => exact .of_fail _
  | ok field => exact .of_pure field

end MailOutline.Checked
