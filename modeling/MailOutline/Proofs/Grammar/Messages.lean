import MailOutline.Proofs.Grammar.Calls
import MailOutline.Proofs.Grammar.Refusal

/-!
# What is reported where

Two faults are never reported: the bytes of an atom and of the size of a literal are decoded behind
checks that leave ASCII only. Two more are reported only where a call misses its value, at the first
byte that is no white space or at the end. So they are never reported inside a list: there a closing
parenthesis is in its place, and the end of the text is another fault.

* `Fault.neverInList`: these four faults, and `Fault.message_eq_iff`, that no other fault has one of
  their wordings.
* `Missing`, `InnerCause`: a value is missing, and what else may be wrong. One of the two is the
  case at a place where something is wrong (`Refused.missing_or_inner`), and so in a whole text
  (`RefusedWhole.missing_or_inner`).
* `whole_eq_fail_iff_missing`: the four faults are those of a missing value.
* `Reader.firstPlace`: where a call looks for a value.
* `Reader.read_refused`: one call of a reader, wherever it stands in its text.
-/

namespace MailOutline

/-! ## Wordings -/

namespace Fault

/-- The faults that are found inside no list. The first two are found nowhere. -/
def neverInList : List Fault :=
  [.atomNotUtf8, .literalSizeNotUtf8, .closingParenthesis, .endOfInput]

/-- A text that begins in another way. -/
theorem append_ne_of_take {front back text : String} (n : Nat) (hn : n ≤ front.toList.length)
    (h : front.toList.take n ≠ text.toList.take n) : front ++ back ≠ text := by
  rintro rfl
  rw [String.toList_append, List.take_append_of_le_length hn] at h
  exact h rfl

/-- **No other fault has one of these wordings.** -/
theorem message_eq_iff {fault plain : Fault} (h : plain ∈ neverInList) :
    fault.message = plain.message ↔ fault = plain := by
  refine ⟨fun hmessage => ?_, congrArg message⟩
  cases fault with
  | unexpectedByte byte =>
    have hfront : ∀ plain ∈ neverInList,
        "Unexpected character: 0x".toList.take 13 ≠ plain.message.toList.take 13 := by decide
    exact absurd hmessage (append_ne_of_take 13 (by decide) (hfront plain h))
  | invalidEscape byte =>
    have hfront : ∀ plain ∈ neverInList,
        "Invalid escape: \\".toList.take 9 ≠ plain.message.toList.take 9 := by decide
    exact absurd hmessage (append_ne_of_take 9 (by decide) (hfront plain h))
  | _ =>
    revert plain
    decide

theorem message_not_mem {fault : Fault} (h : fault ∉ neverInList) :
    fault.message ∉ neverInList.map message := by
  intro hmem
  obtain ⟨plain, hplain, hmessage⟩ := List.mem_map.1 hmem
  exact h ((message_eq_iff hplain).1 hmessage.symm ▸ hplain)

end Fault

namespace Field

variable {input rest : List UInt8} {failure : Failure} {limit left lists : Nat}

/-! ## Causes -/

/-- In front of the text a value is missing: a closing parenthesis stands there, or nothing. -/
inductive Missing : (input : List UInt8) → Failure → Prop
  /-- The closing parenthesis of no list. -/
  | closingParenthesis {rest : List UInt8} :
      Missing (0x29 :: rest) ⟨.fault .closingParenthesis, 0x29 :: rest⟩
  /-- The end of the text. -/
  | endOfInput : Missing [] ⟨.fault .endOfInput, []⟩

theorem Missing.rest_eq (h : Missing input failure) : failure.rest = input := by
  cases h <;> rfl

theorem Missing.fault_cases {fault : Fault} (h : Missing input ⟨.fault fault, rest⟩) :
    fault = .closingParenthesis ∨ fault = .endOfInput := by
  cases h with
  | closingParenthesis => exact .inl rfl
  | endOfInput => exact .inr rfl

theorem missing_closingParenthesis_iff :
    Missing input ⟨.fault .closingParenthesis, input⟩ ↔ input.head? = some 0x29 := by
  constructor
  · intro h
    cases h
    rfl
  · intro h
    obtain ⟨rest, rfl⟩ := List.head?_eq_some_iff.1 h
    exact .closingParenthesis

theorem missing_endOfInput_iff : Missing input ⟨.fault .endOfInput, input⟩ ↔ input = [] := by
  constructor
  · intro h
    cases h
    rfl
  · rintro rfl
    exact .endOfInput

/-- What may be wrong inside a list: it is one list too many, or a fault that is none of the
four. -/
def InnerCause (limit : Nat) (cause : Cause) : Prop :=
  cause = .tooDeep limit ∨ ∃ fault, cause = .fault fault ∧ fault ∉ Fault.neverInList

theorem not_innerCause {fault : Fault} (h : fault ∈ Fault.neverInList) :
    ¬ InnerCause limit (.fault fault) := by
  rintro (hdeep | ⟨other, hother, hnot⟩)
  · cases hdeep
  · cases hother
    exact hnot h

theorem not_mem_neverInList_of_ofPiece {fault : Fault} (h : ofPiece fault = true) :
    fault ∉ Fault.neverInList := by
  intro hmem
  simp only [Fault.neverInList, List.mem_cons, List.not_mem_nil, or_false] at hmem
  rcases hmem with rfl | rfl | rfl | rfl <;> exact absurd h Bool.false_ne_true

/-- Where something is wrong, a value is missing outside of all lists, or it is what may be wrong
inside a list too. -/
theorem Refused.missing_or_inner (h : Refused limit left lists input failure) :
    lists = 0 ∧ Missing input failure ∨ InnerCause limit failure.cause := by
  cases h with
  | endOfInput outside => exact .inl ⟨outside, .endOfInput⟩
  | closingParenthesis outside => exact .inl ⟨outside, .closingParenthesis⟩
  | endInList => exact .inr (.inr ⟨_, rfl, by decide⟩)
  | tooDeep => exact .inr (.inl rfl)
  | quoted h =>
    obtain ⟨fault, rest, rfl, hpiece⟩ := exists_fault_of_quoted h
    exact .inr (.inr ⟨fault, rfl, not_mem_neverInList_of_ofPiece hpiece⟩)
  | literal h =>
    obtain ⟨fault, rest, rfl, hpiece⟩ := exists_fault_of_literal h
    exact .inr (.inr ⟨fault, rfl, not_mem_neverInList_of_ofPiece hpiece⟩)
  | number => exact .inr (.inr ⟨_, rfl, by decide⟩)
  | unexpectedByte => exact .inr (.inr ⟨_, rfl, by simp [Fault.neverInList]⟩)

/-- **A text is refused** since a value is missing behind the white space in front, or for a cause
that there may be inside a list too. -/
theorem RefusedWhole.missing_or_inner (h : RefusedWhole limit lists input failure) :
    lists = 0 ∧ Missing (skipSpace input) failure ∨ InnerCause limit failure.cause := by
  cases h with
  | value h =>
    obtain ⟨left, front, behind, -, rfl, hinside, hrefused⟩ := h
    rcases hrefused.missing_or_inner with ⟨hlists, hmissing⟩ | hinner
    · rw [Nat.zero_add] at hlists
      subst hlists
      cases hinside with
      | none blank =>
        rw [skipSpace_append blank hrefused.stops]
        exact .inl ⟨rfl, hmissing⟩
    · exact .inr hinner
  | trailingData => exact .inr (.inr ⟨_, rfl, by decide⟩)

theorem RefusedWhole.innerCause (h : RefusedWhole limit lists input failure) (hlists : 0 < lists) :
    InnerCause limit failure.cause :=
  h.missing_or_inner.resolve_left fun houter => absurd houter.1 (Nat.ne_of_gt hlists)

/-- **The four faults** are those of a missing value behind the white space in front of a text. -/
theorem whole_eq_fail_iff_missing {fault : Fault} (h : fault ∈ Fault.neverInList) :
    whole limit input = fail fault rest ↔ Missing (skipSpace input) ⟨.fault fault, rest⟩ := by
  constructor
  · intro hwhole
    obtain ⟨lists, hrefused⟩ := whole_eq_error_iff.1 hwhole
    exact (hrefused.missing_or_inner.resolve_right (not_innerCause h)).2
  · intro hmissing
    have hrefused : Refused limit limit 0 (skipSpace input) ⟨.fault fault, rest⟩ := by
      generalize skipSpace input = start at hmissing
      cases hmissing with
      | closingParenthesis => exact .closingParenthesis rfl
      | endOfInput => exact .endOfInput rfl
    rw [whole_eq, toStep_value_of_refused hrefused fun _ => rfl]
    rfl

end Field

namespace Reader

variable {limit position place : Nat} {input rest : List UInt8} {error : ReadError} {fault : Fault}

/-! ## Places -/

/-- Behind so many bytes of a text, the place of the first one that is no white space. It is the end
of the text if there is none. -/
def firstPlace (input : List UInt8) (position : Nat) : Nat :=
  position + ((input.drop position).takeWhile Field.isSpace).length

theorem drop_firstPlace (input : List UInt8) (position : Nat) :
    input.drop (firstPlace input position) = Field.skipSpace (input.drop position) := by
  have hparts := Field.takeWhile_append_skipSpace (input.drop position)
  unfold firstPlace
  rw [← List.drop_drop]
  exact (congrArg (List.drop _) hparts.symm).trans List.drop_left

/-- Behind the white space in front of it, a reader stands at the first place. -/
theorem position_moveTo_skipSpace (limit : Nat) (input : List UInt8) (position : Nat) :
    ((behind limit input position).moveTo (Field.skipSpace (input.drop position))).position =
      firstPlace input position := by
  have hlength := congrArg List.length (Field.takeWhile_append_skipSpace (input.drop position))
  rw [List.length_append] at hlength
  unfold moveTo behind firstPlace
  simp only
  omega

/-! ## One call -/

/-- What a call reports is what is wrong with the text in front of the reader. -/
theorem read_behind_eq_error_iff :
    (behind limit input position).read.1 = .error error ↔
      ∃ failure, Field.whole limit (input.drop position) = .error failure ∧
        error = errorAt ((behind limit input position).moveTo failure.rest).position
          failure.cause := by
  constructor
  · intro h
    obtain ⟨failure, hwhole, hlater, rfl⟩ := read_eq_error_iff.1 (Prod.ext h rfl :
      (behind limit input position).read = (.error error, _))
    exact ⟨failure, hwhole, by rw [hlater]⟩
  · rintro ⟨failure, hwhole, rfl⟩
    rw [read_eq_error_iff.2 ⟨failure, hwhole, rfl, rfl⟩]

theorem read_behind_eq_malformed_iff :
    (behind limit input position).read.1 = .error (.malformed place fault) ↔
      ∃ rest, Field.whole limit (input.drop position) = Field.fail fault rest ∧
        place = ((behind limit input position).moveTo rest).position := by
  rw [read_behind_eq_error_iff]
  constructor
  · rintro ⟨⟨cause, rest⟩, hwhole, herror⟩
    cases cause with
    | fault other =>
      cases herror
      exact ⟨rest, hwhole, rfl⟩
    | tooDeep deep => cases herror
  · rintro ⟨rest, hwhole, rfl⟩
    exact ⟨_, hwhole, rfl⟩

/-- One of the four faults is reported only at the first place, where a value is missing. -/
theorem read_behind_eq_iff_missing (h : fault ∈ Fault.neverInList) :
    (behind limit input position).read.1 = .error (.malformed place fault) ↔
      place = firstPlace input position ∧
        Field.Missing (input.drop place) ⟨.fault fault, input.drop place⟩ := by
  rw [read_behind_eq_malformed_iff]
  constructor
  · rintro ⟨rest, hwhole, rfl⟩
    have hmissing := (Field.whole_eq_fail_iff_missing h).1 hwhole
    obtain rfl : rest = Field.skipSpace (input.drop position) := hmissing.rest_eq
    rw [position_moveTo_skipSpace, drop_firstPlace]
    exact ⟨rfl, hmissing⟩
  · rintro ⟨rfl, hmissing⟩
    rw [drop_firstPlace] at hmissing
    exact ⟨_, (Field.whole_eq_fail_iff_missing h).2 hmissing,
      (position_moveTo_skipSpace limit input position).symm⟩

/-- The same by its wording. -/
theorem exists_message_iff_missing (limit : Nat) (plain : Fault) (h : plain ∈ Fault.neverInList) :
    (∃ fault, (behind limit input position).read.1 = .error (.malformed place fault) ∧
        fault.message = plain.message) ↔
      place = firstPlace input position ∧
        Field.Missing (input.drop place) ⟨.fault plain, input.drop place⟩ := by
  rw [← @read_behind_eq_iff_missing limit _ _ _ _ h]
  simp only [Fault.message_eq_iff h, exists_eq_right]

/-- The two of the four faults that are not those of a missing value are reported nowhere. -/
theorem message_ne_of_read {plain : Fault} (hplain : plain ∈ Fault.neverInList)
    (hclose : plain ≠ .closingParenthesis) (hend : plain ≠ .endOfInput)
    (hread : (behind limit input position).read.1 = .error (.malformed place fault)) :
    fault.message ≠ plain.message := by
  intro hmessage
  obtain ⟨-, hmissing⟩ :=
    (exists_message_iff_missing limit plain hplain).1 ⟨fault, hread, hmessage⟩
  exact hmissing.fault_cases.elim hclose hend

/-- **What one call reports.** Wherever the reader stands, a call fails exactly if the text there is
refused inside some number of its lists, and it reports why and where.

* The bytes of an atom and of the size of a literal are never reported not to be UTF-8.
* A closing parenthesis is reported exactly at the first place, if it stands there.
* A missing value is reported exactly at the first place, if the text ends there.
* A list is open where the call fails exactly if one opens at the first place, as the limit allows,
  and nothing follows it. Then, inside however many lists, the limit is reported or a fault that is
  none of these four.
-/
theorem read_refused (limit : Nat) (input : List UInt8) (position : Nat) :
    (∀ error, (behind limit input position).read.1 = .error error ↔
      ∃ lists failure, Field.RefusedWhole limit lists (input.drop position) failure ∧
        error = errorAt ((behind limit input position).moveTo failure.rest).position
          failure.cause) ∧
    (∀ place fault, (behind limit input position).read.1 = .error (.malformed place fault) →
      fault.message ≠ "Invalid UTF-8 in atom" ∧ fault.message ≠ "Invalid literal size") ∧
    (∀ place, (∃ fault, (behind limit input position).read.1 = .error (.malformed place fault) ∧
        fault.message = "Unexpected closing parenthesis") ↔
      place = firstPlace input position ∧ input[place]? = some 0x29) ∧
    (∀ place, (∃ fault, (behind limit input position).read.1 = .error (.malformed place fault) ∧
        fault.message = "Unexpected EOF") ↔
      place = firstPlace input position ∧ input.length ≤ place) ∧
    ∀ lists failure, Field.RefusedWhole limit lists (input.drop position) failure →
      (0 < lists ↔ 0 < limit ∧ input[firstPlace input position]? = some 0x28 ∧
        failure.cause ≠ .fault .trailingData) ∧
      (0 < lists → failure.cause = .tooDeep limit ∨ ∃ fault, failure.cause = .fault fault ∧
        fault.message ∉ ["Invalid UTF-8 in atom", "Invalid literal size",
          "Unexpected closing parenthesis", "Unexpected EOF"]) := by
  refine ⟨fun error => ?_, fun place fault h => ⟨?_, ?_⟩, fun place => ?_, fun place => ?_,
    fun lists failure h => ⟨?_, fun hlists => ?_⟩⟩
  · rw [read_behind_eq_error_iff]
    constructor
    · rintro ⟨failure, hwhole, herror⟩
      obtain ⟨lists, hrefused⟩ := Field.whole_eq_error_iff.1 hwhole
      exact ⟨lists, failure, hrefused, herror⟩
    · rintro ⟨lists, failure, hrefused, herror⟩
      exact ⟨failure, Field.whole_eq_error_iff.2 ⟨lists, hrefused⟩, herror⟩
  · exact message_ne_of_read (by decide : .atomNotUtf8 ∈ _) (by decide) (by decide) h
  · exact message_ne_of_read (by decide : .literalSizeNotUtf8 ∈ _) (by decide) (by decide) h
  · rw [← List.head?_drop, ← Field.missing_closingParenthesis_iff]
    exact exists_message_iff_missing limit .closingParenthesis (by decide)
  · rw [← List.drop_eq_nil_iff, ← Field.missing_endOfInput_iff]
    exact exists_message_iff_missing limit .endOfInput (by decide)
  · rw [← List.head?_drop, drop_firstPlace]
    exact h.pos_iff
  · rcases h.innerCause hlists with hdeep | ⟨fault, hfault, hnot⟩
    · exact .inl hdeep
    · exact .inr ⟨fault, hfault, Fault.message_not_mem hnot⟩

/-- The text `() )((`. -/
def strayText : List UInt8 := [0x28, 0x29, 0x20, 0x29, 0x28, 0x28]

theorem refusedWhole_strayText :
    Field.RefusedWhole 2 2 (strayText.drop 4) ⟨.fault .endInList, []⟩ := by
  have hempty : Field.DenoteAll Field.Word [] [] [] := .nil rfl
  have hfirst : Field.DenoteAll Field.Word [] [0x28] [] := .nil rfl
  have hinner : Field.RefusedInside 2 1 1 1 [0x28] ⟨.fault .endInList, []⟩ :=
    (Field.Refused.endInList Nat.zero_lt_two).inside.list hempty (Nat.zero_le 0)
  exact .value (hinner.list hfirst (Nat.zero_le 1))

/-- Behind the empty list, the closing parenthesis is reported that stands where a value is missing.
Behind that parenthesis two lists are open where the text ends, and behind all of it a value is
missing. -/
theorem read_refused_stray :
    (∃ fault, (behind 2 strayText 2).read.1 = .error (.malformed 3 fault) ∧
      fault.message = "Unexpected closing parenthesis") ∧
    ((behind 2 strayText 4).read.1 = .error (.malformed 6 .endInList) ∧
      Fault.endInList.message ∉ ["Invalid UTF-8 in atom", "Invalid literal size",
        "Unexpected closing parenthesis", "Unexpected EOF"]) ∧
    ∃ fault, (behind 2 strayText 6).read.1 = .error (.malformed 6 fault) ∧
      fault.message = "Unexpected EOF" := by
  obtain ⟨hread, -, -, -, hinner⟩ := read_refused 2 strayText 4
  refine ⟨((read_refused 2 strayText 2).2.2.1 3).2 ⟨rfl, rfl⟩,
    ⟨(hread _).2 ⟨2, _, refusedWhole_strayText, rfl⟩, ?_⟩,
    ((read_refused 2 strayText 6).2.2.2.1 6).2 ⟨rfl, Nat.le_refl 6⟩⟩
  rcases (hinner 2 _ refusedWhole_strayText).2 Nat.zero_lt_two with hdeep | ⟨fault, hfault, hnot⟩
  · cases hdeep
  · cases hfault
    exact hnot

end Reader

end MailOutline
