import MailOutline.Proofs.Grammar.Reading

/-!
# Reading one field after the other

A reader may be asked again, whatever it answered before. It stays inside its text, it never goes
back, and each time it does what a fresh reader does in front of the same bytes.

* `left`: the bytes that a step leaves, whether it succeeds or fails. They are an end of the bytes
  that it was given (`left_quoted_isSuffix`, `left_literal_isSuffix`, `left_items_isSuffix`,
  `left_value_isSuffix`, `rest_isSuffix_of_whole`).
* `Reader.behind`: a reader behind so many bytes of a text. One call answers what a fresh reader
  does (`Reader.read_behind`), and leaves the reader behind some more bytes of the same text
  (`Reader.exists_behind_of_read`).
* `Reader.after`: a reader after so many calls, by induction behind some bytes of its text
  (`Reader.exists_behind_of_after`).
* `Reader.readMany_calls`: what all the calls answer, and where the reader stands between them.
-/

namespace MailOutline.Field

open Reading (toStep)

variable {α β : Type} {input rest : List UInt8} {limit levels : Nat}
  {one : (input : List UInt8) → Except Failure (Reading Field input)}

/-! ## What a step leaves -/

/-- The bytes that a step leaves: those behind its value, or those from the place of its failure. -/
def left : Step α → List UInt8
  | .error failure => failure.rest
  | .ok (_, rest) => rest

theorem left_map (step : Step α) (f : α → β) :
    left (step.map fun (a, rest) => (f a, rest)) = left step := by
  cases step <;> rfl

theorem left_quotedBytes_isSuffix (input : List UInt8) : left (quotedBytes input) <:+ input := by
  fun_induction quotedBytes input with
  | case1 => exact List.nil_suffix
  | case2 rest => exact List.suffix_cons _ rest
  | case3 => exact List.nil_suffix
  | case4 escaped behind _ _ hread _ ih
  | case5 escaped behind _ _ _ hread _ ih =>
    rw [hread] at ih
    exact ih.trans ((List.suffix_cons escaped behind).trans (List.suffix_cons _ _))
  | case6 escaped behind => exact (List.suffix_cons escaped behind).trans (List.suffix_cons _ _)
  | case7 byte rest _ _ _ hread ih
  | case8 byte rest _ _ _ _ hread ih =>
    rw [hread] at ih
    exact ih.trans (List.suffix_cons byte rest)

theorem left_quoted_isSuffix (input : List UInt8) : left (quoted input) <:+ input := by
  have hbytes := left_quotedBytes_isSuffix input
  unfold quoted
  split
  next hread =>
    rw [hread] at hbytes
    exact hbytes
  next hread =>
    rw [hread] at hbytes
    split <;> exact hbytes

theorem left_literalLine_isSuffix (plus : Bool) (input : List UInt8) :
    left (literalLine plus input) <:+ input := by
  unfold literalLine
  split
  · exact List.drop_suffix 2 input
  · split <;> exact List.suffix_rfl

theorem left_literalText_isSuffix (size : Nat) (input : List UInt8) :
    left (literalText size input) <:+ input := by
  unfold literalText
  split
  · exact List.suffix_rfl
  · split <;> exact List.drop_suffix size input

theorem literalHead_isSuffix (input : List UInt8) : (literalHead input).2.2 <:+ input := by
  have hbehind : input.dropWhile isDigit <:+ input := List.dropWhile_suffix isDigit
  unfold literalHead
  simp only
  split
  · exact (List.tail_suffix _).trans hbehind
  · exact hbehind

theorem left_literal_isSuffix (input : List UInt8) : left (literal input) <:+ input := by
  have hstop := literalHead_isSuffix input
  unfold literal
  generalize literalHead input = head at hstop
  obtain ⟨digits, plus, stop⟩ := head
  simp only at hstop ⊢
  split
  · exact hstop
  · split
    · exact hstop
    · split
      · exact List.nil_suffix
      next close line _ =>
        have hline := (left_literalLine_isSuffix plus line).trans
          ((List.suffix_cons close line).trans hstop)
        split
        next hread =>
          rw [hread] at hline
          exact hline
        next hread =>
          rw [hread] at hline
          exact (left_literalText_isSuffix _ _).trans hline

theorem left_word (run rest : List UInt8) : left (word run rest) = rest := by
  unfold word
  split <;> rfl

/-- The elements of a list leave an end of the text, if each value does. -/
theorem left_items_isSuffix (h : ∀ input, left (toStep (one input)) <:+ input)
    (input : List UInt8) : left (toStep (items one input)) <:+ input := by
  induction hlen : input.length using Nat.strongRecOn generalizing input with
  | ind n ih =>
    have hskip : skipSpace input <:+ input := List.dropWhile_suffix isSpace
    rw [toStep_items]
    split
    · exact List.nil_suffix
    next byte behind hinput =>
      rw [hinput] at hskip
      split
      · exact (List.suffix_cons byte behind).trans hskip
      · have hfirst := (h (byte :: behind)).trans hskip
        split
        next hread =>
          rw [hread] at hfirst
          exact hfirst
        next first middle hread =>
          rw [hread] at hfirst
          have hshorter : middle.length < n := hlen ▸ length_lt_of_first hinput hread
          have hmore := (ih _ hshorter middle rfl).trans hfirst
          split
          next hread =>
            rw [hread] at hmore
            exact hmore
          next hread =>
            rw [hread] at hmore
            exact hmore

/-- A value that is no list leaves an end of the text. -/
theorem left_value_isSuffix_of_ne {byte : UInt8} (hopen : byte ≠ 0x28) (limit levels : Nat)
    (rest : List UInt8) : left (toStep (value limit levels (byte :: rest))) <:+ byte :: rest := by
  by_cases hquote : byte = 0x22
  · subst hquote
    rw [toStep_value_quoted, left_map]
    exact (left_quoted_isSuffix rest).trans (List.suffix_cons _ rest)
  by_cases hbrace : byte = 0x7B
  · subst hbrace
    rw [toStep_value_literal, left_map]
    exact (left_literal_isSuffix rest).trans (List.suffix_cons _ rest)
  by_cases hatom : isAtomByte byte = true
  · rw [toStep_value_word limit levels hatom, left_word]
    exact (List.dropWhile_suffix isAtomByte).trans (List.suffix_cons byte rest)
  · unfold value
    simp only [if_neg hopen, if_neg hquote, if_neg hbrace, if_neg hatom]
    split <;> exact List.suffix_rfl

/-- **A value leaves an end of the text**, whether it is read or not. -/
theorem left_value_isSuffix (limit levels : Nat) (input : List UInt8) :
    left (toStep (value limit levels input)) <:+ input := by
  induction levels generalizing input with
  | zero =>
    cases input with
    | nil => exact List.nil_suffix
    | cons byte rest =>
      by_cases hopen : byte = 0x28
      · subst hopen
        exact List.suffix_rfl
      · exact left_value_isSuffix_of_ne hopen limit 0 rest
  | succ below ih =>
    cases input with
    | nil => exact List.nil_suffix
    | cons byte rest =>
      by_cases hopen : byte = 0x28
      · subst hopen
        rw [toStep_value_list, left_map]
        exact (left_items_isSuffix ih rest).trans (List.suffix_cons _ rest)
      · exact left_value_isSuffix_of_ne hopen limit (below + 1) rest

/-- **A text that is refused** is refused in front of one of its ends. -/
theorem rest_isSuffix_of_whole {failure : Failure} (h : whole limit input = .error failure) :
    failure.rest <:+ input := by
  have hvalue := (left_value_isSuffix limit limit (skipSpace input)).trans
    (List.dropWhile_suffix isSpace)
  rw [whole_eq] at h
  split at h
  next hread =>
    rw [hread] at hvalue
    cases h
    exact hvalue
  next hread =>
    rw [hread] at hvalue
    split at h
    · cases h
    next hskip =>
      cases h
      rw [← hskip]
      exact (List.dropWhile_suffix isSpace).trans hvalue

end MailOutline.Field

namespace MailOutline

/-- The error with its place counted in a text that has `offset` more bytes in front. -/
def ReadError.shift (offset : Nat) : ReadError → ReadError
  | malformed position fault => malformed (offset + position) fault
  | tooDeep limit => tooDeep limit

namespace Reader

variable {limit position : Nat} {input rest : List UInt8}

/-! ## One call -/

/-- The reader behind the first `position` bytes of a text. -/
def behind (limit : Nat) (input : List UInt8) (position : Nat) : Reader :=
  ⟨position, input.drop position, limit⟩

/-- Moved in front of an end of its text, a reader stands behind the bytes in front of that end. -/
theorem moveTo_behind (h : rest <:+ input.drop position) :
    (behind limit input position).moveTo rest =
      behind limit input (position + ((input.drop position).length - rest.length)) := by
  have hrest : rest = input.drop (position + ((input.drop position).length - rest.length)) := by
    rw [← List.drop_drop]
    exact List.suffix_iff_eq_drop.1 h
  unfold behind moveTo
  simp only
  rw [← hrest]

/-- **A call leaves the reader in its text**, behind at least as many bytes as before. -/
theorem exists_behind_of_read (h : position ≤ input.length) :
    ∃ later, position ≤ later ∧ later ≤ input.length ∧
      (behind limit input position).read.2 = behind limit input later := by
  have hmove : ∀ {rest}, rest <:+ input.drop position →
      ∃ later, position ≤ later ∧ later ≤ input.length ∧
        (behind limit input position).moveTo rest = behind limit input later := by
    intro rest hrest
    refine ⟨_, Nat.le_add_right _ _, ?_, moveTo_behind hrest⟩
    rw [List.length_drop]
    omega
  unfold read
  split
  · exact hmove List.nil_suffix
  next hwhole => exact hmove (Field.rest_isSuffix_of_whole hwhole)
  next hwhole => exact hmove (Field.rest_isSuffix_of_whole hwhole)

/-- **A call answers what a fresh reader does** in front of the same bytes, with places counted from
the start of the text. -/
theorem read_behind (limit : Nat) (input : List UInt8) (position : Nat) :
    (behind limit input position).read.1 =
        (ofBytes limit (input.drop position)).read.1.mapError (ReadError.shift position) ∧
      (behind limit input position).read.2.position =
        position + (ofBytes limit (input.drop position)).read.2.position := by
  unfold read moveTo behind ofBytes
  simp only [Nat.zero_add]
  cases Field.whole limit (input.drop position) with
  | ok field => exact ⟨rfl, rfl⟩
  | error failure =>
    obtain ⟨cause, rest⟩ := failure
    cases cause <;> exact ⟨rfl, rfl⟩

/-- What a reader reports that has found the cause behind so many bytes. -/
def errorAt (position : Nat) : Field.Cause → ReadError
  | .fault fault => .malformed position fault
  | .tooDeep limit => .tooDeep limit

/-- **A call fails** where the text in front of the reader is refused, and reports why. -/
theorem read_eq_error_iff {reader later : Reader} {error : ReadError} :
    reader.read = (.error error, later) ↔
      ∃ failure, Field.whole reader.maxDepth reader.rest = .error failure ∧
        later = reader.moveTo failure.rest ∧ error = errorAt later.position failure.cause := by
  unfold read
  cases Field.whole reader.maxDepth reader.rest with
  | ok field => simp
  | error failure =>
    obtain ⟨cause, rest⟩ := failure
    constructor
    · cases cause <;> exact fun h => by cases h; exact ⟨_, rfl, rfl, rfl⟩
    · rintro ⟨failure, hfailure, rfl, rfl⟩
      cases hfailure
      cases cause <;> rfl

/-- A fault is reported where the reader stops. -/
theorem position_of_read_malformed {reader later : Reader} {place : Nat} {fault : Fault}
    (h : reader.read = (.error (.malformed place fault), later)) : later.position = place := by
  unfold read at h
  split at h <;> cases h
  rfl

/-- A reader that has succeeded has read its whole text. -/
theorem read_of_read_ok {reader later : Reader} {field : Field}
    (h : reader.read = (.ok field, later)) : later = reader.moveTo [] := by
  unfold read at h
  split at h <;> cases h
  rfl

/-! ## Any number of calls -/

/-- The reader after so many calls. -/
def after (reader : Reader) : Nat → Reader
  | 0 => reader
  | n + 1 => (reader.after n).read.2

theorem after_read (reader : Reader) (n : Nat) : reader.read.2.after n = reader.after (n + 1) := by
  induction n with
  | zero => rfl
  | succ n ih => exact congrArg (fun later => later.read.2) ih

/-- What the calls answer, one after the other. -/
theorem readMany_eq_map (count : Nat) (reader : Reader) :
    readMany count reader = (List.range count).map fun n => (reader.after n).read := by
  induction count generalizing reader with
  | zero => rfl
  | succ count ih =>
    rw [readMany, ih, List.range_succ_eq_map, List.map_cons, List.map_map]
    simp only [after_read]
    rfl

/-- **After any number of calls**, a reader stands somewhere in its text. -/
theorem exists_behind_of_after (limit : Nat) (input : List UInt8) (n : Nat) :
    ∃ position, position ≤ input.length ∧
      (ofBytes limit input).after n = behind limit input position := by
  induction n with
  | zero => exact ⟨0, Nat.zero_le _, rfl⟩
  | succ n ih =>
    obtain ⟨position, hposition, hbehind⟩ := ih
    obtain ⟨later, -, hlater, hread⟩ := exists_behind_of_read hposition
    exact ⟨later, hlater, by rw [after, hbehind, hread]⟩

/-- At the end of its text a reader stays, and misses a value each time. -/
theorem after_behind_length (limit : Nat) (input : List UInt8) (n : Nat) :
    (behind limit input input.length).after n = behind limit input input.length ∧
      ((behind limit input input.length).after n).read =
        (.error (.malformed input.length .endOfInput), behind limit input input.length) := by
  have hread : (behind limit input input.length).read =
      (.error (.malformed input.length .endOfInput), behind limit input input.length) := by
    unfold read behind
    rw [List.drop_length, Field.whole_of_space rfl]
    rfl
  have hstay : (behind limit input input.length).after n = behind limit input input.length := by
    induction n with
    | zero => rfl
    | succ n ih => rw [after, ih, hread]
  exact ⟨hstay, by rw [hstay, hread]⟩

/-- **One reader for any number of fields.** After any number of calls, whatever they answered, one
more call does not go back and stays inside the text. If it succeeds, the whole text has been read,
and every later call misses a value at its end. If it finds a fault, it stops there. And it answers
what a fresh reader answers in front of the bytes that had not been read, with places counted from
the start of the text. -/
theorem readMany_calls (limit : Nat) (input : List UInt8) :
    (∀ count, readMany count (ofBytes limit input) =
      (List.range count).map fun n => ((ofBytes limit input).after n).read) ∧
    Fault.endOfInput.message = "Unexpected EOF" ∧
    ∀ n position answer later, ((ofBytes limit input).after n).position = position →
      ((ofBytes limit input).after n).read = (answer, later) →
        (position ≤ later.position ∧ later.position ≤ input.length) ∧
        (∀ field, answer = .ok field → later.position = input.length ∧ ∀ more,
          (later.after more).read = (.error (.malformed input.length .endOfInput), later)) ∧
        (∀ place fault, answer = .error (.malformed place fault) → later.position = place) ∧
        answer = (ofBytes limit (input.drop position)).read.1.mapError (ReadError.shift position) ∧
        later.position = position + (ofBytes limit (input.drop position)).read.2.position := by
  refine ⟨fun count => readMany_eq_map count _, rfl, ?_⟩
  intro n position answer later hposition hread
  obtain ⟨place, hplace, hbehind⟩ := exists_behind_of_after limit input n
  rw [hbehind] at hposition hread
  obtain rfl : place = position := hposition
  obtain ⟨stop, hle, hstop, hlater⟩ := @exists_behind_of_read limit _ _ hplace
  obtain ⟨hanswer, hshift⟩ := read_behind limit input place
  rw [hread] at hlater hanswer hshift
  refine ⟨?_, fun field hfield => ?_, fun place fault hfault => ?_, hanswer, hshift⟩
  · rw [show later = _ from hlater]
    exact ⟨hle, hstop⟩
  · subst hfield
    have hend : later = behind limit input input.length := by
      rw [read_of_read_ok hread, moveTo_behind List.nil_suffix, List.length_drop, List.length_nil,
        Nat.sub_zero, Nat.add_sub_cancel' hplace]
    subst hend
    exact ⟨rfl, fun more => (after_behind_length limit input more).2⟩
  · subst hfault
    exact position_of_read_malformed hread

/-- The text `7 8`. -/
def spacedText : List UInt8 := [0x37, 0x20, 0x38]

theorem whole_spacedText : Field.whole 0 spacedText = Field.fail .trailingData [0x38] := by
  have hdenotes : Field.Denotes Field.Word [0x37] [0x20, 0x38] (.number 7) :=
    .word (by decide) rfl rfl (.number rfl (by decide))
  have hvalue := Field.toStep_value_of_denotes 0 0 (Nat.le_refl _) hdenotes
  have hskip : Field.skipSpace spacedText = [0x37] ++ [0x20, 0x38] := rfl
  rw [Field.whole_eq, hskip, hvalue]
  rfl

theorem whole_spacedText_drop : Field.whole 0 [0x38] = .ok (.number 8) := by
  have hwhole : Field.Whole Field.Word [0x38] (.number 8) :=
    (Field.whole_iff_of_atoms (by decide) rfl).2 (.number rfl (by decide))
  exact Field.whole_eq_ok_iff.2 ⟨hwhole, Nat.le_refl _⟩

/-- The first call stops in front of the second number, the second call reads it as a fresh reader
does, and from then on the text is at its end. -/
theorem readMany_calls_spaced :
    (ofBytes 0 spacedText).read =
        (.error (.malformed 2 .trailingData), behind 0 spacedText 2) ∧
      ((ofBytes 0 spacedText).after 1).read = (.ok (.number 8), behind 0 spacedText 3) ∧
      (.ok (.number 8) : Except ReadError Field) =
        (ofBytes 0 [0x38]).read.1.mapError (ReadError.shift 2) ∧
      ∀ more, ((behind 0 spacedText 3).after more).read =
        (.error (.malformed 3 .endOfInput), behind 0 spacedText 3) := by
  have hfirst : (ofBytes 0 spacedText).read =
      (.error (.malformed 2 .trailingData), behind 0 spacedText 2) := by
    rw [Field.read_ofBytes, whole_spacedText]
    rfl
  have hafter : (ofBytes 0 spacedText).after 1 = behind 0 spacedText 2 := by
    rw [after, after, hfirst]
  have hsecond : ((ofBytes 0 spacedText).after 1).read =
      (.ok (.number 8), behind 0 spacedText 3) := by
    rw [hafter, read, show (behind 0 spacedText 2).rest = [0x38] from rfl,
      show (behind 0 spacedText 2).maxDepth = 0 from rfl, whole_spacedText_drop]
    rfl
  obtain ⟨-, hok, -, hfresh, -⟩ :=
    (readMany_calls 0 spacedText).2.2 1 2 _ _ (by rw [hafter]; rfl) hsecond
  exact ⟨hfirst, hsecond, hfresh, (hok _ rfl).2⟩

end Reader

end MailOutline
