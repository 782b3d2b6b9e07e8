import MailOutline.Proofs.Grammar.Calls

/-!
# How far the reader looks ahead

What is wrong with a text shows in the bytes in front of the fault and in two more. Two are needed
where the end of a line is missing behind the size of a literal. Elsewhere one tells where a run
ends. Only a literal that is too short depends on where the text ends.

* `onto`: an outcome with other bytes behind the place where the step stopped.
* `Local`: at a text, a way to read stops where it does whatever stands behind the next two bytes.
  Steps that are local one after the other are local together (`Local.andThen`).
* `local_quoted`, `local_literal`, `local_word`: strings and words.
* `local_items`, `local_value`: the elements of a list, by induction on the length of the text, and
  values, by induction on the levels.
* `Reader.read_of_take_eq`: two texts with the same beginning.
-/

namespace MailOutline.Field

open Reading (toStep)

variable {α β : Type} {input rest : List UInt8} {byte : UInt8} {limit levels : Nat}
  {one : (input : List UInt8) → Except Failure (Reading Field input)}

/-! ## Steps that look ahead -/

/-- The outcome of a step that stopped in front of `rest` instead of where it did. -/
def onto (rest : List UInt8) : Step α → Step α
  | .error failure => .error { failure with rest }
  | .ok (a, _) => .ok (a, rest)

/-- The step failed since a literal was too short. -/
def Incomplete (step : Step α) : Prop := ∃ rest, step = fail .literalIncomplete rest

/-- At a text, `read` stops in front of one of its ends, and looks at no more than two of the bytes
there: with anything behind these it has the same outcome. A literal that is too short is excepted.
-/
structure Local (read : List UInt8 → Step α) (input : List UInt8) : Prop where
  isSuffix : left (read input) <:+ input
  same : ∀ {front seen tail : List UInt8}, input = front ++ (seen ++ tail) → 2 ≤ seen.length →
    left (read input) = seen ++ tail → ¬Incomplete (read input) →
      ∀ other, read (front ++ (seen ++ other)) = onto (seen ++ other) (read input)

theorem left_onto (rest : List UInt8) (step : Step α) : left (onto rest step) = rest := by
  cases step <;> rfl

theorem onto_onto (rest rest' : List UInt8) (step : Step α) :
    onto rest (onto rest' step) = onto rest step := by
  cases step <;> rfl

/-- A step, and another one behind it that knows what the first one answered. -/
def andThen (first : List UInt8 → Step α) (second : α → List UInt8 → Step β)
    (input : List UInt8) : Step β :=
  match first input with
  | .error failure => .error failure
  | .ok (a, rest) => second a rest

/-- The bytes with `p` in front of the text. -/
def span (p : UInt8 → Bool) (input : List UInt8) : Step (List UInt8) :=
  .ok (input.takeWhile p, input.dropWhile p)

namespace Local

variable {read : List UInt8 → Step α} {next : List UInt8 → Step α}
  {first : List UInt8 → Step α} {second : α → List UInt8 → Step β}

/-- Behind a place in a text of less than two bytes there are no two bytes to look at. -/
theorem short (hsuffix : left (read input) <:+ input) (h : input.length < 2) :
    Local read input where
  isSuffix := hsuffix
  same hinput hseen _ _ := by
    have hlength := congrArg List.length hinput
    simp only [List.length_append] at hlength
    omega

/-- A step that stops where it stands. -/
theorem here (step : Step α) (input : List UInt8) : Local (fun input => onto input step) input where
  isSuffix := ⟨[], left_onto input step⟩
  same {front seen tail} hinput _ hleft _ other := by
    rw [left_onto] at hleft
    obtain rfl : front = [] := List.append_left_eq_self.1 (hinput.symm.trans hleft)
    rw [onto_onto]
    rfl

theorem pure (a : α) (input : List UInt8) : Local (fun input => .ok (a, input)) input :=
  here (.ok (a, [])) input

theorem refuse (fault : Fault) (input : List UInt8) :
    Local (fail fault : List UInt8 → Step α) input :=
  here (fail fault []) input

/-- What a step does may depend on the first byte. -/
theorem congr (h : ∀ rest, read (byte :: rest) = next (byte :: rest))
    (hnext : Local next (byte :: rest)) : Local read (byte :: rest) where
  isSuffix := by
    rw [h]
    exact hnext.isSuffix
  same {front seen tail} hinput hseen hleft hcomplete other := by
    rw [h] at hleft hcomplete
    have hsame := hnext.same hinput hseen hleft hcomplete other
    have hhead : (front ++ (seen ++ other)).head? = some byte := by
      obtain ⟨next, more, rfl⟩ := List.exists_cons_of_length_pos (Nat.zero_lt_of_lt hseen)
      cases front <;> exact (congrArg List.head? hinput).symm
    obtain ⟨behind, hbehind⟩ := List.head?_eq_some_iff.1 hhead
    rw [hbehind] at hsame ⊢
    rw [h, h, hsame]

/-- A step that takes one byte, and then another one. -/
theorem cons (h : ∀ rest, read (byte :: rest) = next rest) (hnext : Local next rest) :
    Local read (byte :: rest) where
  isSuffix := by
    rw [h]
    exact hnext.isSuffix.trans (List.suffix_cons byte rest)
  same {front seen tail} hinput hseen hleft hcomplete other := by
    rw [h] at hleft hcomplete
    cases front with
    | nil =>
      have hlength := hnext.isSuffix.length_le
      rw [hleft, ← List.nil_append (seen ++ tail), ← hinput, List.length_cons] at hlength
      omega
    | cons byte' front =>
      obtain ⟨rfl, rfl⟩ := List.cons.inj hinput
      rw [List.cons_append, h, h]
      exact hnext.same rfl hseen hleft hcomplete other

/-- **Two steps one after the other** look no further than the one that stops. -/
theorem andThen (hfirst : Local first input)
    (hsecond : ∀ a rest, first input = .ok (a, rest) → Local (second a) rest) :
    Local (andThen first second) input := by
  obtain ⟨hsuffix, hsame⟩ := hfirst
  unfold Field.andThen
  cases hread : first input with
  | error failure =>
    rw [hread] at hsuffix hsame
    refine ⟨by rw [hread]; exact hsuffix, fun hinput hseen hleft hcomplete other => ?_⟩
    rw [hread] at hleft hcomplete ⊢
    have hnot : ¬ Incomplete (.error failure : Step α) := by
      rintro ⟨rest, h⟩
      cases h
      exact hcomplete ⟨rest, rfl⟩
    rw [hsame hinput hseen hleft hnot other]
    rfl
  | ok found =>
    obtain ⟨a, middle⟩ := found
    rw [hread] at hsuffix hsame
    have hrest := hsecond a middle hread
    refine ⟨by rw [hread]; exact hrest.isSuffix.trans hsuffix,
      fun {front seen tail} hinput hseen hleft hcomplete other => ?_⟩
    rw [hread] at hleft hcomplete
    -- The second step takes the bytes between the place of the first one and its own.
    obtain ⟨before, (hbefore : before ++ middle = input)⟩ := hsuffix
    obtain ⟨taken, htaken⟩ := hrest.isSuffix
    have hmiddle : middle = taken ++ (seen ++ tail) := htaken.symm.trans (congrArg _ hleft)
    obtain rfl : before ++ taken = front := by
      rw [hmiddle, ← List.append_assoc] at hbefore
      exact List.append_cancel_right (hbefore.trans hinput)
    rw [← List.append_assoc] at hmiddle
    have hlonger : 2 ≤ (taken ++ seen).length := by
      rw [List.length_append]
      omega
    have hfirst := hsame (hbefore.symm.trans (congrArg (before ++ ·) hmiddle)) hlonger hmiddle
      (fun ⟨rest, h⟩ => nomatch h) other
    rw [hread, List.append_assoc, ← List.append_assoc taken, hfirst, onto, List.append_assoc]
    rw [List.append_assoc] at hmiddle
    exact hrest.same hmiddle hseen hleft hcomplete other

theorem map (f : α → β) (h : Local read input) :
    Local (fun input => (read input).map fun (a, rest) => (f a, rest)) input := by
  have hthen : (fun input => (read input).map fun (a, rest) => (f a, rest)) =
      Field.andThen read fun a rest => .ok (f a, rest) := by
    funext input
    unfold Field.andThen
    cases read input <;> rfl
  rw [hthen]
  exact h.andThen fun a rest _ => pure (f a) rest

/-- The end of a run shows in the next byte. -/
theorem span (p : UInt8 → Bool) (input : List UInt8) : Local (span p) input where
  isSuffix := List.dropWhile_suffix p
  same {front seen tail} hinput hseen hleft _ other := by
    obtain ⟨next, more, rfl⟩ := List.exists_cons_of_length_pos (Nat.zero_lt_of_lt hseen)
    have hbehind : input.dropWhile p = next :: more ++ tail := hleft
    have hrun : input.takeWhile p = front := by
      have hparts : input.takeWhile p ++ input.dropWhile p = input :=
        List.takeWhile_append_dropWhile
      rw [hbehind] at hparts
      exact List.append_cancel_right (hparts.trans hinput)
    obtain ⟨-, hall, hstops⟩ := takeWhile_dropWhile_iff.1 ⟨hrun, hbehind⟩
    have hstops' : stops p (next :: more ++ other) = true := hstops
    obtain ⟨hrun', hbehind⟩ := takeWhile_dropWhile_iff.2 ⟨rfl, hall, hstops'⟩
    exact congrArg Except.ok (Prod.ext (hrun'.trans hrun.symm) hbehind)

end Local

/-! ## Strings and words -/

theorem local_quotedBytes (input : List UInt8) : Local quotedBytes input := by
  induction hlen : input.length using Nat.strongRecOn generalizing input with
  | ind n ih =>
    cases input with
    | nil => exact .short List.nil_suffix Nat.zero_lt_two
    | cons byte rest =>
      rw [List.length_cons] at hlen
      by_cases hquote : byte = 0x22
      · subst hquote
        refine .cons (fun rest => ?_) (.pure [] rest)
        rw [quotedBytes.eq_def]
        exact if_pos rfl
      by_cases hslash : byte = 0x5C
      · subst hslash
        cases rest with
        | nil => exact .short List.nil_suffix Nat.one_lt_two
        | cons escaped behind =>
          rw [List.length_cons] at hlen
          refine .cons (fun _ => rfl)
            (show Local (fun rest => quotedBytes (0x5C :: rest)) (escaped :: behind) from ?_)
          by_cases hescape : escaped = 0x22 ∨ escaped = 0x5C
          · exact .cons (quotedBytes_escaped hescape) ((ih _ (by omega) behind rfl).map _)
          · exact .cons (quotedBytes_refused hescape) (.refuse _ behind)
      · exact .cons (quotedBytes_plain hquote hslash) ((ih _ (by omega) rest rfl).map _)

/-- The text that the bytes of a quoted string spell. -/
def quotedText (held rest : List UInt8) : Step String :=
  match Text.ofBytes? held with
  | none => fail .quotedNotUtf8 rest
  | some text => .ok (text, rest)

theorem quoted_eq : quoted = andThen quotedBytes quotedText := by
  funext input
  unfold quoted andThen
  cases quotedBytes input <;> rfl

theorem local_quoted (input : List UInt8) : Local quoted input := by
  rw [quoted_eq]
  refine (local_quotedBytes input).andThen fun held rest _ => ?_
  unfold quotedText
  cases Text.ofBytes? held with
  | none => exact .refuse _ rest
  | some text => exact .pure text rest

/-- A plus sign, which may be missing. -/
def plusSign (input : List UInt8) : Step Bool :=
  if input.head? = some 0x2B then .ok (true, input.tail) else .ok (false, input)

/-- A literal behind the digits of its size and the plus sign. -/
def literalBehind (digits : List UInt8) (plus : Bool) (stop : List UInt8) : Step String :=
  if stop ≠ [] ∧ stop.head? ≠ some 0x7D then fail .literalSizeByte stop
  else
    match literalSize digits with
    | .error fault => fail fault stop
    | .ok size =>
      match stop with
      | [] => fail .literalSizeUnclosed []
      | _ :: line => andThen (literalLine plus) (fun () => literalText size) line

theorem literal_eq :
    literal = andThen (span isDigit) fun digits => andThen plusSign (literalBehind digits) := by
  have hhead : ∀ input, literal input = literalBehind (literalHead input).1
      (literalHead input).2.1 (literalHead input).2.2 := by
    intro input
    unfold literal literalBehind andThen
    generalize literalHead input = head
    obtain ⟨digits, plus, stop⟩ := head
    simp only
    cases literalSize digits with
    | error fault => rfl
    | ok size =>
      cases stop with
      | nil => rfl
      | cons byte line =>
        simp only
        cases literalLine plus line <;> rfl
  funext input
  rw [hhead]
  unfold literalHead andThen span plusSign
  simp only
  split <;> rfl

theorem local_plusSign (input : List UInt8) : Local plusSign input := by
  cases input with
  | nil => exact .short List.nil_suffix Nat.zero_lt_two
  | cons byte rest =>
    by_cases hplus : byte = 0x2B
    · subst hplus
      exact .cons (fun rest => if_pos rfl) (.pure true rest)
    · refine .congr (fun rest => ?_) (.pure false _)
      exact if_neg (by simpa using hplus)

/-- Without the end of a line the step stays where it is. -/
theorem literalLine_of_not_isPrefix {plus : Bool} (h : ¬ [0x0D, 0x0A] <+: input) :
    literalLine plus input =
      onto input (if plus then .ok ((), []) else fail .literalLineEnd []) := by
  unfold literalLine
  rw [if_neg (mt List.isPrefixOf_iff_prefix.1 h)]
  cases plus <;> rfl

/-- The end of a line is told by two bytes. -/
theorem local_literalLine (plus : Bool) (input : List UInt8) : Local (literalLine plus) input where
  isSuffix := left_literalLine_isSuffix plus input
  same {front seen tail} hinput hseen hleft _ other := by
    by_cases hline : [0x0D, 0x0A] <+: input
    · -- Both bytes stand in front of the place where the step stops.
      obtain ⟨body, rfl⟩ := hline
      have hbody : body = seen ++ tail := hleft
      obtain rfl : [0x0D, 0x0A] = front :=
        List.append_cancel_right (hinput.trans (congrArg (front ++ ·) hbody.symm))
      rfl
    · -- The step stays, and what it compares are the first two bytes of `seen`.
      rw [literalLine_of_not_isPrefix hline, left_onto] at hleft
      obtain rfl : front = [] := List.append_left_eq_self.1 (hinput.symm.trans hleft)
      subst hleft
      have hother : ¬ [0x0D, 0x0A] <+: seen ++ other := fun h =>
        hline ((List.prefix_of_prefix_length_le h (List.prefix_append seen other) hseen).trans
          (List.prefix_append seen tail))
      rw [literalLine_of_not_isPrefix hline, onto_onto]
      exact literalLine_of_not_isPrefix hother

/-- One byte is not enough: what stands behind a carriage return tells whether the line ends. -/
example : literalLine false [0x0D, 0x58] = fail .literalLineEnd [0x0D, 0x58] ∧
    literalLine false [0x0D, 0x0A] = .ok ((), []) := ⟨rfl, rfl⟩

/-- A literal is as long as its size says, whatever follows it. -/
theorem local_literalText (size : Nat) (input : List UInt8) : Local (literalText size) input where
  isSuffix := left_literalText_isSuffix size input
  same {front seen tail} hinput hseen hleft hcomplete other := by
    unfold literalText at hleft hcomplete ⊢
    by_cases hsize : input.length < size
    · rw [if_pos hsize] at hcomplete
      exact absurd ⟨input, rfl⟩ hcomplete
    rw [if_neg hsize] at hleft ⊢
    have hdrop : input.drop size = seen ++ tail := by
      split at hleft <;> exact hleft
    have htake : input.take size = front := by
      have hparts := List.take_append_drop size input
      rw [hdrop] at hparts
      exact List.append_cancel_right (hparts.trans hinput)
    have hlength : front.length = size := by
      rw [← htake, List.length_take, Nat.min_eq_left (Nat.le_of_not_lt hsize)]
    have hsize' : ¬ (front ++ (seen ++ other)).length < size := by
      rw [List.length_append]
      omega
    rw [if_neg hsize', htake, ← hlength, List.take_left, List.drop_left]
    split <;> rfl

theorem local_literalBehind (digits : List UInt8) (plus : Bool) (stop : List UInt8) :
    Local (literalBehind digits plus) stop := by
  cases stop with
  | nil =>
    refine .short ?_ Nat.zero_lt_two
    unfold literalBehind
    cases literalSize digits <;> exact List.nil_suffix
  | cons byte line =>
    by_cases hbrace : byte = 0x7D
    · subst hbrace
      cases hsize : literalSize digits with
      | error fault =>
        exact .congr (fun rest => by simp [literalBehind, hsize]) (.refuse fault _)
      | ok size =>
        refine .cons (fun line => by simp [literalBehind, hsize])
          ((local_literalLine plus line).andThen fun _ body _ => local_literalText size body)
    · exact .congr (fun rest => if_pos (by simpa using hbrace)) (.refuse .literalSizeByte _)

theorem local_literal (input : List UInt8) : Local literal input := by
  rw [literal_eq]
  exact (Local.span isDigit input).andThen fun digits rest _ =>
    (local_plusSign rest).andThen fun plus stop _ => local_literalBehind digits plus stop

theorem local_word (byte : UInt8) (rest : List UInt8) :
    Local (andThen (span isAtomByte) fun run => word (byte :: run)) rest := by
  refine (Local.span isAtomByte rest).andThen fun run behind _ => ?_
  unfold word
  cases wordField (byte :: run) with
  | error fault => exact .refuse fault behind
  | ok field => exact .pure field behind

/-! ## Lists -/

/-- The elements of a list without white space in front of the first. -/
def elements (one : (input : List UInt8) → Except Failure (Reading Field input))
    (input : List UInt8) : Step (List Field) :=
  match input with
  | [] => fail .endInList []
  | byte :: rest =>
    if byte = 0x29 then .ok ([], rest)
    else andThen (fun input => toStep (one input)) (fun first left =>
      (toStep (items one left)).map fun (more, left) => (first :: more, left)) (byte :: rest)

theorem toStep_items_eq : (fun input => toStep (items one input)) =
    andThen (span isSpace) fun _ => elements one := by
  funext input
  rw [toStep_items]
  unfold andThen span elements
  simp only
  unfold skipSpace
  cases input.dropWhile isSpace with
  | nil => rfl
  | cons byte rest =>
    unfold andThen
    simp only
    cases toStep (one (byte :: rest)) with
    | error failure => rfl
    | ok found =>
      simp only
      cases toStep (items one found.2) <;> rfl

/-- The elements of a list are local, if each value is. -/
theorem local_items (h : ∀ input, Local (fun input => toStep (one input)) input)
    (input : List UInt8) : Local (fun input => toStep (items one input)) input := by
  induction hlen : input.length using Nat.strongRecOn generalizing input with
  | ind n ih =>
    rw [toStep_items_eq]
    refine (Local.span isSpace input).andThen fun space rest hspace => ?_
    cases rest with
    | nil => exact .short List.nil_suffix Nat.zero_lt_two
    | cons byte rest =>
      have hskip : skipSpace input = byte :: rest := congrArg Prod.snd (Except.ok.inj hspace)
      by_cases hclose : byte = 0x29
      · subst hclose
        refine .cons (fun rest => ?_) (.pure [] rest)
        unfold elements
        exact if_pos rfl
      · refine .congr (fun rest => if_neg hclose) ?_
        refine (h (byte :: rest)).andThen fun first left hread => ?_
        have hshorter : left.length < n := hlen ▸ length_lt_of_first hskip hread
        exact (ih left.length hshorter left rfl).map _

/-- A value that is no list is local. -/
theorem local_value_of_ne (hopen : byte ≠ 0x28) (limit levels : Nat) (rest : List UInt8) :
    Local (fun input => toStep (value limit levels input)) (byte :: rest) := by
  by_cases hclose : byte = 0x29
  · subst hclose
    refine .congr (fun rest => ?_) (.refuse .closingParenthesis _)
    unfold value
    rfl
  by_cases hquote : byte = 0x22
  · subst hquote
    exact .cons (toStep_value_quoted limit levels) ((local_quoted rest).map _)
  by_cases hbrace : byte = 0x7B
  · subst hbrace
    exact .cons (toStep_value_literal limit levels) ((local_literal rest).map _)
  by_cases hatom : isAtomByte byte = true
  · exact .cons (toStep_value_word limit levels hatom) (local_word byte rest)
  · refine .congr (fun rest => ?_) (.refuse (.unexpectedByte byte) _)
    unfold value
    simp only [if_neg hopen, if_neg hclose, if_neg hquote, if_neg hbrace, if_neg hatom]
    rfl

theorem local_value (limit levels : Nat) (input : List UInt8) :
    Local (fun input => toStep (value limit levels input)) input := by
  induction levels generalizing input with
  | zero =>
    cases input with
    | nil => exact .short List.nil_suffix Nat.zero_lt_two
    | cons byte rest =>
      by_cases hopen : byte = 0x28
      · subst hopen
        exact .congr (fun rest => rfl) (.here (.error ⟨.tooDeep limit, []⟩) _)
      · exact local_value_of_ne hopen limit 0 rest
  | succ below ih =>
    cases input with
    | nil => exact .short List.nil_suffix Nat.zero_lt_two
    | cons byte rest =>
      by_cases hopen : byte = 0x28
      · subst hopen
        exact .cons (toStep_value_list limit below) ((local_items ih rest).map _)
      · exact local_value_of_ne hopen limit (below + 1) rest

/-! ## Whole texts -/

/-- A field with nothing behind it. -/
def ending (field : Field) (input : List UInt8) : Step Field :=
  match input with
  | [] => .ok (field, [])
  | byte :: rest => fail .trailingData (byte :: rest)

/-- A whole text, as a step that leaves nothing. -/
def wholeStep (limit : Nat) (input : List UInt8) : Step Field :=
  (whole limit input).map fun field => (field, [])

theorem wholeStep_eq (limit : Nat) :
    wholeStep limit =
      andThen (span isSpace) fun _ => andThen (fun input => toStep (value limit limit input))
        fun field => andThen (span isSpace) fun _ => ending field := by
  funext input
  unfold wholeStep
  rw [whole_eq]
  unfold andThen span skipSpace
  simp only
  cases toStep (value limit limit (input.dropWhile isSpace)) with
  | error failure => rfl
  | ok found =>
    simp only
    unfold ending
    cases found.2.dropWhile isSpace <;> rfl

theorem local_wholeStep (limit : Nat) (input : List UInt8) : Local (wholeStep limit) input := by
  rw [wholeStep_eq]
  refine (Local.span isSpace input).andThen fun _ rest _ => ?_
  refine (local_value limit limit rest).andThen fun field behind _ => ?_
  refine (Local.span isSpace behind).andThen fun _ stop _ => ?_
  cases stop with
  | nil => exact .short List.nil_suffix Nat.zero_lt_two
  | cons byte rest =>
    refine .congr (fun rest => ?_) (.refuse .trailingData _)
    rfl

theorem wholeStep_eq_error_iff {failure : Failure} :
    wholeStep limit input = .error failure ↔ whole limit input = .error failure := by
  unfold wholeStep
  cases whole limit input <;> simp [Except.map]

/-- **A text that is refused** is refused for the same reason, and in the same place, with other
bytes behind the next two. -/
theorem whole_append_seen {front seen tail : List UInt8} {cause : Cause}
    (h : whole limit (front ++ (seen ++ tail)) = .error ⟨cause, seen ++ tail⟩)
    (hseen : 2 ≤ seen.length) (hcomplete : cause ≠ .fault .literalIncomplete)
    (other : List UInt8) :
    whole limit (front ++ (seen ++ other)) = .error ⟨cause, seen ++ other⟩ := by
  rw [← wholeStep_eq_error_iff] at h ⊢
  have hlocal := local_wholeStep limit (front ++ (seen ++ tail))
  have hnot : ¬ Incomplete (wholeStep limit (front ++ (seen ++ tail))) := by
    rw [h]
    rintro ⟨rest, hrest⟩
    cases hrest
    exact hcomplete rfl
  have hsame := hlocal.same rfl hseen (congrArg left h) hnot other
  rw [h] at hsame
  exact hsame

end MailOutline.Field

namespace MailOutline.Reader

open MailOutline.Field (Cause)

variable {limit : Nat} {input other rest : List UInt8} {error : ReadError} {cause : Cause}

/-! ## Two texts with the same beginning -/

/-- A fresh reader stops where the text is refused. -/
theorem read_of_whole {front : List UInt8}
    (h : Field.whole limit (front ++ rest) = .error ⟨cause, rest⟩) :
    (ofBytes limit (front ++ rest)).read =
      (.error (errorAt front.length cause), ⟨front.length, rest, limit⟩) := by
  have hmove : (ofBytes limit (front ++ rest)).moveTo rest = ⟨front.length, rest, limit⟩ := by
    simp [ofBytes, moveTo]
  exact read_eq_error_iff.2 ⟨_, h, hmove.symm, rfl⟩

theorem exists_whole_of_read {later : Reader}
    (h : (ofBytes limit input).read = (.error error, later)) :
    ∃ front cause, input = front ++ later.rest ∧ front.length = later.position ∧
      Field.whole limit input = .error ⟨cause, later.rest⟩ ∧
      error = errorAt front.length cause := by
  obtain ⟨⟨cause, rest⟩, hwhole, rfl, rfl⟩ := read_eq_error_iff.1 h
  obtain ⟨front, hfront⟩ := Field.rest_isSuffix_of_whole hwhole
  obtain rfl : front ++ rest = input := hfront
  have hlength : ((ofBytes limit (front ++ rest)).moveTo rest).position = front.length := by
    simp [ofBytes, moveTo]
  exact ⟨front, cause, rfl, hlength.symm, hwhole, by rw [hlength]⟩

/-- **What is wrong with a text is told by the bytes in front of the reader and two more.** A fresh
reader fails on a text, at least two bytes in front of its end, and not since a literal is too
short. Then it fails in the same way on every text that begins with the same bytes up to those two,
and stops in the same place. -/
theorem read_of_take_eq {later : Reader}
    (hread : (ofBytes limit input).read = (.error error, later))
    (hlength : later.position + 2 ≤ input.length)
    (hcomplete : ∀ position, error ≠ .malformed position .literalIncomplete)
    (htake : other.take (later.position + 2) = input.take (later.position + 2)) :
    Fault.literalIncomplete.message = "Incomplete literal data" ∧
      ∃ after, (ofBytes limit other).read = (.error error, after) ∧
        after.position = later.position := by
  refine ⟨rfl, ?_⟩
  obtain ⟨front, cause, hinput, hfront, hwhole, rfl⟩ := exists_whole_of_read hread
  have hseen : 2 ≤ (later.rest.take 2).length := by
    rw [hinput, List.length_append] at hlength
    rw [List.length_take]
    omega
  have hcause : cause ≠ .fault .literalIncomplete := by
    rintro rfl
    exact hcomplete _ rfl
  have hother : other = front ++ (later.rest.take 2 ++ other.drop (later.position + 2)) := by
    rw [← List.append_assoc, ← List.take_length_add_append, ← hinput, hfront, ← htake,
      List.take_append_drop]
  rw [hinput, ← List.take_append_drop 2 later.rest] at hwhole
  have hsame := Field.whole_append_seen hwhole hseen hcause (other.drop (later.position + 2))
  have hagain := read_of_whole hsame
  rw [← hother] at hagain
  exact ⟨_, hagain, hfront⟩

/-- A literal whose line does not end behind its size. -/
def unendedLine : List UInt8 := [0x7B, 0x31, 0x7D, 0x0D, 0x58]

/-- Whatever follows the two bytes where the end of the line should be, the literal is refused in
front of them. -/
theorem read_of_take_eq_unended :
    unendedLine.length = 5 ∧
      (ofBytes 0 unendedLine).read =
        (.error (.malformed 3 .literalLineEnd), ⟨3, [0x0D, 0x58], 0⟩) ∧
      ∃ after, (ofBytes 0 (unendedLine ++ [0x0A, 0x58])).read =
        (.error (.malformed 3 .literalLineEnd), after) ∧ after.position = 3 := by
  have hsize : Field.literalSize [0x31] = .ok 1 :=
    (Field.literalSize_eq_ok_iff rfl).2 ⟨by decide, rfl, by decide, rfl⟩
  have hhead : Field.literalHead [0x31, 0x7D, 0x0D, 0x58] =
      ([0x31], false, [0x7D, 0x0D, 0x58]) := rfl
  have hliteral : Field.literal [0x31, 0x7D, 0x0D, 0x58] =
      Field.fail .literalLineEnd [0x0D, 0x58] := by
    unfold Field.literal
    rw [hhead]
    simp only [hsize]
    rfl
  have hwhole : Field.whole 0 unendedLine = Field.fail .literalLineEnd [0x0D, 0x58] := by
    have hskip : Field.skipSpace unendedLine = unendedLine := rfl
    rw [Field.whole_eq, hskip, unendedLine, Field.toStep_value_literal, hliteral]
    rfl
  have hread : (ofBytes 0 unendedLine).read =
      (.error (.malformed 3 .literalLineEnd), ⟨3, [0x0D, 0x58], 0⟩) := by
    rw [Field.read_ofBytes, hwhole]
    rfl
  have htake : (unendedLine ++ [0x0A, 0x58]).take (3 + 2) = unendedLine.take (3 + 2) := rfl
  exact ⟨rfl, hread, (read_of_take_eq hread (by decide) (fun _ h => nomatch h) htake).2⟩

end MailOutline.Reader
