import MailOutline.Proofs.Grammar.Reading

/-!
# A text that was cut is not read as a list

A text that denotes a list, cut anywhere in front of its closing parenthesis, is malformed. Most
steps meet the end of the text and fail. Only a literal whose size has a plus sign behind it may
still be read, where the end of its line was cut away or in two: then nothing or half an end of line
is left, which is white space, and the list around it is not closed.

* `Exhausted`: a step that failed, or that left nothing but white space.
* `Denotes.of_isPrefix`: a piece denotes the same in front of less text.
* `quoted_of_isPrefix`, `exhausted_literal`: strings that were cut.
* `exhausted_value`, `fault_of_items`: values and the elements of lists that were cut. By recursion
  over the derivation.
* `ofBytes_of_isPrefix`: all of a text.
-/

namespace MailOutline.Field

open Reading (toStep)
open Text (bytes)

variable {α : Type} {input rest written behind : List UInt8} {field : Field} {fields : List Field}

/-! ## Beginnings -/

/-- A beginning of two texts, one after the other, ends inside the first or behind it. -/
theorem isPrefix_append_cases {front first second : List UInt8} (h : front <+: first ++ second) :
    (∃ lost, first = front ++ lost ∧ lost ≠ []) ∨
      ∃ more, front = first ++ more ∧ more <+: second := by
  obtain ⟨left, hleft⟩ := h
  rcases List.append_eq_append_iff.1 hleft with ⟨lost, rfl, rfl⟩ | ⟨more, rfl, hsecond⟩
  · by_cases hlost : lost = []
    · subst hlost
      exact .inr ⟨[], by simp, List.nil_prefix⟩
    · exact .inl ⟨lost, rfl, hlost⟩
  · exact .inr ⟨more, rfl, ⟨left, hsecond.symm⟩⟩

/-- A beginning that lacks something of a text lacks its last byte. -/
theorem isPrefix_of_concat {body lost : List UInt8} {last : UInt8}
    (h : body ++ [last] = input ++ lost) (hlost : lost ≠ []) : input <+: body := by
  rcases List.prefix_concat_iff.1 (⟨lost, h.symm⟩ : input <+: body ++ [last]) with heq | hbody
  · rw [heq, List.self_eq_append_right] at h
    exact absurd h hlost
  · exact hbody

theorem all_of_isPrefix {p : UInt8 → Bool} (hall : behind.all p = true) (h : rest <+: behind) :
    rest.all p = true := by
  obtain ⟨left, rfl⟩ := h
  rw [List.all_append, Bool.and_eq_true] at hall
  exact hall.1

theorem stops_of_isPrefix {p : UInt8 → Bool} (hstop : stops p behind = true)
    (h : rest <+: behind) : stops p rest = true := by
  cases rest with
  | nil => rfl
  | cons byte more =>
    obtain ⟨left, rfl⟩ := h
    exact hstop

theorem Literal.of_isPrefix {text : String} (h : Literal written behind text)
    (hrest : rest <+: behind) : Literal written rest text := by
  cases h with
  | line size => exact .line size
  | plusLine size => exact .plusLine size
  | plus size no_line =>
    refine .plus size fun hline => no_line (hline.trans ?_)
    exact (List.prefix_append_right_inj _).2 hrest

section Denotes

variable {word : List UInt8 → Field → Prop}

mutual

/-- **In front of less text** a piece denotes the same. -/
theorem Denotes.of_isPrefix {written behind rest : List UInt8} {field : Field}
    (hrest : rest <+: behind) :
    Denotes word written behind field → Denotes word written rest field
  | .list elements => .list (elements.of_isPrefix (List.cons_prefix_cons.2 ⟨rfl, hrest⟩))
  | .quoted h => .quoted h
  | .literal h => .literal (h.of_isPrefix hrest)
  | .word ne_nil atoms maximal h => .word ne_nil atoms (stops_of_isPrefix maximal hrest) h

theorem DenoteAll.of_isPrefix {body behind rest : List UInt8} {fields : List Field}
    (hrest : rest <+: behind) :
    DenoteAll word body behind fields → DenoteAll word body rest fields
  | .nil blank => .nil blank
  | .cons blank first more =>
    .cons blank (first.of_isPrefix ((List.prefix_append_right_inj _).2 hrest))
      (more.of_isPrefix hrest)

end

end Denotes

/-! ## Steps that exhaust the text -/

/-- A step that failed with a fault, or that left nothing but white space. -/
inductive Exhausted : Step α → Prop
  /-- The step failed. -/
  | fault {fault : Fault} {rest : List UInt8} : Exhausted (fail fault rest)
  /-- The step left white space or nothing. -/
  | value {a : α} {rest : List UInt8} (blank : rest.all isSpace = true) :
      Exhausted (.ok (a, rest))

theorem Exhausted.map {β : Type} {step : Step α} (h : Exhausted step) (f : α → β) :
    Exhausted (step.map fun (a, left) => (f a, left)) := by
  cases h with
  | fault => exact .fault
  | value blank => exact .value blank

/-! ## Strings -/

/-- A quoted string that is not closed. -/
theorem quotedBytes_of_isPrefix {held : List UInt8} (h : Escaped written held)
    (hinput : input <+: written) : quotedBytes input = fail .endInQuoted [] := by
  induction h generalizing input with
  | nil =>
    obtain rfl := List.prefix_nil.1 hinput
    rfl
  | plain not_quote not_backslash _ ih =>
    cases input with
    | nil => rfl
    | cons byte more =>
      obtain ⟨rfl, hmore⟩ := List.cons_prefix_cons.1 hinput
      rw [quotedBytes.eq_def]
      simp only [if_neg not_quote, if_neg not_backslash, ih hmore]
      rfl
  | escape special _ ih =>
    have hquote : ¬ (0x5C : UInt8) = 0x22 := by decide
    cases input with
    | nil => rfl
    | cons byte more =>
      obtain ⟨rfl, hmore⟩ := List.cons_prefix_cons.1 hinput
      cases more with
      | nil => rfl
      | cons escaped more =>
        obtain ⟨rfl, hrest⟩ := List.cons_prefix_cons.1 hmore
        rw [quotedBytes.eq_def]
        simp only [if_neg hquote, if_true, if_pos special, ih hrest]
        rfl

theorem quoted_of_isPrefix {held : List UInt8} (h : Escaped written held)
    (hinput : input <+: written) : quoted input = fail .endInQuoted [] := by
  rw [quoted, quotedBytes_of_isPrefix h hinput]
  rfl

/-- More text behind the head of a size that is closed does not change the head. -/
theorem literalHead_append {digits line : List UInt8} {plus : Bool} (more : List UInt8)
    (h : literalHead input = (digits, plus, 0x7D :: line)) :
    literalHead (input ++ more) = (digits, plus, 0x7D :: (line ++ more)) := by
  obtain ⟨hall, rfl⟩ := eq_of_literalHead h
  cases plus with
  | false =>
    rw [if_neg Bool.false_ne_true, List.append_assoc, List.cons_append]
    exact literalHead_brace hall
  | true =>
    rw [if_pos rfl, List.append_assoc, List.cons_append, List.cons_append]
    exact literalHead_plus hall

/-- **A literal that was cut** fails, or it leaves a part of the end of its line: the size has a
plus sign behind it, and the end of the line counted in the whole text only. -/
theorem exhausted_literal {lost : List UInt8} {text : String}
    (h : literal (input ++ lost ++ behind) = .ok (text, behind)) (hlost : lost ≠ []) :
    Exhausted (literal input) := by
  cases hread : literal input with
  | error failure =>
    obtain ⟨fault, left, rfl, -⟩ := exists_fault_of_literal hread
    exact .fault
  | ok found =>
    obtain ⟨short, left⟩ := found
    obtain ⟨digits, plus, line, body, hhead, hsize, hline, rfl⟩ := literal_eq_ok_iff_pieces.1 hread
    obtain ⟨digits', plus', line', body', hhead', hsize', hline', rfl⟩ :=
      literal_eq_ok_iff_pieces.1 h
    rw [List.append_assoc, literalHead_append _ hhead] at hhead'
    cases hhead'
    have hsame : (bytes text).length = (bytes short).length := hsize'.eq.symm.trans hsize.eq
    -- With the same end of line, the text of the literal is longer than what is left of it.
    have htext : bytes short ++ left ++ (lost ++ behind) ≠ bytes text ++ behind := by
      intro heq
      have hlength := congrArg List.length heq
      have hpos : 0 < lost.length := List.length_pos_iff.2 hlost
      simp only [List.length_append] at hlength
      omega
    refine .value ?_
    rcases literalLine_eq_ok_iff.1 hline with rfl | ⟨-, rfl, hno⟩
    · rcases literalLine_eq_ok_iff.1 hline' with heq | ⟨-, heq, hno⟩
      · exact absurd (List.cons.inj (List.cons.inj heq).2).2 htext
      · exact absurd (heq ▸ List.prefix_append [0x0D, 0x0A] _) hno
    · rcases literalLine_eq_ok_iff.1 hline' with heq | ⟨-, heq, -⟩
      · have hline : bytes short ++ left <+: [0x0D, 0x0A] ++ (bytes text ++ behind) :=
          ⟨lost ++ behind, heq⟩
        have hspace := all_of_isPrefix (by decide : [0x0D, 0x0A].all isSpace = true)
          ((List.prefix_or_prefix_of_prefix hline (List.prefix_append _ _)).resolve_right hno)
        rw [List.all_append, Bool.and_eq_true] at hspace
        exact hspace.2
      · exact absurd heq htext

/-! ## Words -/

/-- A word that was cut is a word, or too large a number. -/
theorem exhausted_word (limit levels : Nat) {run : List UInt8} (hne : run ≠ [])
    (hatoms : run.all isAtomByte = true) : Exhausted (toStep (value limit levels run)) := by
  obtain ⟨byte, more, rfl⟩ := List.exists_cons_of_ne_nil hne
  obtain ⟨hbyte, hmore⟩ := Bool.and_eq_true_iff.1 ((List.all_cons).symm.trans hatoms)
  have hend : more.dropWhile isAtomByte = [] :=
    (takeWhile_dropWhile_iff.2 ⟨(List.append_nil more).symm, hmore, rfl⟩).2
  rw [toStep_value_word limit levels hbyte, hend, word]
  split
  · exact .fault
  · exact .value rfl

/-! ## Values -/

theorem exhausted_nil (limit levels : Nat) : Exhausted (toStep (value limit levels [])) := by
  rw [toStep_value_nil]
  exact .fault

/-- White space alone does not close a list. -/
theorem toStep_items_of_space (one : (input : List UInt8) → Except Failure (Reading Field input))
    (hinput : input.all isSpace = true) :
    toStep (items one input) = fail .endInList [] := by
  rw [toStep_items, skipSpace_eq_nil_iff.2 hinput]

/-- Behind a first value that exhausts the text, a list is not closed. -/
theorem exists_fault_of_exhausted
    {one : (input : List UInt8) → Except Failure (Reading Field input)} {space : List UInt8}
    {byte : UInt8} (blank : space.all isSpace = true) (hbyte : isSpace byte = false)
    (hclose : byte ≠ 0x29) (h : Exhausted (toStep (one (byte :: input)))) :
    ∃ fault left, toStep (items one (space ++ byte :: input)) = fail fault left := by
  rw [toStep_items_cons one blank hbyte hclose]
  generalize toStep (one (byte :: input)) = step at h
  cases h with
  | fault => exact ⟨_, _, rfl⟩
  | value hleft =>
    simp only [toStep_items_of_space one hleft]
    exact ⟨_, _, rfl⟩

mutual

/-- **A value that was cut** exhausts the text. -/
theorem exhausted_value (limit levels : Nat) {input lost written behind : List UInt8}
    {field : Field} (hdepth : field.depth ≤ levels) (hlost : lost ≠ [])
    (hinput : written = input ++ lost) :
    Denotes Word written behind field → Exhausted (toStep (value limit levels input))
  | @Denotes.list _ body _ fields elements => by
    rw [depth] at hdepth
    cases input with
    | nil => exact exhausted_nil limit levels
    | cons byte inner =>
      obtain ⟨rfl, hinner⟩ := List.cons.inj hinput
      have hbody : inner <+: body := isPrefix_of_concat hinner hlost
      obtain ⟨below, rfl⟩ := Nat.exists_eq_add_of_le hdepth
      obtain ⟨fault, left, hitems⟩ := fault_of_items limit (depthAll fields + below)
        (Nat.le_add_right _ _) hbody elements
      rw [Nat.add_comm 1, Nat.add_right_comm, toStep_value_list, hitems]
      exact .fault
  | @Denotes.quoted _ inner _ _ h => by
    cases input with
    | nil => exact exhausted_nil limit levels
    | cons byte cut =>
      obtain ⟨rfl, hinner⟩ := List.cons.inj hinput
      rw [toStep_value_quoted, quoted_of_isPrefix h (isPrefix_of_concat hinner hlost)]
      exact .fault
  | @Denotes.literal _ inner _ _ h => by
    cases input with
    | nil => exact exhausted_nil limit levels
    | cons byte cut =>
      obtain ⟨rfl, rfl⟩ := List.cons.inj hinput
      rw [toStep_value_literal]
      exact (exhausted_literal (literal_eq_ok_iff.2 ⟨_, rfl, h⟩) hlost).map Field.atom
  | .word ne_nil atoms maximal h => by
    by_cases hne : input = []
    · rw [hne]
      exact exhausted_nil limit levels
    · exact exhausted_word limit levels hne (all_of_isPrefix atoms ⟨lost, hinput.symm⟩)

/-- **The elements of a list that was cut** fail. -/
theorem fault_of_items (limit levels : Nat) {input body behind : List UInt8}
    {fields : List Field} (hdepth : depthAll fields ≤ levels) (hinput : input <+: body) :
    DenoteAll Word body behind fields →
      ∃ fault left, toStep (items (value limit levels) input) = fail fault left
  | .nil blank => ⟨_, _, toStep_items_of_space _ (all_of_isPrefix blank hinput)⟩
  | @DenoteAll.cons _ space written more _ field _ blank first others => by
    rw [depthAll] at hdepth
    have hfirst : field.depth ≤ levels := Nat.le_trans (Nat.le_max_left _ _) hdepth
    obtain ⟨byte, tail, hwritten, hspace, hclose⟩ := first.exists_cons
    rw [List.append_assoc] at hinput
    rcases isPrefix_append_cases hinput with ⟨lost, rfl, -⟩ | ⟨inner, rfl, hinner⟩
    · exact ⟨_, _, toStep_items_of_space _ (all_of_isPrefix blank (List.prefix_append _ _))⟩
    rcases isPrefix_append_cases hinner with ⟨lost, hcut, hlost⟩ | ⟨cut, rfl, hcut⟩
    · cases inner with
      | nil =>
        rw [List.append_nil]
        exact ⟨_, _, toStep_items_of_space _ blank⟩
      | cons start inner =>
        have hstart : start = byte := (List.cons.inj (hcut.symm.trans hwritten)).1
        subst hstart
        exact exists_fault_of_exhausted blank hspace hclose
          (exhausted_value limit levels hfirst hlost hcut first)
    · obtain ⟨fault, left, hmore⟩ := fault_of_items limit levels
        (Nat.le_trans (Nat.le_max_right _ _) hdepth) hcut others
      have hread := toStep_value_of_denotes limit levels hfirst
        (first.of_isPrefix (hcut.trans (List.prefix_append more behind)))
      subst hwritten
      rw [List.cons_append] at hread ⊢
      rw [toStep_items_cons _ blank hspace hclose, hread]
      simp only [hmore]
      exact ⟨fault, left, rfl⟩

end

/-! ## Whole texts -/

/-- A list that was cut in front of its closing parenthesis, with white space in front of it. -/
theorem exists_fault_of_whole {limit : Nat} {before body : List UInt8}
    (hdepth : (Field.list fields).depth ≤ limit) (blank : before.all isSpace = true)
    (elements : DenoteAll Word body behind fields) (hinput : input <+: before ++ 0x28 :: body) :
    ∃ fault left, whole limit input = fail fault left := by
  rcases isPrefix_append_cases hinput with ⟨lost, rfl, -⟩ | ⟨more, rfl, hmore⟩
  · exact ⟨_, _, whole_of_space (all_of_isPrefix blank (List.prefix_append _ _))⟩
  cases more with
  | nil =>
    rw [List.append_nil]
    exact ⟨_, _, whole_of_space blank⟩
  | cons byte inner =>
    obtain ⟨rfl, hinner⟩ := List.cons_prefix_cons.1 hmore
    rw [depth] at hdepth
    obtain ⟨below, rfl⟩ := Nat.exists_eq_add_of_le hdepth
    obtain ⟨fault, left, hitems⟩ := fault_of_items (1 + depthAll fields + below)
      (depthAll fields + below) (Nat.le_add_right _ _) hinner elements
    have hlevels : 1 + depthAll fields + below = depthAll fields + below + 1 := by omega
    rw [hlevels] at hitems ⊢
    rw [whole_eq, skipSpace_append blank rfl, toStep_value_list, hitems]
    exact ⟨fault, left, rfl⟩

theorem exists_malformed_of_whole {maxDepth : Nat} {fault : Fault} {left : List UInt8}
    (h : whole maxDepth input = fail fault left) :
    ∃ position, ofBytes maxDepth input = .error (.malformed position fault) := by
  rw [ofBytes, read_ofBytes, h]
  exact ⟨_, rfl⟩

/-- The last parenthesis of a text, if nothing but white space is behind it. -/
theorem eq_of_closed {front other after later : List UInt8}
    (h : front ++ 0x29 :: after = other ++ 0x29 :: later) (hafter : after.all isSpace = true)
    (hlater : later.all isSpace = true) : front = other := by
  have hclose {more space : List UInt8} (hall : (more ++ 0x29 :: space).all isSpace = true) :
      False := by
    rw [List.all_append, List.all_cons, Bool.and_eq_true, Bool.and_eq_true] at hall
    exact absurd hall.2.1 (by decide)
  rcases List.append_eq_append_iff.1 h with ⟨more, rfl, hmore⟩ | ⟨more, rfl, hmore⟩
  · cases more with
    | nil => exact (List.append_nil front).symm
    | cons byte more => exact (hclose ((List.cons.inj hmore).2 ▸ hafter)).elim
  · cases more with
    | nil => exact List.append_nil other
    | cons byte more => exact (hclose ((List.cons.inj hmore).2 ▸ hlater)).elim

/-- **A list that was cut is malformed.** A text that is read as a list has a closing parenthesis
with nothing but white space behind it, and every beginning of the text in front of that parenthesis
is refused with a fault: it is not read as a field, and it does not nest too deep. -/
theorem ofBytes_of_isPrefix {maxDepth : Nat} {input : List UInt8} {fields : List Field}
    (h : ofBytes maxDepth input = .ok (.list fields)) :
    (∃ front after, input = front ++ 0x29 :: after ∧ after.all isSpace = true) ∧
    ∀ front after cut, input = front ++ 0x29 :: after → after.all isSpace = true →
      cut <+: front →
        ∃ position fault, ofBytes maxDepth cut = .error (.malformed position fault) := by
  obtain ⟨⟨before, written, after, rfl, hbefore, hafter, hdenotes⟩, hdepth⟩ :=
    whole_eq_ok_iff.1 (ofBytes_eq_ok_iff_whole.1 h)
  cases hdenotes with
  | @list body _ _ elements =>
    have hinput : before ++ 0x28 :: (body ++ [0x29]) ++ after =
        before ++ 0x28 :: body ++ 0x29 :: after := by simp
    refine ⟨⟨_, after, hinput, hafter⟩, fun front later cut heq hlater hcut => ?_⟩
    obtain rfl := eq_of_closed (hinput.symm.trans heq) hafter hlater
    obtain ⟨fault, left, hwhole⟩ := exists_fault_of_whole hdepth hbefore elements hcut
    obtain ⟨position, hread⟩ := exists_malformed_of_whole hwhole
    exact ⟨position, fault, hread⟩
  | word _ _ _ hword => cases hword

/-- The text of a list of one literal with a plus sign and an end of line. -/
def plusText : List UInt8 := [0x28, 0x7B, 0x31, 0x2B, 0x7D, 0x0D, 0x0A, 0x61, 0x29]

theorem denotes_plusText :
    Denotes Word plusText [] (.list [.atom (Text.spelled [0x61])]) := by
  have hbytes : bytes (Text.spelled [0x61]) = [0x61] := Text.bytes_spelled (by simp)
  have hsize : IsSize [0x31] (bytes (Text.spelled [0x61])).length := by
    rw [hbytes]
    exact ⟨by simp, rfl, by decide, rfl⟩
  have hliteral := @Denotes.literal Word _ [0x29] _ (.plusLine hsize)
  rw [hbytes] at hliteral
  exact .list (@DenoteAll.cons Word [] _ [] _ _ _ rfl hliteral (.nil rfl))

/-- The text is read as a list, and cut inside the end of the line it is malformed, although the
literal could be read. -/
theorem ofBytes_of_isPrefix_plus :
    ofBytes 1 plusText = .ok (.list [.atom (Text.spelled [0x61])]) ∧
      ∃ position fault, ofBytes 1 (plusText.take 6) = .error (.malformed position fault) := by
  have hwhole : Whole Word plusText (.list [.atom (Text.spelled [0x61])]) :=
    ⟨[], plusText, [], rfl, rfl, rfl, denotes_plusText⟩
  have hread : ofBytes 1 plusText = .ok (.list [.atom (Text.spelled [0x61])]) :=
    ofBytes_eq_ok_iff_whole.2 (whole_eq_ok_iff.2 ⟨hwhole, by decide⟩)
  exact ⟨hread, (ofBytes_of_isPrefix hread).2 (plusText.take 8) [] (plusText.take 6) rfl rfl
    (List.take_prefix_take_left (by decide))⟩

end MailOutline.Field
