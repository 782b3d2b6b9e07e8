import MailOutline.Field.Reader
import MailOutline.Proofs.Grammar.Piece

/-!
# The reader accepts its grammar

A text is read as a field exactly when the grammar says that it denotes this field, and when its
lists nest no deeper than the limit.

* `exists_denotes`, `exists_denoteAll`: what is read is denoted. By induction on the levels and, in
  a list, on the length of the text.
* `toStep_value_of_denotes`, `toStep_items_of_denoteAll`: what is denoted is read. By recursion over
  the derivation.
* `ofBytes_eq_ok_iff`: the reader accepts its grammar, and a text denotes one field at most.
* `not_ofBytes_eq_ok_iff_lenient`: it does not take too large a number for a text.
-/

namespace MailOutline.Field

open Reading (toStep)

variable {input rest : List UInt8} {field : Field} {fields : List Field} {limit levels : Nat}

/-! ## White space -/

theorem skipSpace_append {space : List UInt8} (blank : space.all isSpace = true)
    (hstop : stops isSpace rest = true) : skipSpace (space ++ rest) = rest :=
  (takeWhile_dropWhile_iff.2 ⟨rfl, blank, hstop⟩).2

theorem takeWhile_append_skipSpace (input : List UInt8) :
    input.takeWhile isSpace ++ skipSpace input = input :=
  List.takeWhile_append_dropWhile

theorem exists_space (input : List UInt8) :
    ∃ space, input = space ++ skipSpace input ∧ space.all isSpace = true :=
  ⟨_, (takeWhile_append_skipSpace input).symm, List.all_takeWhile⟩

theorem isSpace_of_skipSpace {byte : UInt8} (h : skipSpace input = byte :: rest) :
    isSpace byte = false := by
  have hstop : stops isSpace (byte :: rest) = true := h ▸ stops_dropWhile isSpace input
  simpa [stops] using hstop

/-! ## One value -/

theorem eq_of_map_eq_ok {α : Type} {step : Step α} {f : α → Field}
    (h : (step.map fun (a, left) => (f a, left)) = .ok (field, rest)) :
    ∃ a, step = .ok (a, rest) ∧ field = f a := by
  cases step with
  | error failure => cases h
  | ok found =>
    cases h
    exact ⟨found.1, rfl, rfl⟩

theorem eq_of_map_eq_error {α : Type} {step : Step α} {f : α → Field} {failure : Failure}
    (h : (step.map fun (a, left) => (f a, left)) = .error failure) : step = .error failure := by
  cases step with
  | error found =>
    cases h
    rfl
  | ok found => cases h

theorem toStep_value_nil (limit levels : Nat) :
    toStep (value limit levels []) = fail .endOfInput [] := by
  unfold value
  rfl

theorem toStep_value_quoted (limit levels : Nat) (rest : List UInt8) :
    toStep (value limit levels (0x22 :: rest)) =
      (quoted rest).map fun (text, left) => (.atom text, left) := by
  unfold value
  exact Reading.toStep_ofStep 0x22 (quoted rest) Field.atom length_le_of_quoted

theorem toStep_value_literal (limit levels : Nat) (rest : List UInt8) :
    toStep (value limit levels (0x7B :: rest)) =
      (literal rest).map fun (text, left) => (.atom text, left) := by
  unfold value
  exact Reading.toStep_ofStep 0x7B (literal rest) Field.atom length_le_of_literal

/-- No atom byte opens or closes a value of another kind. -/
theorem ne_of_isAtomByte {byte : UInt8} (h : isAtomByte byte = true) :
    byte ≠ 0x28 ∧ byte ≠ 0x29 ∧ byte ≠ 0x22 ∧ byte ≠ 0x7B := by
  refine ⟨?_, ?_, ?_, ?_⟩
  all_goals
    rintro rfl
    exact absurd h (by decide)

theorem rest_of_word {run left : List UInt8} (h : word run left = .ok (field, rest)) :
    rest = left := by
  unfold word at h
  split at h
  · cases h
  · cases h
    rfl

theorem word_eq_ok_iff {run left : List UInt8} (hne : run ≠ [])
    (hatoms : run.all isAtomByte = true) :
    word run left = .ok (field, rest) ↔ Word run field ∧ left = rest := by
  rw [← wordField_eq_ok_iff hne hatoms, word]
  cases wordField run with
  | error fault => simp [fail]
  | ok found => simp

theorem all_isAtomByte_run {byte : UInt8} (h : isAtomByte byte = true) (rest : List UInt8) :
    (byte :: rest.takeWhile isAtomByte).all isAtomByte = true := by
  rw [List.all_cons, h, List.all_takeWhile, Bool.true_and]

theorem toStep_value_word (limit levels : Nat) {byte : UInt8} (h : isAtomByte byte = true)
    (rest : List UInt8) :
    toStep (value limit levels (byte :: rest)) =
      word (byte :: rest.takeWhile isAtomByte) (rest.dropWhile isAtomByte) := by
  obtain ⟨hopen, hclose, hquote, hbrace⟩ := ne_of_isAtomByte h
  unfold value
  simp only [if_neg hopen, if_neg hclose, if_neg hquote, if_neg hbrace, if_pos h]
  rw [Reading.toStep_ofStep]
  · cases word (byte :: rest.takeWhile isAtomByte) (rest.dropWhile isAtomByte) <;> rfl
  · intro field left hword
    rw [rest_of_word hword]
    exact length_dropWhile_le isAtomByte rest

/-- What `value` reads: a list, a quoted string, a literal or a word. -/
theorem toStep_value_cases (h : toStep (value limit levels input) = .ok (field, rest)) :
    (∃ below body fields, levels = below + 1 ∧ input = 0x28 :: body ∧ field = .list fields ∧
      toStep (items (value limit below) body) = .ok (fields, rest)) ∨
    (∃ body text, input = 0x22 :: body ∧ field = .atom text ∧ quoted body = .ok (text, rest)) ∨
    (∃ body text, input = 0x7B :: body ∧ field = .atom text ∧ literal body = .ok (text, rest)) ∨
    ∃ run, input = run ++ rest ∧ run ≠ [] ∧ run.all isAtomByte = true ∧
      stops isAtomByte rest = true ∧ Word run field := by
  cases input with
  | nil =>
    unfold value at h
    cases h
  | cons byte body =>
    by_cases hopen : byte = 0x28
    · subst hopen
      cases levels with
      | zero => cases h
      | succ below =>
        rw [toStep_value_list] at h
        obtain ⟨fields, hitems, rfl⟩ := eq_of_map_eq_ok h
        exact .inl ⟨below, body, fields, rfl, rfl, rfl, hitems⟩
    by_cases hquote : byte = 0x22
    · subst hquote
      rw [toStep_value_quoted] at h
      obtain ⟨text, hquoted, rfl⟩ := eq_of_map_eq_ok h
      exact .inr (.inl ⟨body, text, rfl, rfl, hquoted⟩)
    by_cases hbrace : byte = 0x7B
    · subst hbrace
      rw [toStep_value_literal] at h
      obtain ⟨text, hliteral, rfl⟩ := eq_of_map_eq_ok h
      exact .inr (.inr (.inl ⟨body, text, rfl, rfl, hliteral⟩))
    by_cases hatom : isAtomByte byte = true
    · rw [toStep_value_word limit levels hatom] at h
      obtain ⟨hword, hrest⟩ := (word_eq_ok_iff (List.cons_ne_nil _ _)
        (all_isAtomByte_run hatom body)).1 h
      refine .inr (.inr (.inr ⟨_, ?_, List.cons_ne_nil _ _, all_isAtomByte_run hatom body,
        hrest ▸ stops_dropWhile isAtomByte body, hword⟩))
      rw [← hrest, List.cons_append, List.takeWhile_append_dropWhile]
    · unfold value at h
      simp only [if_neg hopen, if_neg hquote, if_neg hbrace, if_neg hatom] at h
      split at h <;> cases h

/-! ## The elements of a list -/

/-- The first value took a byte, so the text behind it is shorter. -/
theorem length_lt_of_first {one : (input : List UInt8) → Except Failure (Reading Field input)}
    {byte : UInt8} {behind left : List UInt8} (hskip : skipSpace input = byte :: behind)
    (h : toStep (one (byte :: behind)) = .ok (field, left)) : left.length < input.length :=
  Nat.lt_of_lt_of_le (Reading.length_lt_of_toStep h)
    (hskip ▸ length_dropWhile_le isSpace input)

/-- The elements of a list that does not end here: the first value, then the others. -/
theorem toStep_items_cons (one : (input : List UInt8) → Except Failure (Reading Field input))
    {space : List UInt8} {byte : UInt8} (blank : space.all isSpace = true)
    (hbyte : isSpace byte = false) (hclose : byte ≠ 0x29) (input : List UInt8) :
    toStep (items one (space ++ byte :: input)) =
      match toStep (one (byte :: input)) with
      | .error failure => .error failure
      | .ok (first, left) =>
        match toStep (items one left) with
        | .error failure => .error failure
        | .ok (more, left) => .ok (first :: more, left) := by
  have hstop : stops isSpace (byte :: input) = true := by simp [stops, hbyte]
  rw [toStep_items, skipSpace_append blank hstop]
  exact (if_neg hclose).trans rfl

/-! ## What is read is denoted -/

/-- `one` reads nothing but what the grammar has, with lists at most `levels` deep. -/
def ReadsDenoted (levels : Nat)
    (one : (input : List UInt8) → Except Failure (Reading Field input)) : Prop :=
  ∀ {input rest field}, toStep (one input) = .ok (field, rest) →
    ∃ written, input = written ++ rest ∧ Denotes Word written rest field ∧ field.depth ≤ levels

theorem exists_denoteAll {one : (input : List UInt8) → Except Failure (Reading Field input)}
    (hone : ReadsDenoted levels one) (h : toStep (items one input) = .ok (fields, rest)) :
    ∃ body, input = body ++ 0x29 :: rest ∧ DenoteAll Word body (0x29 :: rest) fields ∧
      depthAll fields ≤ levels := by
  induction hlen : input.length using Nat.strongRecOn generalizing input fields with
  | ind n ih =>
    obtain ⟨space, hspace, blank⟩ := exists_space input
    rw [toStep_items] at h
    split at h
    · cases h
    next byte behind hskip =>
      rw [hskip] at hspace
      split at h
      next hclose =>
        cases h
        exact ⟨space, by rw [hspace, hclose], .nil blank, Nat.zero_le _⟩
      · split at h
        · cases h
        next first left hfirst =>
          split at h
          · cases h
          next more left' hmore =>
            cases h
            obtain ⟨written, hwritten, hdenotes, hdepth⟩ := hone hfirst
            have hshorter : left.length < n := hlen ▸ length_lt_of_first hskip hfirst
            obtain ⟨body, rfl, hall, hdepths⟩ := ih _ hshorter hmore rfl
            refine ⟨space ++ written ++ body, ?_, .cons blank hdenotes hall,
              Nat.max_le.2 ⟨hdepth, hdepths⟩⟩
            rw [hspace, hwritten]
            simp

/-- The step of the induction on the levels: the elements of a list have one level less. -/
theorem exists_denotes_step
    (ih : ∀ below, levels = below + 1 → ReadsDenoted below (value limit below))
    (h : toStep (value limit levels input) = .ok (field, rest)) :
    ∃ written, input = written ++ rest ∧ Denotes Word written rest field ∧
      field.depth ≤ levels := by
  rcases toStep_value_cases h with ⟨below, body, fields, rfl, rfl, rfl, hitems⟩ |
    ⟨body, text, rfl, rfl, hquoted⟩ | ⟨body, text, rfl, rfl, hliteral⟩ |
    ⟨run, rfl, hne, hatoms, hstop, hword⟩
  · obtain ⟨inner, rfl, hall, hdepth⟩ := exists_denoteAll (ih below rfl) hitems
    refine ⟨0x28 :: (inner ++ [0x29]), by simp, .list hall, ?_⟩
    rw [depth]
    omega
  · obtain ⟨written, rfl, hwritten⟩ := quoted_eq_ok_iff.1 hquoted
    exact ⟨0x22 :: (written ++ [0x22]), by simp, .quoted hwritten, Nat.zero_le _⟩
  · obtain ⟨written, rfl, hwritten⟩ := literal_eq_ok_iff.1 hliteral
    exact ⟨0x7B :: written, rfl, .literal hwritten, Nat.zero_le _⟩
  · refine ⟨run, rfl, .word hne hatoms hstop hword, ?_⟩
    cases hword <;> exact Nat.zero_le _

/-- **What is read is denoted**, with lists no deeper than the levels. -/
theorem exists_denotes (limit levels : Nat) : ReadsDenoted levels (value limit levels) := by
  induction levels with
  | zero => exact fun h => exists_denotes_step (fun below hbelow => by cases hbelow) h
  | succ levels ih =>
    refine fun h => exists_denotes_step (fun below hbelow => ?_) h
    cases hbelow
    exact ih

/-! ## What is denoted is read -/

mutual

/-- **What is denoted is read**, if its lists are no deeper than the levels. -/
theorem toStep_value_of_denotes (limit levels : Nat) {written behind : List UInt8} {field : Field}
    (hdepth : field.depth ≤ levels) : Denotes Word written behind field →
      toStep (value limit levels (written ++ behind)) = .ok (field, behind)
  | @Denotes.list _ body _ fields elements => by
    rw [depth] at hdepth
    obtain ⟨below, rfl⟩ := Nat.exists_eq_add_of_le hdepth
    have hitems := toStep_items_of_denoteAll limit (depthAll fields + below)
      (Nat.le_add_right _ _) elements
    have hinput : 0x28 :: (body ++ [0x29]) ++ behind = 0x28 :: (body ++ 0x29 :: behind) := by simp
    rw [hinput, Nat.add_comm 1, Nat.add_right_comm, toStep_value_list, hitems]
    rfl
  | @Denotes.quoted _ inner _ _ h => by
    have hinput : 0x22 :: (inner ++ [0x22]) ++ behind = 0x22 :: (inner ++ 0x22 :: behind) := by simp
    rw [hinput, toStep_value_quoted, quoted_eq_ok_iff.2 ⟨inner, rfl, h⟩]
    rfl
  | @Denotes.literal _ inner _ _ h => by
    rw [List.cons_append, toStep_value_literal, literal_eq_ok_iff.2 ⟨inner, rfl, h⟩]
    rfl
  | .word ne_nil atoms maximal h => by
    obtain ⟨byte, rest, rfl⟩ := List.exists_cons_of_ne_nil ne_nil
    obtain ⟨hbyte, hrest⟩ := Bool.and_eq_true_iff.1 ((List.all_cons).symm.trans atoms)
    obtain ⟨hrun, hbehind⟩ := takeWhile_dropWhile_iff.2 ⟨rfl, hrest, maximal⟩
    rw [List.cons_append, toStep_value_word limit levels hbyte, hrun, hbehind]
    exact (word_eq_ok_iff ne_nil atoms).2 ⟨h, rfl⟩

/-- **What is denoted by the elements of a list is read**, up to its closing parenthesis. -/
theorem toStep_items_of_denoteAll (limit levels : Nat) {body rest : List UInt8}
    {fields : List Field} (hdepth : depthAll fields ≤ levels) :
    DenoteAll Word body (0x29 :: rest) fields →
      toStep (items (value limit levels) (body ++ 0x29 :: rest)) = .ok (fields, rest)
  | .nil blank => by
    rw [toStep_items, skipSpace_append blank rfl]
    exact if_pos rfl
  | @DenoteAll.cons _ space written more _ _ _ blank first others => by
    rw [depthAll] at hdepth
    have hfirst := toStep_value_of_denotes limit levels
      (Nat.le_trans (Nat.le_max_left _ _) hdepth) first
    have hmore := toStep_items_of_denoteAll limit levels
      (Nat.le_trans (Nat.le_max_right _ _) hdepth) others
    -- The white space ends where the value begins, and the list does not end there.
    obtain ⟨byte, tail, rfl, hspace, hclose⟩ := first.exists_cons
    have hstop : stops isSpace (byte :: tail ++ (more ++ 0x29 :: rest)) = true := by
      simp [stops, hspace]
    have hinput : space ++ byte :: tail ++ more ++ 0x29 :: rest =
        space ++ (byte :: tail ++ (more ++ 0x29 :: rest)) := by simp
    rw [hinput, toStep_items, skipSpace_append blank hstop, List.cons_append]
    rw [List.cons_append] at hfirst
    simp only [if_neg hclose, hfirst, hmore]

end

/-! ## Whole texts -/

theorem whole_eq (limit : Nat) (input : List UInt8) :
    whole limit input =
      match toStep (value limit limit (skipSpace input)) with
      | .error failure => .error failure
      | .ok (field, rest) =>
        match skipSpace rest with
        | [] => .ok field
        | byte :: rest => fail .trailingData (byte :: rest) := by
  unfold whole
  cases value limit limit (skipSpace input) <;> rfl

theorem skipSpace_eq_nil_iff : skipSpace input = [] ↔ input.all isSpace = true := by
  constructor
  · intro h
    obtain ⟨space, hspace, blank⟩ := exists_space input
    rw [h, List.append_nil] at hspace
    rw [hspace, blank]
  · intro h
    have hskip : skipSpace (input ++ []) = [] := skipSpace_append h rfl
    rwa [List.append_nil] at hskip

/-- White space alone is no field. -/
theorem whole_of_space (hinput : input.all isSpace = true) :
    whole limit input = fail .endOfInput [] := by
  rw [whole_eq, skipSpace_eq_nil_iff.2 hinput, toStep_value_nil]
  rfl

/-- **A whole text is read by the grammar.** -/
theorem whole_eq_ok_iff :
    whole limit input = .ok field ↔ Whole Word input field ∧ field.depth ≤ limit := by
  rw [whole_eq]
  constructor
  · intro h
    split at h
    · cases h
    next found rest hstep =>
      split at h
      next hend =>
        cases h
        obtain ⟨before, hbefore, hblank⟩ := exists_space input
        obtain ⟨written, hwritten, hdenotes, hdepth⟩ := exists_denotes limit limit hstep
        refine ⟨⟨before, written, rest, ?_, hblank, skipSpace_eq_nil_iff.1 hend, hdenotes⟩, hdepth⟩
        rw [List.append_assoc, ← hwritten, ← hbefore]
      · cases h
  · rintro ⟨⟨before, written, after, rfl, hbefore, hafter, hdenotes⟩, hdepth⟩
    obtain ⟨byte, tail, rfl, hspace, -⟩ := hdenotes.exists_cons
    have hstop : stops isSpace (byte :: tail ++ after) = true := by simp [stops, hspace]
    rw [List.append_assoc, skipSpace_append hbefore hstop,
      toStep_value_of_denotes limit limit hdepth hdenotes]
    simp only [skipSpace_eq_nil_iff.2 hafter]

/-- What a fresh reader answers, and where it stands then. -/
theorem read_ofBytes (limit : Nat) (input : List UInt8) :
    (Reader.ofBytes limit input).read =
      match whole limit input with
      | .ok field => (.ok field, ⟨input.length, [], limit⟩)
      | .error ⟨.fault fault, rest⟩ =>
        (.error (.malformed (input.length - rest.length) fault),
          ⟨input.length - rest.length, rest, limit⟩)
      | .error ⟨.tooDeep deep, rest⟩ =>
        (.error (.tooDeep deep), ⟨input.length - rest.length, rest, limit⟩) := by
  unfold Reader.read Reader.moveTo Reader.ofBytes
  cases whole limit input with
  | ok field => simp only [Nat.zero_add, List.length_nil, Nat.sub_zero]
  | error failure =>
    obtain ⟨cause, rest⟩ := failure
    cases cause <;> simp only [Nat.zero_add]

theorem ofBytes_eq_ok_iff_whole {maxDepth : Nat} :
    ofBytes maxDepth input = .ok field ↔ whole maxDepth input = .ok field := by
  rw [ofBytes, read_ofBytes]
  cases whole maxDepth input with
  | ok found => simp
  | error failure =>
    obtain ⟨cause, rest⟩ := failure
    cases cause <;> simp

/-- **The reader accepts its grammar.** A text is read as a field exactly when it denotes this
field and its lists nest no deeper than the limit. So a text denotes one field at most. -/
theorem ofBytes_eq_ok_iff (input : List UInt8) :
    (∀ maxDepth field,
      ofBytes maxDepth input = .ok field ↔ Whole Word input field ∧ field.depth ≤ maxDepth) ∧
    ∀ field other, Whole Word input field → Whole Word input other → field = other := by
  refine ⟨fun maxDepth field => ofBytes_eq_ok_iff_whole.trans whole_eq_ok_iff,
    fun field other hfield hother => ?_⟩
  have hread : whole (max field.depth other.depth) input = .ok field :=
    whole_eq_ok_iff.2 ⟨hfield, Nat.le_max_left _ _⟩
  have hread' : whole (max field.depth other.depth) input = .ok other :=
    whole_eq_ok_iff.2 ⟨hother, Nat.le_max_right _ _⟩
  rw [hread, Except.ok.injEq] at hread'
  exact hread'

/-- The text `(7 "a\"")`. -/
def pairText : List UInt8 := [0x28, 0x37, 0x20, 0x22, 0x61, 0x5C, 0x22, 0x22, 0x29]

/-- A number, and a string that ends with a quote. -/
def pairField : Field := .list [.number 7, .atom (Text.spelled [0x61, 0x22])]

theorem denotes_pairText : Denotes Word pairText [] pairField := by
  have hnumber : Denotes Word [0x37] [0x20, 0x22, 0x61, 0x5C, 0x22, 0x22, 0x29] (.number 7) :=
    .word (by decide) rfl rfl (.number rfl (by decide))
  have hescaped : Escaped [0x61, 0x5C, 0x22] (Text.bytes (Text.spelled [0x61, 0x22])) := by
    rw [Text.bytes_spelled (by simp)]
    exact .plain (by decide) (by decide) (.escape (.inl rfl) .nil)
  have hstring : DenoteAll Word [0x20, 0x22, 0x61, 0x5C, 0x22, 0x22] [0x29]
      [.atom (Text.spelled [0x61, 0x22])] :=
    @DenoteAll.cons Word [0x20] _ [] _ _ _ rfl (.quoted hescaped) (.nil rfl)
  exact .list (@DenoteAll.cons Word [] [0x37] _ _ _ _ rfl hnumber hstring)

/-- The text is read as the field that it denotes, and denotes no other. -/
theorem ofBytes_eq_ok_iff_pair :
    ofBytes 1 pairText = .ok pairField ∧
      ∀ other, Whole Word pairText other → other = pairField := by
  have hwhole : Whole Word pairText pairField := ⟨[], pairText, [], rfl, rfl, rfl, denotes_pairText⟩
  exact ⟨((ofBytes_eq_ok_iff pairText).1 1 pairField).2 ⟨hwhole, by decide⟩,
    fun other hother => (ofBytes_eq_ok_iff pairText).2 other pairField hother hwhole⟩

/-! ## Digits that are no number -/

/-- As `Word`, but with a text also for digits that denote no number of 32 bits. -/
inductive LenientWord : (run : List UInt8) → Field → Prop
  /-- A number of 32 bits. -/
  | number {run : List UInt8} (digits : run.all isDigit = true)
      (small : Text.decimal run < UInt32.size) :
      LenientWord run (.number (UInt32.ofNat (Text.decimal run)))
  /-- The absent value. -/
  | nil {run : List UInt8} (h : IsNil run) : LenientWord run .nil
  /-- A text that is neither. -/
  | atom {run : List UInt8}
      (not_number : ¬ (run.all isDigit = true ∧ Text.decimal run < UInt32.size))
      (not_nil : ¬ IsNil run) : LenientWord run (.atom (Text.spelled run))

/-- A number that 32 bits are too few for. -/
def hugeNumber : List UInt8 := [0x34, 0x32, 0x39, 0x34, 0x39, 0x36, 0x37, 0x32, 0x39, 0x36]

/-- The reader does not take digits for a text: where they denote no number of 32 bits, it refuses
them. -/
theorem not_ofBytes_eq_ok_iff_lenient :
    ¬ ∀ maxDepth input field,
      ofBytes maxDepth input = .ok field ↔
        Whole LenientWord input field ∧ field.depth ≤ maxDepth := by
  intro h
  have hlenient : LenientWord hugeNumber (.atom (Text.spelled hugeNumber)) :=
    .atom (by decide) fun hnil => absurd hnil.1 (by decide)
  have hwhole : Whole LenientWord hugeNumber (.atom (Text.spelled hugeNumber)) :=
    (whole_iff_of_atoms (by decide) (by decide)).2 hlenient
  have hread := (h 0 hugeNumber _).2 ⟨hwhole, Nat.zero_le _⟩
  rw [ofBytes_eq_ok_iff_whole, whole_eq_ok_iff, whole_iff_of_atoms (by decide) (by decide),
    word_iff_of_digits (by decide) (by decide)] at hread
  exact absurd hread.1.1 (by decide)

end MailOutline.Field
