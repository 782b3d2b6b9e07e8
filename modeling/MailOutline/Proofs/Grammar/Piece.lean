import MailOutline.Proofs.Grammar.Basic

/-!
# Strings and words are read by the grammar

The steps that read a value other than a list answer exactly with what the grammar says, and leave
exactly the bytes behind it.

* `takeWhile_dropWhile_iff`: the longest run in front of a text.
* `quoted_eq_ok_iff`, `literal_eq_ok_iff`, `wordField_eq_ok_iff`: quoted strings, literals, words.
* `exists_fault_of_quoted`, `exists_fault_of_literal`, `wordField_eq_error_iff`: what they fail
  with.
-/

namespace MailOutline.Field

open Text (bytes decimal sameLetters spelled)

variable {input rest : List UInt8} {text : String}

/-! ## Runs -/

/-- **The longest run** of bytes with `p` in front of a text, and the bytes behind it. -/
theorem takeWhile_dropWhile_iff {p : UInt8 → Bool} {run : List UInt8} :
    input.takeWhile p = run ∧ input.dropWhile p = rest ↔
      input = run ++ rest ∧ run.all p = true ∧ stops p rest = true := by
  constructor
  · rintro ⟨rfl, rfl⟩
    refine ⟨List.takeWhile_append_dropWhile.symm, List.all_takeWhile, ?_⟩
    have hstop := List.head?_dropWhile_not p input
    unfold stops
    cases hhead : (input.dropWhile p).head? with
    | none => rfl
    | some next =>
      rw [hhead] at hstop
      simp only at hstop
      rw [Option.all_some, hstop, Bool.not_false]
  · rintro ⟨rfl, hall, hstop⟩
    rw [List.takeWhile_append_of_pos (List.all_eq_true.1 hall),
      List.dropWhile_append_of_pos (List.all_eq_true.1 hall)]
    cases rest with
    | nil => exact ⟨List.append_nil run, rfl⟩
    | cons next more =>
      have hnext : ¬ p next = true := by
        simpa [stops] using hstop
      rw [List.takeWhile_cons_of_neg hnext, List.dropWhile_cons_of_neg hnext, List.append_nil]
      exact ⟨rfl, rfl⟩

theorem stops_dropWhile (p : UInt8 → Bool) (input : List UInt8) :
    stops p (input.dropWhile p) = true :=
  (takeWhile_dropWhile_iff.1 ⟨rfl, rfl⟩).2.2

/-! ## Quoted strings -/

/-- A byte that is neither a quote nor a backslash stands for itself. -/
theorem quotedBytes_plain {byte : UInt8} (hquote : byte ≠ 0x22) (hslash : byte ≠ 0x5C)
    (rest : List UInt8) :
    quotedBytes (byte :: rest) =
      (quotedBytes rest).map fun (held, left) => (byte :: held, left) := by
  conv => lhs; unfold quotedBytes
  rw [if_neg hquote, if_neg hslash]
  cases quotedBytes rest <;> rfl

/-- A quote or a backslash behind a backslash stands for itself. -/
theorem quotedBytes_escaped {escaped : UInt8} (h : escaped = 0x22 ∨ escaped = 0x5C)
    (rest : List UInt8) :
    quotedBytes (0x5C :: escaped :: rest) =
      (quotedBytes rest).map fun (held, left) => (escaped :: held, left) := by
  conv => lhs; unfold quotedBytes
  simp only [if_pos h]
  cases quotedBytes rest <;> rfl

/-- Anything else behind a backslash is refused. -/
theorem quotedBytes_refused {escaped : UInt8} (h : ¬ (escaped = 0x22 ∨ escaped = 0x5C))
    (rest : List UInt8) :
    quotedBytes (0x5C :: escaped :: rest) = fail (.invalidEscape escaped) rest := by
  unfold quotedBytes
  exact if_neg h

theorem quotedBytes_of_escaped {written held : List UInt8} (h : Escaped written held) :
    quotedBytes (written ++ 0x22 :: rest) = .ok (held, rest) := by
  induction h with
  | nil =>
    rw [List.nil_append, quotedBytes.eq_def]
    simp only [if_true]
  | plain not_quote not_backslash _ ih =>
    rw [List.cons_append, quotedBytes.eq_def]
    simp only [if_neg not_quote, if_neg not_backslash, ih]
  | @escape byte _ _ special _ ih =>
    have hquote : ¬ (0x5C : UInt8) = 0x22 := by decide
    rw [List.cons_append, List.cons_append, quotedBytes.eq_def]
    simp only [if_neg hquote, if_true, if_pos special, ih]

theorem escaped_of_quotedBytes {held : List UInt8} (h : quotedBytes input = .ok (held, rest)) :
    ∃ written, input = written ++ 0x22 :: rest ∧ Escaped written held := by
  fun_induction quotedBytes input generalizing held rest with
  | case1 => cases h
  | case2 behind =>
    cases h
    exact ⟨[], rfl, .nil⟩
  | case3 => cases h
  | case4 => cases h
  | case5 escaped behind special held' left hread _ ih =>
    cases h
    obtain ⟨written, rfl, hwritten⟩ := ih hread
    exact ⟨0x5C :: escaped :: written, rfl, .escape special hwritten⟩
  | case6 => cases h
  | case7 => cases h
  | case8 byte behind not_quote not_backslash held' left hread ih =>
    cases h
    obtain ⟨written, rfl, hwritten⟩ := ih hread
    exact ⟨byte :: written, rfl, .plain not_quote not_backslash hwritten⟩

/-- **A quoted string** is read up to the first quote that no backslash escapes. -/
theorem quoted_eq_ok_iff :
    quoted input = .ok (text, rest) ↔
      ∃ written, input = written ++ 0x22 :: rest ∧ Escaped written (bytes text) := by
  unfold quoted
  constructor
  · intro h
    split at h
    · cases h
    next held left hread =>
      split at h
      · cases h
      next decoded htext =>
        cases h
        rw [Text.ofBytes?_eq_some_iff] at htext
        subst htext
        exact escaped_of_quotedBytes hread
  · rintro ⟨written, rfl, hwritten⟩
    rw [quotedBytes_of_escaped hwritten]
    simp only [Text.ofBytes?_bytes]

/-! ## Literals -/

theorem lt_of_isDigit {byte : UInt8} (h : isDigit byte = true) : byte < 0x80 := by
  rw [isDigit, Bool.and_eq_true, decide_eq_true_eq, decide_eq_true_eq] at h
  exact UInt8.lt_of_le_of_lt h.2 (by decide)

/-- Digits are text, so they are refused only as a number. -/
theorem literalSize_of_digits {digits : List UInt8} (hall : digits.all isDigit = true) :
    literalSize digits =
      (Text.natOfDigits? UInt64.size (spelled digits).toList).elim
        (.error .literalSizeNumber) .ok := by
  have hascii : ∀ byte ∈ digits, byte < 0x80 := fun byte hbyte =>
    lt_of_isDigit (List.all_eq_true.1 hall byte hbyte)
  rw [literalSize, Text.ofBytes?_spelled hascii]
  simp only
  cases Text.natOfDigits? UInt64.size (spelled digits).toList <;> rfl

theorem literalSize_eq_ok_iff {digits : List UInt8} (hall : digits.all isDigit = true)
    {size : Nat} : literalSize digits = .ok size ↔ IsSize digits size := by
  rw [literalSize_of_digits hall]
  constructor
  · intro h
    cases hvalue : Text.natOfDigits? UInt64.size (spelled digits).toList with
    | none =>
      rw [hvalue] at h
      cases h
    | some value =>
      rw [hvalue] at h
      cases h
      obtain ⟨hne, -, hlt, heq⟩ := Text.natOfDigits?_spelled.1 hvalue
      exact ⟨hne, hall, hlt, heq⟩
  · intro h
    rw [Text.natOfDigits?_spelled.2 ⟨h.ne_nil, hall, h.lt, h.eq⟩, Option.elim_some]

variable {digits stop : List UInt8} {plus : Bool}

theorem literalHead_plus (hall : digits.all isDigit = true) :
    literalHead (digits ++ 0x2B :: stop) = (digits, true, stop) := by
  obtain ⟨hrun, hbehind⟩ := takeWhile_dropWhile_iff.2 ⟨rfl, hall, (by rfl :
    stops isDigit (0x2B :: stop) = true)⟩
  unfold literalHead
  rw [hrun, hbehind]
  exact if_pos rfl

theorem literalHead_brace (hall : digits.all isDigit = true) :
    literalHead (digits ++ 0x7D :: stop) = (digits, false, 0x7D :: stop) := by
  obtain ⟨hrun, hbehind⟩ := takeWhile_dropWhile_iff.2 ⟨rfl, hall, (by rfl :
    stops isDigit (0x7D :: stop) = true)⟩
  unfold literalHead
  rw [hrun, hbehind]
  exact if_neg (by simp)

theorem eq_of_literalHead (h : literalHead input = (digits, plus, stop)) :
    digits.all isDigit = true ∧ input = digits ++ if plus then 0x2B :: stop else stop := by
  have hinput : input = input.takeWhile isDigit ++ input.dropWhile isDigit :=
    List.takeWhile_append_dropWhile.symm
  unfold literalHead at h
  simp only at h
  split at h
  next hplus =>
    cases h
    obtain ⟨behind, hbehind⟩ := List.head?_eq_some_iff.1 hplus
    rw [hbehind] at hinput
    rw [hbehind]
    exact ⟨List.all_takeWhile, hinput⟩
  · cases h
    exact ⟨List.all_takeWhile, hinput⟩

theorem literalLine_eq_ok_iff :
    literalLine plus input = .ok ((), rest) ↔
      input = 0x0D :: 0x0A :: rest ∨
        plus = true ∧ input = rest ∧ ¬ [0x0D, 0x0A] <+: rest := by
  unfold literalLine
  by_cases hline : [0x0D, 0x0A] <+: input
  · rw [if_pos (List.isPrefixOf_iff_prefix.2 hline)]
    obtain ⟨behind, rfl⟩ := hline
    constructor
    · intro h
      cases h
      exact .inl rfl
    · rintro (h | ⟨-, rfl, hno⟩)
      · cases h
        rfl
      · exact absurd (List.prefix_append _ _) hno
  · rw [if_neg fun h => hline (List.isPrefixOf_iff_prefix.1 h)]
    constructor
    · intro h
      split at h
      next hplus =>
        cases h
        exact .inr ⟨hplus, rfl, hline⟩
      · cases h
    · rintro (rfl | ⟨hplus, rfl, -⟩)
      · exact absurd (List.prefix_append [0x0D, 0x0A] rest) hline
      · rw [if_pos hplus]

theorem literalText_eq_ok_iff {size : Nat} :
    literalText size input = .ok (text, rest) ↔
      input = bytes text ++ rest ∧ (bytes text).length = size := by
  unfold literalText
  constructor
  · intro h
    split at h
    · cases h
    next hlen =>
      split at h
      · cases h
      next decoded htext =>
        cases h
        rw [Text.ofBytes?_eq_some_iff] at htext
        rw [← htext, List.take_append_drop, List.length_take]
        exact ⟨rfl, Nat.min_eq_left (Nat.le_of_not_lt hlen)⟩
  · rintro ⟨rfl, rfl⟩
    have hlen : ¬ (bytes text ++ rest).length < (bytes text).length := by
      rw [List.length_append]
      omega
    rw [if_neg hlen, List.take_left, List.drop_left, Text.ofBytes?_bytes]

/-- A literal is the head of a size that a brace closes, the end of its line, and its text. -/
theorem literal_eq_ok_iff_pieces :
    literal input = .ok (text, rest) ↔ ∃ digits plus line body,
      literalHead input = (digits, plus, 0x7D :: line) ∧ IsSize digits (bytes text).length ∧
        literalLine plus line = .ok ((), body) ∧ body = bytes text ++ rest := by
  unfold literal
  constructor
  · intro h
    cases hhead : literalHead input with
    | mk digits behind =>
      obtain ⟨plus, stop⟩ := behind
      rw [hhead] at h
      simp only at h
      split at h
      · cases h
      next hstop =>
        split at h
        · cases h
        next size hsize =>
          split at h
          · cases h
          next close line =>
            split at h
            · cases h
            next body hline =>
              obtain ⟨hbody, hlen⟩ := literalText_eq_ok_iff.1 h
              have hclose : close = 0x7D := by simpa using hstop
              subst hclose hlen
              exact ⟨digits, plus, line, body, rfl,
                (literalSize_eq_ok_iff (eq_of_literalHead hhead).1).1 hsize, hline, hbody⟩
  · rintro ⟨digits, plus, line, body, hhead, hsize, hline, hbody⟩
    have hclose : ¬ (0x7D :: line ≠ [] ∧ (0x7D :: line).head? ≠ some (0x7D : UInt8)) := by simp
    rw [hhead]
    simp only [if_neg hclose, (literalSize_eq_ok_iff hsize.all).2 hsize, hline]
    exact literalText_eq_ok_iff.2 ⟨hbody, rfl⟩

/-- **A literal** is as long as its size says. -/
theorem literal_eq_ok_iff :
    literal input = .ok (text, rest) ↔
      ∃ written, input = written ++ rest ∧ Literal written rest text := by
  rw [literal_eq_ok_iff_pieces]
  constructor
  · rintro ⟨digits, plus, line, body, hhead, hsize, hline, rfl⟩
    obtain ⟨-, rfl⟩ := eq_of_literalHead hhead
    cases plus with
    | false =>
      obtain rfl := (literalLine_eq_ok_iff.1 hline).resolve_right fun h => Bool.false_ne_true h.1
      exact ⟨_, by simp, .line hsize⟩
    | true =>
      rcases literalLine_eq_ok_iff.1 hline with rfl | ⟨-, rfl, hno⟩
      · exact ⟨_, by simp, .plusLine hsize⟩
      · exact ⟨_, by simp, .plus hsize hno⟩
  · rintro ⟨written, rfl, hwritten⟩
    cases hwritten with
    | @line digits _ _ size =>
      refine ⟨digits, false, 0x0D :: 0x0A :: (bytes text ++ rest), bytes text ++ rest, ?_, size,
        literalLine_eq_ok_iff.2 (.inl rfl), rfl⟩
      rw [← literalHead_brace size.all]
      simp
    | @plusLine digits _ _ size =>
      refine ⟨digits, true, 0x0D :: 0x0A :: (bytes text ++ rest), bytes text ++ rest, ?_, size,
        literalLine_eq_ok_iff.2 (.inl rfl), rfl⟩
      rw [← literalHead_plus size.all]
      simp
    | @plus digits _ _ size no_line =>
      refine ⟨digits, true, bytes text ++ rest, bytes text ++ rest, ?_, size,
        literalLine_eq_ok_iff.2 (.inr ⟨rfl, rfl, no_line⟩), rfl⟩
      rw [← literalHead_plus size.all]
      simp

/-! ## Words -/

/-- What is `NIL` up to case does not begin with a digit. -/
theorem stops_of_sameLetters {run : List UInt8}
    (h : sameLetters (spelled run) "NIL" = true) : stops isDigit run = true := by
  rw [Text.sameLetters_iff_toList, Text.toList_spelled] at h
  cases run with
  | nil => rfl
  | cons first more =>
    rw [List.map_cons, List.map_cons] at h
    have hfirst : (Char.ofUInt8 first).toLower = 'n' := (List.cons.inj h).1
    have hdigit : isDigit first = false := by
      rw [← Text.isDigit_ofUInt8, Bool.eq_false_iff]
      intro hd
      rw [Text.toLower_of_isDigit hd] at hfirst
      rw [hfirst] at hd
      exact absurd hd (by decide)
    simp [stops, hdigit]

theorem isNil_iff_sameLetters {run : List UInt8} :
    IsNil run ↔ sameLetters (spelled run) "NIL" = true :=
  ⟨fun h => h.2, fun h => ⟨stops_of_sameLetters h, h⟩⟩

/-- Atom bytes are text, so they are refused only as a number. -/
theorem wordField_of_atoms {run : List UInt8} (hatoms : run.all isAtomByte = true) :
    wordField run =
      if run.all isDigit = true then
        (Text.natOfDigits? UInt32.size (spelled run).toList).elim (.error .numberTooLarge)
          fun value => .ok (.number (UInt32.ofNat value))
      else .ok (if sameLetters (spelled run) "NIL" = true then .nil else .atom (spelled run)) := by
  have hascii : ∀ byte ∈ run, byte < 0x80 := fun byte hbyte =>
    lt_of_isAtomByte (List.all_eq_true.1 hatoms byte hbyte)
  rw [wordField, Text.ofBytes?_spelled hascii]
  simp only [Text.all_isDigit_spelled]
  split
  · cases Text.natOfDigits? UInt32.size (spelled run).toList <;> rfl
  · split <;> rfl

/-- **A run of atom bytes** denotes a number, the absent value or a text. -/
theorem wordField_eq_ok_iff {run : List UInt8} {field : Field} (hne : run ≠ [])
    (hatoms : run.all isAtomByte = true) : wordField run = .ok field ↔ Word run field := by
  rw [wordField_of_atoms hatoms]
  cases hdigits : run.all isDigit with
  | true =>
    rw [word_iff_of_digits hne hdigits, if_pos rfl]
    constructor
    · intro h
      cases hvalue : Text.natOfDigits? UInt32.size (spelled run).toList with
      | none =>
        rw [hvalue] at h
        cases h
      | some value =>
        rw [hvalue] at h
        cases h
        obtain ⟨-, -, hlt, rfl⟩ := Text.natOfDigits?_spelled.1 hvalue
        exact ⟨hlt, rfl⟩
    · rintro ⟨hlt, rfl⟩
      rw [Text.natOfDigits?_spelled.2 ⟨hne, hdigits, hlt, rfl⟩, Option.elim_some]
  | false =>
    rw [word_iff_of_not_digits hdigits, isNil_iff_sameLetters, if_neg Bool.false_ne_true]
    by_cases hletters : sameLetters (spelled run) "NIL" = true
    · simp [hletters, eq_comm]
    · simp [hletters, eq_comm]

/-- **A run of atom bytes is refused** if it denotes a number that 32 bits are too few for. -/
theorem wordField_eq_error_iff {run : List UInt8} {fault : Fault} (hne : run ≠ [])
    (hatoms : run.all isAtomByte = true) :
    wordField run = .error fault ↔
      run.all isDigit = true ∧ UInt32.size ≤ decimal run ∧ fault = .numberTooLarge := by
  rw [wordField_of_atoms hatoms]
  cases hdigits : run.all isDigit with
  | true =>
    rw [if_pos rfl]
    cases hvalue : Text.natOfDigits? UInt32.size (spelled run).toList with
    | none =>
      have hlarge : UInt32.size ≤ decimal run := Nat.le_of_not_lt fun hlt =>
        nomatch hvalue.symm.trans (Text.natOfDigits?_spelled.2 ⟨hne, hdigits, hlt, rfl⟩)
      simp [hlarge, eq_comm]
    | some value =>
      obtain ⟨-, -, hlt, rfl⟩ := Text.natOfDigits?_spelled.1 hvalue
      simp [Nat.not_le.2 hlt]
  | false => simp

/-! ## Failures

A string or a word fails with a fault of its own, never because of a limit. Its bytes are decoded
behind checks that leave ASCII only, so that the faults about this decoding are not among them. -/

/-- Whether strings and words fail with the fault. -/
def ofPiece : Fault → Bool
  | .endInQuoted | .invalidEscape _ | .quotedNotUtf8 => true
  | .literalSizeByte | .literalSizeNumber | .literalSizeUnclosed => true
  | .literalLineEnd | .literalIncomplete | .literalNotUtf8 => true
  | .numberTooLarge => true
  | _ => false

theorem exists_fault_of_quotedBytes {failure : Failure} (h : quotedBytes input = .error failure) :
    ∃ fault left, failure = ⟨.fault fault, left⟩ ∧ ofPiece fault = true := by
  fun_induction quotedBytes input with
  | case1 =>
    cases h
    exact ⟨_, _, rfl, rfl⟩
  | case2 => cases h
  | case3 =>
    cases h
    exact ⟨_, _, rfl, rfl⟩
  | case4 _ _ _ _ hread _ ih =>
    cases h
    exact ih hread
  | case5 => cases h
  | case6 =>
    cases h
    exact ⟨_, _, rfl, rfl⟩
  | case7 _ _ _ _ _ hread ih =>
    cases h
    exact ih hread
  | case8 => cases h

theorem exists_fault_of_quoted {failure : Failure} (h : quoted input = .error failure) :
    ∃ fault left, failure = ⟨.fault fault, left⟩ ∧ ofPiece fault = true := by
  unfold quoted at h
  split at h
  next hread =>
    cases h
    exact exists_fault_of_quotedBytes hread
  · split at h
    · cases h
      exact ⟨_, _, rfl, rfl⟩
    · cases h

theorem eq_of_literalSize_eq_error (hall : digits.all isDigit = true) {fault : Fault}
    (h : literalSize digits = .error fault) : fault = .literalSizeNumber := by
  rw [literalSize_of_digits hall] at h
  cases hvalue : Text.natOfDigits? UInt64.size (spelled digits).toList with
  | none =>
    rw [hvalue] at h
    cases h
    rfl
  | some value =>
    rw [hvalue] at h
    cases h

theorem exists_fault_of_literalLine {plus : Bool} {failure : Failure}
    (h : literalLine plus input = .error failure) :
    ∃ fault left, failure = ⟨.fault fault, left⟩ ∧ ofPiece fault = true := by
  unfold literalLine at h
  split at h
  · cases h
  · split at h
    · cases h
    · cases h
      exact ⟨_, _, rfl, rfl⟩

theorem exists_fault_of_literalText {size : Nat} {failure : Failure}
    (h : literalText size input = .error failure) :
    ∃ fault left, failure = ⟨.fault fault, left⟩ ∧ ofPiece fault = true := by
  unfold literalText at h
  split at h
  · cases h
    exact ⟨_, _, rfl, rfl⟩
  · split at h
    · cases h
      exact ⟨_, _, rfl, rfl⟩
    · cases h

theorem exists_fault_of_literal {failure : Failure} (h : literal input = .error failure) :
    ∃ fault left, failure = ⟨.fault fault, left⟩ ∧ ofPiece fault = true := by
  unfold literal at h
  cases hhead : literalHead input with
  | mk digits behind =>
    rw [hhead] at h
    simp only at h
    split at h
    · cases h
      exact ⟨_, _, rfl, rfl⟩
    · split at h
      next hsize =>
        cases h
        obtain rfl := eq_of_literalSize_eq_error (eq_of_literalHead hhead).1 hsize
        exact ⟨_, _, rfl, rfl⟩
      · split at h
        · cases h
          exact ⟨_, _, rfl, rfl⟩
        · split at h
          next hline =>
            cases h
            exact exists_fault_of_literalLine hline
          · exact exists_fault_of_literalText h

end MailOutline.Field
