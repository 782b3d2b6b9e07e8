import MailOutline.Field.Basic
import MailOutline.Field.Fault
import MailOutline.Text.Basic

/-!
# The pieces of a field's text

Model of `read_quoted_string`, `read_literal`, `read_number_or_atom`, `read_atom`, `take_atom` and
`is_atom_char`.

A step takes the bytes that are left to read. It answers with a value and the bytes behind it, or
with the cause of the failure and the bytes from which reading would go on. Here are the steps for
the values that are no lists:

* `quoted`: a string in quotes, read from behind the opening quote. A backslash stands before each
  quote and each backslash of the string.
* `literal`: a string behind its size, read from behind the opening brace. After a plus sign the end
  of line behind the size may be missing.
* `wordField`: what a run of atom bytes denotes. Digits alone are a number, and `NIL` in any case is
  the absent value.

The steps leave no more bytes than they were given (`length_le_of_quoted`, `length_le_of_literal`).
-/

namespace MailOutline.Field

/-- Why a step failed. -/
inductive Cause where
  /-- The text is malformed. -/
  | fault (fault : Fault)
  /-- A list is nested deeper than `limit` levels. -/
  | tooDeep (limit : Nat)
deriving DecidableEq, Repr

/-- A failed step: the cause, and the bytes from the place where it was found. -/
structure Failure where
  /-- Why the step failed. -/
  cause : Cause
  /-- The bytes that had not been read. -/
  rest : List UInt8
deriving DecidableEq, Repr

/-- The outcome of a step: a value with the bytes behind it, or a failure. -/
abbrev Step (α : Type) := Except Failure (α × List UInt8)

/-- The failure with a fault that was found in front of `rest`. -/
def fail {α : Type} (fault : Fault) (rest : List UInt8) : Except Failure α :=
  .error ⟨.fault fault, rest⟩

/-! ## Bytes -/

/-- Whether the byte is white space between values: a space, a tab or part of an end of line. -/
def isSpace (byte : UInt8) : Bool := byte == 0x20 || byte == 0x09 || byte == 0x0D || byte == 0x0A

/-- Whether the byte is a decimal digit. -/
def isDigit (byte : UInt8) : Bool := 0x30 ≤ byte && byte ≤ 0x39

/-- Whether the byte may stand in an atom. Section names such as `BODY[1]` are one atom. -/
def isAtomByte (byte : UInt8) : Bool :=
  byte == 0x21 || (0x23 ≤ byte && byte ≤ 0x24) || (0x26 ≤ byte && byte ≤ 0x27)
    || (0x2B ≤ byte && byte ≤ 0x7A) || (0x7C ≤ byte && byte ≤ 0x7E)

/-- The bytes without the white space in front of them. -/
def skipSpace (input : List UInt8) : List UInt8 := input.dropWhile isSpace

theorem length_dropWhile_le (p : UInt8 → Bool) (input : List UInt8) :
    (input.dropWhile p).length ≤ input.length :=
  (List.dropWhile_sublist p).length_le

/-! ## Quoted strings -/

/-- The bytes that a quoted string holds, read from behind its opening quote. -/
def quotedBytes : List UInt8 → Step (List UInt8)
  | [] => fail .endInQuoted []
  | byte :: rest =>
    if byte = 0x22 then .ok ([], rest) -- the closing quote
    else if byte = 0x5C then -- a backslash
      match rest with
      | [] => fail .endInQuoted []
      | escaped :: behind =>
        if escaped = 0x22 ∨ escaped = 0x5C then
          match quotedBytes behind with
          | .error failure => .error failure
          | .ok (held, left) => .ok (escaped :: held, left)
        else fail (.invalidEscape escaped) behind
    else
      match quotedBytes rest with
      | .error failure => .error failure
      | .ok (held, left) => .ok (byte :: held, left)

theorem length_le_of_quotedBytes {input held rest : List UInt8}
    (h : quotedBytes input = .ok (held, rest)) : rest.length ≤ input.length := by
  fun_induction quotedBytes input generalizing held rest with
  | case1 => cases h
  | case2 rest => cases h; exact Nat.le_succ _
  | case3 => cases h
  | case4 => cases h
  | case5 _ _ _ _ _ hq _ ih =>
    cases h
    exact Nat.le_succ_of_le (Nat.le_succ_of_le (ih hq))
  | case6 => cases h
  | case7 => cases h
  | case8 _ _ _ _ _ _ hq ih =>
    cases h
    exact Nat.le_succ_of_le (ih hq)

/-- The string that a quoted string denotes, read from behind its opening quote. -/
def quoted (input : List UInt8) : Step String :=
  match quotedBytes input with
  | .error failure => .error failure
  | .ok (held, rest) =>
    match Text.ofBytes? held with
    | none => fail .quotedNotUtf8 rest
    | some text => .ok (text, rest)

theorem length_le_of_quoted {input rest : List UInt8} {text : String}
    (h : quoted input = .ok (text, rest)) : rest.length ≤ input.length := by
  unfold quoted at h
  split at h
  · cases h
  next hq =>
    split at h
    · cases h
    · cases h
      exact length_le_of_quotedBytes hq

/-! ## Literals -/

/-- The size that digits denote, a number of 64 bits. -/
def literalSize (digits : List UInt8) : Except Fault Nat :=
  match Text.ofBytes? digits with
  | none => .error .literalSizeNotUtf8
  | some text =>
    match Text.natOfDigits? UInt64.size text.toList with
    | none => .error .literalSizeNumber
    | some size => .ok size

/-- What stands between the opening brace and the end of the size: the digits, whether a plus sign
follows them, and the bytes behind. -/
def literalHead (input : List UInt8) : List UInt8 × Bool × List UInt8 :=
  let behind := input.dropWhile isDigit
  if behind.head? = some 0x2B then (input.takeWhile isDigit, true, behind.tail)
  else (input.takeWhile isDigit, false, behind)

theorem length_literalHead_le (input : List UInt8) :
    (literalHead input).2.2.length ≤ input.length := by
  have := length_dropWhile_le isDigit input
  simp only [literalHead]
  split
  · simp only [List.length_tail]
    omega
  · exact this

/-- The end of line behind the size of a literal. It may be missing only after a plus sign. -/
def literalLine (plus : Bool) (input : List UInt8) : Step Unit :=
  if [0x0D, 0x0A].isPrefixOf input then .ok ((), input.drop 2)
  else if plus then .ok ((), input)
  else fail .literalLineEnd input

/-- The string that the first `size` bytes spell. -/
def literalText (size : Nat) (input : List UInt8) : Step String :=
  if input.length < size then fail .literalIncomplete input
  else
    match Text.ofBytes? (input.take size) with
    | none => fail .literalNotUtf8 (input.drop size)
    | some text => .ok (text, input.drop size)

/-- The string that a literal denotes, read from behind its opening brace. -/
def literal (input : List UInt8) : Step String :=
  let (digits, plus, stop) := literalHead input
  if stop ≠ [] ∧ stop.head? ≠ some 0x7D then fail .literalSizeByte stop
  else
    match literalSize digits with
    | .error fault => fail fault stop
    | .ok size =>
      match stop with
      | [] => fail .literalSizeUnclosed []
      | _ :: line =>
        match literalLine plus line with
        | .error failure => .error failure
        | .ok ((), body) => literalText size body

theorem length_le_of_literalLine {plus : Bool} {input rest : List UInt8}
    (h : literalLine plus input = .ok ((), rest)) : rest.length ≤ input.length := by
  unfold literalLine at h
  split at h
  · cases h; simp
  · split at h <;> cases h
    exact Nat.le_refl _

theorem length_le_of_literalText {size : Nat} {input rest : List UInt8} {text : String}
    (h : literalText size input = .ok (text, rest)) : rest.length ≤ input.length := by
  unfold literalText at h
  split at h
  · cases h
  · split at h <;> cases h
    simp

theorem length_le_of_literal {input rest : List UInt8} {text : String}
    (h : literal input = .ok (text, rest)) : rest.length ≤ input.length := by
  unfold literal at h
  have shorter := length_literalHead_le input
  generalize literalHead input = head at h shorter
  obtain ⟨digits, plus, stop⟩ := head
  simp only at h shorter
  split at h
  · cases h
  · split at h
    · cases h
    · split at h
      · cases h
      next line =>
        split at h
        · cases h
        next hline =>
          exact Nat.le_trans (length_le_of_literalText h)
            (Nat.le_trans (length_le_of_literalLine hline) (Nat.le_of_succ_le shorter))

/-! ## Atoms and numbers -/

/-- The field that a run of atom bytes denotes. -/
def wordField (run : List UInt8) : Except Fault Field :=
  match Text.ofBytes? run with
  | none => .error .atomNotUtf8
  | some text =>
    if text.toList.all Char.isDigit then
      match Text.natOfDigits? UInt32.size text.toList with
      | none => .error .numberTooLarge
      | some value => .ok (.number (UInt32.ofNat value))
    else if Text.sameLetters text "NIL" then .ok .nil
    else .ok (.atom text)

end MailOutline.Field
