import MailOutline.Proofs.Grammar.Spelling
import MailOutline.Text.Basic

/-!
# The grammar of a field's text

Which bytes denote which field, told without a reader. A piece of text denotes a field in front of
the bytes behind it, since a word has to end there and since the end of line behind the size of a
literal counts wherever it stands.

* `stops`: where a run of bytes ends.
* `Escaped`: the bytes that stand in quotes for others.
* `Literal`: a literal behind its opening brace.
* `Word`: the field of a run of atom bytes.
* `Denotes`, `DenoteAll`: the field of a value, and the fields of the values of a list. What a run
  of atom bytes denotes is a parameter.
* `Whole`: a text that is one value with white space around it.
* `whole_iff_of_atoms`: where that value is a word.
-/

namespace MailOutline.Field

open Text (bytes decimal sameLetters spelled)

/-- Whether a run of bytes with `p` ends in front of `behind`. -/
def stops (p : UInt8 → Bool) (behind : List UInt8) : Bool := behind.head?.all fun next => !p next

/-! ## Strings -/

/-- `Escaped written held`: in quotes, `written` stands for the bytes `held`. -/
inductive Escaped : (written held : List UInt8) → Prop
  /-- Nothing. -/
  | nil : Escaped [] []
  /-- A byte that stands for itself, neither a quote nor a backslash. -/
  | plain {byte : UInt8} {written held : List UInt8} (not_quote : byte ≠ 0x22)
      (not_backslash : byte ≠ 0x5C) (rest : Escaped written held) :
      Escaped (byte :: written) (byte :: held)
  /-- A quote or a backslash behind a backslash. -/
  | escape {byte : UInt8} {written held : List UInt8} (special : byte = 0x22 ∨ byte = 0x5C)
      (rest : Escaped written held) : Escaped (0x5C :: byte :: written) (byte :: held)

/-- Digits that denote a number of 64 bits. -/
structure IsSize (digits : List UInt8) (size : Nat) : Prop where
  ne_nil : digits ≠ []
  all : digits.all isDigit = true
  lt : size < UInt64.size
  eq : decimal digits = size

/-- `Literal written behind text`: behind an opening brace and in front of `behind`, `written` is
the size of a text and the text. -/
inductive Literal : (written behind : List UInt8) → String → Prop
  /-- The size ends its line. -/
  | line {digits behind : List UInt8} {text : String} (size : IsSize digits (bytes text).length) :
      Literal (digits ++ [0x7D, 0x0D, 0x0A] ++ bytes text) behind text
  /-- The size ends its line, although a plus sign follows it. -/
  | plusLine {digits behind : List UInt8} {text : String}
      (size : IsSize digits (bytes text).length) :
      Literal (digits ++ [0x2B, 0x7D, 0x0D, 0x0A] ++ bytes text) behind text
  /-- A plus sign follows the size, and no end of line does. -/
  | plus {digits behind : List UInt8} {text : String} (size : IsSize digits (bytes text).length)
      (no_line : ¬ [0x0D, 0x0A] <+: bytes text ++ behind) :
      Literal (digits ++ [0x2B, 0x7D] ++ bytes text) behind text

/-! ## Words -/

/-- Whether a run stands for the absent value: it does not begin with a digit, and it is `NIL` up
to case. -/
def IsNil (run : List UInt8) : Prop :=
  stops isDigit run = true ∧ sameLetters (spelled run) "NIL" = true

/-- The field that a run of atom bytes denotes. Digits alone are a number or nothing. -/
inductive Word : (run : List UInt8) → Field → Prop
  /-- A number of 32 bits. -/
  | number {run : List UInt8} (digits : run.all isDigit = true)
      (small : decimal run < UInt32.size) : Word run (.number (UInt32.ofNat (decimal run)))
  /-- The absent value. -/
  | nil {run : List UInt8} (h : IsNil run) : Word run .nil
  /-- A text that is neither. -/
  | atom {run : List UInt8} (not_digits : run.all isDigit = false) (not_nil : ¬ IsNil run) :
      Word run (.atom (spelled run))

/-! ## Values -/

variable (word : List UInt8 → Field → Prop)

mutual

/-- `Denotes word written behind field`: in front of `behind`, the bytes `written` denote a field.
-/
inductive Denotes : (written behind : List UInt8) → Field → Prop
  /-- Values in parentheses. -/
  | list {body behind : List UInt8} {fields : List Field}
      (elements : DenoteAll body (0x29 :: behind) fields) :
      Denotes (0x28 :: (body ++ [0x29])) behind (.list fields)
  /-- A text in quotes. -/
  | quoted {written behind : List UInt8} {text : String} (h : Escaped written (bytes text)) :
      Denotes (0x22 :: (written ++ [0x22])) behind (.atom text)
  /-- A text behind its size. -/
  | literal {written behind : List UInt8} {text : String} (h : Literal written behind text) :
      Denotes (0x7B :: written) behind (.atom text)
  /-- A run of atom bytes that no atom byte follows. -/
  | word {run behind : List UInt8} {field : Field} (ne_nil : run ≠ [])
      (atoms : run.all isAtomByte = true)
      (maximal : stops isAtomByte behind = true) (h : word run field) : Denotes run behind field

/-- `DenoteAll word body behind fields`: in front of `behind`, the bytes `body` are values that
denote the fields. White space may stand in front of each of them and behind the last. -/
inductive DenoteAll : (body behind : List UInt8) → List Field → Prop
  /-- White space alone. -/
  | nil {space behind : List UInt8} (blank : space.all isSpace = true) :
      DenoteAll space behind []
  /-- One value and more of them. -/
  | cons {space written more behind : List UInt8} {field : Field} {fields : List Field}
      (blank : space.all isSpace = true) (first : Denotes written (more ++ behind) field)
      (rest : DenoteAll more behind fields) :
      DenoteAll (space ++ written ++ more) behind (field :: fields)

end

/-- A text that is one value, with white space around it. -/
def Whole (input : List UInt8) (field : Field) : Prop :=
  ∃ before written after, input = before ++ written ++ after ∧ before.all isSpace = true ∧
    after.all isSpace = true ∧ Denotes word written after field

variable {word}

/-! ## The first byte -/

theorem lt_of_isAtomByte {byte : UInt8} (h : isAtomByte byte = true) : byte < 0x80 := by
  simp only [isAtomByte, Bool.or_eq_true, Bool.and_eq_true, decide_eq_true_eq, beq_iff_eq,
    UInt8.le_iff_toNat_le, ← UInt8.toNat_inj, UInt8.reduceToNat] at h
  rw [UInt8.lt_iff_toNat_lt]
  change byte.toNat < 128
  omega

theorem isAtomByte_of_isDigit {byte : UInt8} (h : isDigit byte = true) :
    isAtomByte byte = true := by
  simp only [isDigit, Bool.and_eq_true, decide_eq_true_eq, UInt8.le_iff_toNat_le,
    UInt8.reduceToNat] at h
  simp only [isAtomByte, Bool.or_eq_true, Bool.and_eq_true, decide_eq_true_eq, beq_iff_eq,
    UInt8.le_iff_toNat_le, ← UInt8.toNat_inj, UInt8.reduceToNat]
  omega

theorem all_isAtomByte_of_digits {run : List UInt8} (h : run.all isDigit = true) :
    run.all isAtomByte = true :=
  List.all_eq_true.2 fun byte hbyte => isAtomByte_of_isDigit (List.all_eq_true.1 h byte hbyte)

theorem isSpace_of_isAtomByte {byte : UInt8} (h : isAtomByte byte = true) :
    isSpace byte = false := by
  rw [Bool.eq_false_iff]
  intro hspace
  simp only [isSpace, Bool.or_eq_true, beq_iff_eq] at hspace
  rcases hspace with ((rfl | rfl) | rfl) | rfl <;> exact absurd h (by decide)

/-- A value begins with a byte that neither separates values nor closes a list. -/
theorem Denotes.exists_cons {written behind : List UInt8} {field : Field}
    (h : Denotes word written behind field) :
    ∃ byte rest, written = byte :: rest ∧ isSpace byte = false ∧ byte ≠ 0x29 := by
  cases h with
  | list => exact ⟨_, _, rfl, by decide, by decide⟩
  | quoted => exact ⟨_, _, rfl, by decide, by decide⟩
  | literal => exact ⟨_, _, rfl, by decide, by decide⟩
  | word ne_nil atoms =>
    obtain ⟨byte, rest, rfl⟩ := List.exists_cons_of_ne_nil ne_nil
    have hbyte : isAtomByte byte = true := List.all_eq_true.1 atoms byte List.mem_cons_self
    refine ⟨byte, rest, rfl, isSpace_of_isAtomByte hbyte, ?_⟩
    rintro rfl
    exact absurd hbyte (by decide)

/-- More white space may stand in front of the values of a list. -/
theorem DenoteAll.append_space {space body behind : List UInt8} {fields : List Field}
    (blank : space.all isSpace = true) (h : DenoteAll word body behind fields) :
    DenoteAll word (space ++ body) behind fields := by
  cases h with
  | nil hmore => exact .nil (by rw [List.all_append, blank, hmore, Bool.true_and])
  | cons hmore first rest =>
    rw [← List.append_assoc, ← List.append_assoc]
    exact .cons (by rw [List.all_append, blank, hmore, Bool.true_and]) first rest

/-! ## Words alone -/

/-- Digits alone are no absent value. -/
theorem not_isNil_of_digits {run : List UInt8} (hne : run ≠ [])
    (hdigits : run.all isDigit = true) : ¬ IsNil run := by
  obtain ⟨first, more, rfl⟩ := List.exists_cons_of_ne_nil hne
  rw [List.all_cons, Bool.and_eq_true] at hdigits
  intro h
  have hstop : stops isDigit (first :: more) = true := h.1
  simp [stops, hdigits.1] at hstop

/-- Digits alone denote a number, unless 32 bits are too few for it. -/
theorem word_iff_of_digits {run : List UInt8} {field : Field} (hne : run ≠ [])
    (hdigits : run.all isDigit = true) :
    Word run field ↔ decimal run < UInt32.size ∧ field = .number (UInt32.ofNat (decimal run)) := by
  constructor
  · intro h
    cases h with
    | number _ small => exact ⟨small, rfl⟩
    | nil h => exact absurd h (not_isNil_of_digits hne hdigits)
    | atom not_digits => exact absurd (not_digits.symm.trans hdigits) Bool.false_ne_true
  · rintro ⟨small, rfl⟩
    exact .number hdigits small

/-- Other runs denote the absent value or a text. -/
theorem word_iff_of_not_digits {run : List UInt8} {field : Field}
    (hdigits : run.all isDigit = false) :
    Word run field ↔ IsNil run ∧ field = .nil ∨ ¬ IsNil run ∧ field = .atom (spelled run) := by
  constructor
  · intro h
    cases h with
    | number digits => exact absurd (hdigits.symm.trans digits) Bool.false_ne_true
    | nil h => exact .inl ⟨h, rfl⟩
    | atom _ not_nil => exact .inr ⟨not_nil, rfl⟩
  · rintro (⟨h, rfl⟩ | ⟨not_nil, rfl⟩)
    · exact .nil h
    · exact .atom hdigits not_nil

theorem eq_nil_of_space_of_atoms {bytes : List UInt8} (hspace : bytes.all isSpace = true)
    (hatoms : bytes.all isAtomByte = true) : bytes = [] := by
  cases bytes with
  | nil => rfl
  | cons byte rest =>
    rw [List.all_cons, Bool.and_eq_true] at hspace hatoms
    have hnone : isSpace byte = false := isSpace_of_isAtomByte hatoms.1
    exact absurd (hnone.symm.trans hspace.1) Bool.false_ne_true

/-- A text of atom bytes alone is a word. -/
theorem whole_iff_of_atoms {run : List UInt8} {field : Field} (hne : run ≠ [])
    (hatoms : run.all isAtomByte = true) : Whole word run field ↔ word run field := by
  constructor
  · rintro ⟨before, written, after, rfl, hbefore, hafter, hdenotes⟩
    rw [List.all_append, List.all_append, Bool.and_eq_true, Bool.and_eq_true] at hatoms
    obtain ⟨⟨hfront, hwritten⟩, hback⟩ := hatoms
    obtain rfl := eq_nil_of_space_of_atoms hbefore hfront
    obtain rfl := eq_nil_of_space_of_atoms hafter hback
    rw [List.nil_append, List.append_nil]
    cases hdenotes with
    | word _ _ _ h => exact h
    | list | quoted | literal =>
      rw [List.all_cons, Bool.and_eq_true] at hwritten
      exact absurd hwritten.1 (by decide)
  · exact fun h => ⟨[], run, [], by simp, rfl, rfl, .word hne hatoms rfl h⟩

end MailOutline.Field
