import MailOutline.Proofs.Grammar.Reading

/-!
# Writing a field

Every field has a canonical text, and reading that text gives the field back. Strings are written in
quotes, whatever they hold: the absent value and numbers are told from strings by the missing
quotes. A string may as well be written as a literal, behind its size in bytes.

* `canonical`: the canonical text of a field.
* `Written`: the texts of a field in which each string is in quotes or a literal
  (`written_canonical`).
* `escaped_quotedChars`: between quotes, characters are escaped one by one and read byte by byte.
* `denotes_of_written`: what is written for a field denotes it. By recursion over what is written.
* `ofBytes_canonical`: what is written is read.
-/

namespace MailOutline.Field

open Text (bytes decimal spelled)

/-! ## Writing -/

/-- How a character is written in quotes: a backslash stands in front of a quote and of a
backslash. -/
def quotedChar (c : Char) : List Char := if c = '"' ∨ c = '\\' then ['\\', c] else [c]

/-- A text in quotes. -/
def inQuotes (text : String) : String :=
  "\"" ++ String.ofList (text.toList.flatMap quotedChar) ++ "\""

mutual

/-- The canonical text of a field. -/
def canonical : Field → String
  | nil => "NIL"
  | atom text => inQuotes text
  | number value => Nat.repr value.toNat
  | list items => "(" ++ canonicalAll items ++ ")"

/-- The canonical texts of some fields, a space between each two. -/
def canonicalAll : List Field → String
  | [] => ""
  | [field] => field.canonical
  | field :: next :: rest => field.canonical ++ " " ++ canonicalAll (next :: rest)

end

/-- `WrittenAtom text written`: the text in quotes, or as a literal behind its size in bytes. A size
has 64 bits. -/
inductive WrittenAtom (text : String) : (written : String) → Prop
  /-- In quotes. -/
  | quoted : WrittenAtom text (inQuotes text)
  /-- As a literal. -/
  | literal (fits : (bytes text).length < UInt64.size) :
      WrittenAtom text ("\x7b" ++ Nat.repr (bytes text).length ++ "\x7d\r\n" ++ text)
  /-- As a literal with a plus sign behind its size. -/
  | plus (fits : (bytes text).length < UInt64.size) :
      WrittenAtom text ("\x7b" ++ Nat.repr (bytes text).length ++ "+\x7d\r\n" ++ text)

mutual

/-- `Written field written`: the canonical text of the field, but each of its strings in quotes or
as a literal. -/
inductive Written : Field → (written : String) → Prop
  /-- The absent value. -/
  | nil : Written .nil "NIL"
  /-- A string. -/
  | atom {text written : String} (h : WrittenAtom text written) : Written (.atom text) written
  /-- A number. -/
  | number (value : UInt32) : Written (.number value) (Nat.repr value.toNat)
  /-- A list. -/
  | list {items : List Field} {written : String} (h : WrittenAll items written) :
      Written (.list items) ("(" ++ written ++ ")")

/-- `WrittenAll items written`: fields one by one, a space between each two. -/
inductive WrittenAll : List Field → (written : String) → Prop
  /-- No field. -/
  | nil : WrittenAll [] ""
  /-- One field. -/
  | one {field : Field} {written : String} (h : Written field written) : WrittenAll [field] written
  /-- A field and more of them. -/
  | more {field next : Field} {rest : List Field} {written others : String}
      (first : Written field written) (h : WrittenAll (next :: rest) others) :
      WrittenAll (field :: next :: rest) (written ++ " " ++ others)

end

mutual

/-- The canonical text is one of the texts of a field. -/
theorem written_canonical : ∀ field : Field, Written field field.canonical
  | .nil => by
    rw [canonical]
    exact .nil
  | .atom text => by
    rw [canonical]
    exact .atom .quoted
  | .number value => by
    rw [canonical]
    exact .number value
  | .list items => by
    rw [canonical]
    exact .list (writtenAll_canonicalAll items)

theorem writtenAll_canonicalAll : ∀ items : List Field, WrittenAll items (canonicalAll items)
  | [] => by
    rw [canonicalAll]
    exact .nil
  | [field] => by
    rw [canonicalAll]
    exact .one (written_canonical field)
  | field :: next :: rest => by
    rw [canonicalAll]
    exact .more (written_canonical field) (writtenAll_canonicalAll (next :: rest))

end

/-! ## Quotes -/

theorem bytes_of_spelled {text : String} {run : List UInt8} (h : text = spelled run)
    (hascii : ∀ byte ∈ run, byte < 0x80) : bytes text = run := by
  rw [h, Text.bytes_spelled hascii]

/-- Bytes that need no backslash stand for themselves. -/
theorem Escaped.append_plain {run written held : List UInt8}
    (hrun : ∀ byte ∈ run, byte ≠ 0x22 ∧ byte ≠ 0x5C) (h : Escaped written held) :
    Escaped (run ++ written) (run ++ held) := by
  induction run with
  | nil => exact h
  | cons byte more ih =>
    obtain ⟨hquote, hslash⟩ := hrun byte List.mem_cons_self
    exact .plain hquote hslash (ih fun b hb => hrun b (List.mem_cons_of_mem byte hb))

/-- Characters that need no backslash hold no byte that needs one. -/
theorem plain_of_mem_utf8EncodeChar {c : Char} (hc : ¬ (c = '"' ∨ c = '\\')) {byte : UInt8}
    (h : byte ∈ String.utf8EncodeChar c) : byte ≠ 0x22 ∧ byte ≠ 0x5C := by
  refine ⟨?_, ?_⟩
  · rintro rfl
    have hsame := Text.toNat_of_mem_utf8EncodeChar h (by decide)
    exact hc (.inl (Char.toNat_inj.1 hsame))
  · rintro rfl
    have hsame := Text.toNat_of_mem_utf8EncodeChar h (by decide)
    exact hc (.inr (Char.toNat_inj.1 hsame))

/-- **Escaped character by character, a text is read byte by byte.** -/
theorem escaped_quotedChars (chars : List Char) :
    Escaped (bytes (String.ofList (chars.flatMap quotedChar))) (bytes (String.ofList chars)) := by
  induction chars with
  | nil => exact .nil
  | cons c rest ih =>
    rw [List.flatMap_cons, quotedChar, Text.bytes_ofList_cons c rest]
    by_cases hc : c = '"' ∨ c = '\\'
    · rw [if_pos hc, List.cons_append, List.cons_append, List.nil_append, Text.bytes_ofList_cons,
        Text.bytes_ofList_cons]
      rcases hc with rfl | rfl
      · exact .escape (.inl rfl) ih
      · exact .escape (.inr rfl) ih
    · rw [if_neg hc, List.cons_append, List.nil_append, Text.bytes_ofList_cons]
      exact .append_plain (fun byte hbyte => plain_of_mem_utf8EncodeChar hc hbyte) ih

theorem denotes_inQuotes (text : String) (behind : List UInt8) :
    Denotes Word (bytes (inQuotes text)) behind (.atom text) := by
  have hquote : bytes "\"" = [0x22] := bytes_of_spelled rfl (by simp)
  have hescaped := escaped_quotedChars text.toList
  rw [String.ofList_toList] at hescaped
  rw [inQuotes, Text.bytes_append, Text.bytes_append, hquote]
  exact .quoted hescaped

/-! ## Literals -/

theorem exists_size (text : String) (fits : (bytes text).length < UInt64.size) :
    ∃ digits, bytes (Nat.repr (bytes text).length) = digits ∧
      IsSize digits (bytes text).length := by
  obtain ⟨digits, hspelled, hne, hall, hdecimal⟩ := Text.exists_digits (bytes text).length
  refine ⟨digits, bytes_of_spelled hspelled fun byte hbyte => ?_, hne, hall, fits, hdecimal⟩
  exact lt_of_isDigit (List.all_eq_true.1 hall byte hbyte)

theorem denotes_writtenAtom {text written : String} (behind : List UInt8)
    (h : WrittenAtom text written) : Denotes Word (bytes written) behind (.atom text) := by
  have hbrace : bytes "\x7b" = [0x7B] := bytes_of_spelled rfl (by simp)
  have hline : bytes "\x7d\r\n" = [0x7D, 0x0D, 0x0A] := bytes_of_spelled rfl (by simp)
  have hplus : bytes "+\x7d\r\n" = [0x2B, 0x7D, 0x0D, 0x0A] := bytes_of_spelled rfl (by simp)
  cases h with
  | quoted => exact denotes_inQuotes text behind
  | literal fits =>
    obtain ⟨digits, hdigits, hsize⟩ := exists_size text fits
    simp only [Text.bytes_append, hbrace, hline, hdigits]
    exact .literal (.line hsize)
  | plus fits =>
    obtain ⟨digits, hdigits, hsize⟩ := exists_size text fits
    simp only [Text.bytes_append, hbrace, hplus, hdigits]
    exact .literal (.plusLine hsize)

/-! ## Words -/

theorem denotes_number (value : UInt32) {behind : List UInt8}
    (hstop : stops isAtomByte behind = true) :
    Denotes Word (bytes (Nat.repr value.toNat)) behind (.number value) := by
  obtain ⟨digits, hspelled, hne, hall, hdecimal⟩ := Text.exists_digits value.toNat
  have hword : Word digits (.number (UInt32.ofNat (decimal digits))) :=
    .number hall (hdecimal ▸ value.toNat_lt)
  rw [hdecimal, UInt32.ofNat_toNat] at hword
  rw [bytes_of_spelled hspelled fun byte hbyte =>
    lt_of_isDigit (List.all_eq_true.1 hall byte hbyte)]
  exact .word hne (all_isAtomByte_of_digits hall) hstop hword

theorem denotes_nil {behind : List UInt8} (hstop : stops isAtomByte behind = true) :
    Denotes Word (bytes "NIL") behind .nil := by
  have hnil : bytes "NIL" = [0x4E, 0x49, 0x4C] := bytes_of_spelled rfl (by simp)
  rw [hnil]
  exact .word (List.cons_ne_nil _ _) rfl hstop (.nil ⟨rfl, Text.sameLetters_refl "NIL"⟩)

/-! ## Values -/

mutual

/-- **What is written for a field denotes it**, in front of anything but an atom byte. -/
theorem denotes_of_written {field : Field} {written : String} {behind : List UInt8}
    (hstop : stops isAtomByte behind = true) :
    Written field written → Denotes Word (bytes written) behind field
  | .nil => denotes_nil hstop
  | .atom h => denotes_writtenAtom behind h
  | .number value => denotes_number value hstop
  | .list h => by
    have hopen : bytes "(" = [0x28] := bytes_of_spelled rfl (by simp)
    have hclose : bytes ")" = [0x29] := bytes_of_spelled rfl (by simp)
    rw [Text.bytes_append, Text.bytes_append, hopen, hclose]
    exact .list (denoteAll_of_writtenAll behind h)

theorem denoteAll_of_writtenAll {fields : List Field} {written : String} (behind : List UInt8) :
    WrittenAll fields written → DenoteAll Word (bytes written) (0x29 :: behind) fields
  | .nil => .nil rfl
  | .one h => by
    have hfirst := denotes_of_written (by rfl : stops isAtomByte (0x29 :: behind) = true) h
    have hall := @DenoteAll.cons Word [] _ [] _ _ _ rfl hfirst (.nil rfl)
    rwa [List.nil_append, List.append_nil] at hall
  | @WrittenAll.more field _ _ written others first h => by
    have hspace : bytes " " = [0x20] := bytes_of_spelled rfl (by simp)
    have hrest := (denoteAll_of_writtenAll behind h).append_space
      (by rfl : [0x20].all isSpace = true)
    have hfirst : Denotes Word (bytes written) ([0x20] ++ bytes others ++ 0x29 :: behind) field :=
      denotes_of_written rfl first
    rw [Text.bytes_append, Text.bytes_append, hspace, List.append_assoc]
    exact @DenoteAll.cons Word [] _ _ _ _ _ rfl hfirst hrest

end

/-! ## Reading what was written -/

theorem ofBytes_of_written {maxDepth : Nat} {field : Field} {written : String}
    (h : Written field written) (hdepth : field.depth ≤ maxDepth) :
    ofBytes maxDepth (bytes written) = .ok field := by
  have hwhole : Whole Word (bytes written) field :=
    ⟨[], bytes written, [], by simp, rfl, rfl, denotes_of_written rfl h⟩
  exact ofBytes_eq_ok_iff_whole.2 (whole_eq_ok_iff.2 ⟨hwhole, hdepth⟩)

/-- **Every field is read as it is written.** The canonical text of a field is read as that field,
within any limit that its lists keep to, and so is every other text in which some of its strings are
literals. So a text that is read may be replaced by the canonical text of the field. -/
theorem ofBytes_canonical (maxDepth : Nat) :
    (∀ field : Field, field.depth ≤ maxDepth →
      ofBytes maxDepth (bytes field.canonical) = .ok field) ∧
    (∀ (field : Field) (written : String), Written field written → field.depth ≤ maxDepth →
      ofBytes maxDepth (bytes written) = .ok field) ∧
    ∀ (input : List UInt8) (field : Field), ofBytes maxDepth input = .ok field →
      ofBytes maxDepth (bytes field.canonical) = .ok field := by
  refine ⟨fun field hdepth => ofBytes_of_written (written_canonical field) hdepth,
    fun field written h hdepth => ofBytes_of_written h hdepth, fun input field hread => ?_⟩
  obtain ⟨-, hdepth⟩ := whole_eq_ok_iff.1 (ofBytes_eq_ok_iff_whole.1 hread)
  exact ofBytes_of_written (written_canonical field) hdepth

/-- A string that looks like the absent value, one with a quote behind a letter of two bytes, the
empty string, and a number. -/
def mixedField : Field := .list [.atom "NIL", .list [.atom "é\"", .atom ""], .number 42]

theorem written_mixedField :
    Written mixedField "(\"NIL\" (\x7b3+\x7d\r\né\" \x7b0\x7d\r\n) 42)" := by
  have hlong : Written (.atom "é\"") "\x7b3+\x7d\r\né\"" := .atom (.plus (by decide))
  have hempty : Written (.atom "") "\x7b0\x7d\r\n" := .atom (.literal (by decide))
  exact .list
    (.more (.atom .quoted) (.more (.list (.more hlong (.one hempty))) (.one (.number 42))))

/-- The field is read from its canonical text, and from another one with two literals. -/
theorem ofBytes_canonical_mixed :
    ofBytes 2 (bytes "(\"NIL\" (\"é\\\"\" \"\") 42)") = .ok mixedField ∧
      ofBytes 2 (bytes "(\"NIL\" (\x7b3+\x7d\r\né\" \x7b0\x7d\r\n) 42)") = .ok mixedField := by
  have hcanonical : mixedField.canonical = "(\"NIL\" (\"é\\\"\" \"\") 42)" := by
    simp only [mixedField, canonical, canonicalAll]
    decide
  have hread := (ofBytes_canonical 2).2.1 mixedField _ written_mixedField (by decide)
  have hagain := (ofBytes_canonical 2).2.2 _ mixedField hread
  rw [hcanonical] at hagain
  exact ⟨hagain, hread⟩

end MailOutline.Field
