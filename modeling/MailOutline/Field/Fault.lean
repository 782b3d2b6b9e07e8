/-!
# Why a text is not a field

Model of `Error` and of the messages with which `error` is called.

* `Fault`: what is wrong at one place of the text, and `Fault.message`, its wording.
* `ReadError`: a fault with its place, or lists nested beyond the limit of the reader.
-/

namespace MailOutline

/-- What is wrong at one place of the text. -/
inductive Fault where
  /-- The text ends where a value has to start. -/
  | endOfInput
  /-- A closing parenthesis stands where a value has to start. -/
  | closingParenthesis
  /-- A byte that starts no value. -/
  | unexpectedByte (byte : UInt8)
  /-- Something other than white space follows the value. -/
  | trailingData
  /-- The text ends before the list is closed. -/
  | endInList
  /-- The text ends before the quoted string is closed. -/
  | endInQuoted
  /-- A backslash in front of a byte that takes none. -/
  | invalidEscape (byte : UInt8)
  /-- The bytes of a quoted string are not UTF-8. -/
  | quotedNotUtf8
  /-- The size of a literal holds a byte that has no place there. -/
  | literalSizeByte
  /-- The size of a literal is not text. -/
  | literalSizeNotUtf8
  /-- The size of a literal is missing or too large. -/
  | literalSizeNumber
  /-- The size of a literal is not closed. -/
  | literalSizeUnclosed
  /-- The line does not end after the size of a literal. -/
  | literalLineEnd
  /-- The text ends before the literal does. -/
  | literalIncomplete
  /-- The bytes of a literal are not UTF-8. -/
  | literalNotUtf8
  /-- The bytes of an atom are not UTF-8. -/
  | atomNotUtf8
  /-- A number of more than 32 bits. -/
  | numberTooLarge
deriving DecidableEq, Repr

namespace Fault

/-- The two hexadecimal digits of a byte, in lower case. -/
def hexByte (byte : UInt8) : String :=
  String.ofList [Nat.digitChar (byte.toNat / 16), Nat.digitChar (byte.toNat % 16)]

/-- The wording of a fault. An escaped byte is shown as the character with that code. -/
def message : Fault → String
  | endOfInput => "Unexpected EOF"
  | closingParenthesis => "Unexpected closing parenthesis"
  | unexpectedByte byte => "Unexpected character: 0x" ++ hexByte byte
  | trailingData => "Unexpected data after field"
  | endInList => "Unexpected EOF in list"
  | endInQuoted => "Unexpected EOF in quoted string"
  | invalidEscape byte => "Invalid escape: \\" ++ String.singleton (Char.ofNat byte.toNat)
  | quotedNotUtf8 => "Invalid UTF-8 in quoted string"
  | literalSizeByte => "Invalid character in literal size"
  | literalSizeNotUtf8 => "Invalid literal size"
  | literalSizeNumber => "Invalid literal size number"
  | literalSizeUnclosed => "Expected \x7d after literal size"
  | literalLineEnd => "Expected CRLF after literal size"
  | literalIncomplete => "Incomplete literal data"
  | literalNotUtf8 => "Invalid UTF-8 in literal"
  | atomNotUtf8 => "Invalid UTF-8 in atom"
  | numberTooLarge => "Number too large"

end Fault

/-- Why reading a field failed. -/
inductive ReadError where
  /-- The text is malformed: the fault, and how many bytes had been read when it was found. -/
  | malformed (position : Nat) (fault : Fault)
  /-- A list is nested deeper than `limit` levels. -/
  | tooDeep (limit : Nat)
deriving DecidableEq, Repr

namespace ReadError

/-- The wording of a reading error. -/
def message : ReadError → String
  | malformed position fault =>
    "Parse error at position " ++ Nat.repr position ++ ": " ++ fault.message
  | tooDeep limit => "Nesting deeper than " ++ Nat.repr limit ++ " levels"

end ReadError

end MailOutline
