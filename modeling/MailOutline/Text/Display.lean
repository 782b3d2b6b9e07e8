import MailOutline.Text.CaseTable

/-!
# Text for display

The subtype of a multipart is printed in lower case, and a diagnosis quotes its message.

* `lowerChar`: the lower case of one character, which for `İ` is two characters. Characters
  without a lower case stay.
* `toLowercase`: the lower case of a text. A capital sigma at the end of a word becomes `ς`.
* `quoted`: the text between quotes, with every quote and backslash escaped and every character that
  cannot be seen spelled out.
-/

namespace MailOutline.Text

/-! ## Lower case for all letters -/

/-- Whether a character lies in one of some ranges of code points. -/
def inRanges (ranges : List (Nat × Nat)) (c : Char) : Bool :=
  ranges.any fun range => range.1 ≤ c.toNat && c.toNat ≤ range.2

/-- Whether the run has a character with this code point. -/
def CaseRun.contains (run : CaseRun) (n : Nat) : Bool :=
  run.first ≤ n && n ≤ run.last && (n - run.first) % run.step == 0

/-- The lower case of one character. -/
def lowerChar (c : Char) : List Char :=
  if c = 'İ' then ['i', '\u0307']
  else
    match lowerRuns.find? fun run => run.contains c.toNat with
    | some run => [Char.ofNat (c.toNat + run.shift).toNat]
    | none => [c]

/-- Whether the first character that matters is a letter with two cases. -/
def startsCased (text : List Char) : Bool :=
  (text.dropWhile (inRanges ignorableRanges)).head?.any (inRanges casedRanges)

/-- The lower case of a text behind the characters `before`, the last of which comes first. -/
def lowerFrom (before : List Char) : List Char → List Char
  | [] => []
  | c :: rest =>
    let lowered :=
      if c = 'Σ' then [if startsCased before && !startsCased rest then 'ς' else 'σ']
      else lowerChar c
    lowered ++ lowerFrom (c :: before) rest

/-- The lower case of a text. -/
def toLowercase (text : String) : String := String.ofList (lowerFrom [] text.toList)

/-! ## Quotes -/

/-- Whether the character up to U+00FF leaves no mark: a control, a no-break space or a soft
hyphen. -/
def isUnseen (c : Char) : Bool :=
  c.toNat < 0x20 || (0x7F ≤ c.toNat && c.toNat ≤ 0xA0) || c.toNat == 0xAD

/-- The spelling of a character between quotes. -/
def quotedChar (c : Char) : String :=
  match c with
  | '"' => "\\\""
  | '\\' => "\\\\"
  | '\t' => "\\t"
  | '\r' => "\\r"
  | '\n' => "\\n"
  | '\x00' => "\\0"
  | c =>
    if isUnseen c then "\\u\x7b" ++ String.ofList (Nat.toDigits 16 c.toNat) ++ "\x7d"
    else String.singleton c

/-- The text between quotes. -/
def quoted (text : String) : String :=
  "\"" ++ String.join (text.toList.map quotedChar) ++ "\""

end MailOutline.Text
