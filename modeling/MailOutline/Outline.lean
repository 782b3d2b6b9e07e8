import MailOutline.Field.Reader
import MailOutline.Part.Decoder
import MailOutline.Part.Walk
import MailOutline.Text.Display

/-!
# The outline of a message

Prints the parts of a body structure, one line for each, indented by their depth, with the specifier
that fetches the part. Below a multipart stands the number of its attachments.

Model of `print_part` and `main`.

* `Outline.lines`: the lines of a part and of all parts inside it, embedded messages included.
* `Outline.ofText`: what the program answers to the text of a body structure.
* `Outline.ofBytes`: the same for a text that is still to be decoded.
-/

namespace MailOutline.Outline

/-- What a program leaves behind: its exit code, and what it wrote to its two outputs. -/
structure Report where
  /-- The exit code. -/
  exitCode : UInt32
  /-- The text of the standard output. -/
  output : String
  /-- The text of the error output. -/
  errors : String
deriving DecidableEq, Repr

/-! ## Lines -/

/-- The blanks in front of a line at a depth. -/
def pad (depth : Nat) : String := String.ofList (List.replicate (2 * depth) ' ')

/-- The line of a body. -/
def leafLine (leaf : Leaf) : String :=
  "[" ++ leaf.specifier ++ "] " ++ leaf.mimeType ++ " " ++ Nat.repr leaf.size.toNat ++ " bytes" ++
    (match leaf.filename? with
    | some name => " \"" ++ name ++ "\""
    | none => "") ++
    if leaf.isAttachment then " (attachment)" else ""

/-- The line of a multipart. -/
def multipartLine (multipart : Multipart) : String :=
  "[" ++ multipart.specifier ++ "] multipart/" ++ Text.toLowercase multipart.subtype

mutual

/-- The lines of a part and of all parts inside it. -/
def lines (depth : Nat) : Part → List String
  | .leaf info none => [pad depth ++ leafLine info]
  | .leaf info (some embedded) => (pad depth ++ leafLine info) :: lines (depth + 1) embedded
  | .multipart info parts => (pad depth ++ multipartLine info) :: linesAll (depth + 1) parts

/-- The lines of some parts, one after the other. -/
def linesAll (depth : Nat) : List Part → List String
  | [] => []
  | part :: rest => lines depth part ++ linesAll depth rest

end

/-- The lines below the parts: the number of attachments of a multipart. -/
def summary : Part → List String
  | .leaf .. => []
  | .multipart _ parts =>
    ["", Nat.repr (Part.attachments parts).length ++ " attachment(s)"]

/-! ## Answers -/

/-- Lines as a text, each with its end. -/
def joinLines (lines : List String) : String := String.join (lines.map (· ++ "\n"))

/-- The answer to a failure. -/
def failure (message : String) : Report := ⟨1, "", joinLines [message]⟩

/-- The diagnosis of a reading error. -/
def diagnosis : ReadError → String
  | .malformed position fault =>
    "Error: Parse \x7b position: " ++ Nat.repr position ++ ", message: " ++
      Text.quoted fault.message ++ " \x7d"
  | .tooDeep limit => "Error: NestingTooDeep \x7b limit: " ++ Nat.repr limit ++ " \x7d"

/-- The diagnosis of a text that is not UTF-8. -/
def notUtf8 : String :=
  "Error: Error \x7b kind: InvalidData, message: " ++
    Text.quoted "stream did not contain valid UTF-8" ++ " \x7d"

/-- The answer to the text of a body structure. -/
def ofText (text : String) : Report :=
  match Field.ofBytes Reader.defaultMaxDepth (Text.bytes text) with
  | .error error => failure (diagnosis error)
  | .ok field =>
    match ((Decoder.build none).part? field).value with
    | none => failure "Not a body structure"
    | some part => ⟨0, joinLines (lines 0 part ++ summary part), ""⟩

/-- The answer to the bytes of a body structure. -/
def ofBytes (bytes : List UInt8) : Report :=
  match Text.ofBytes? bytes with
  | none => failure notUtf8
  | some text => ofText text

end MailOutline.Outline
