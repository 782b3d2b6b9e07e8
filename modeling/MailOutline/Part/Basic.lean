import MailOutline.Attribute.Disposition
import MailOutline.Envelope

/-!
# The parts of a message

A message is a tree of parts. A leaf is a body; a multipart holds other parts. A leaf that is
itself a message may also hold the structure of that message, whose parts are numbered anew.

Model of `MessagePart`, `PartType`, `BodyPart` and `Multipart` with `part_type`, `section`,
`as_body`, `mime_type`, `is_attachment` and `filename`.

* `Leaf`, `Multipart`: the attributes of a body and of a multipart.
* `Part`: the tree.
* `Leaf.mimeType`, `Leaf.isAttachment`, `Leaf.filename?`: what a reader of mail asks of a body.
-/

namespace MailOutline

/-- The attributes of a body. -/
structure Leaf where
  /-- The type, such as `TEXT`. -/
  mediaType : String
  /-- The subtype, such as `PLAIN`. -/
  subtype : String
  /-- The parameters of the content type. -/
  params : Params
  /-- The identifier of the content. -/
  id : String
  /-- The description of the content. -/
  description : String
  /-- The transfer encoding. -/
  encoding : String
  /-- The number of bytes in the transfer encoding. -/
  size : UInt32
  /-- The number of lines of a text or a message. -/
  lineCount : Option UInt32
  /-- The envelope of a message. -/
  envelope : Option Envelope
  /-- The digest of the content. -/
  md5 : Option String
  /-- How to present the part. -/
  disposition : Option Disposition
  /-- The language tags. -/
  language : Option (List String)
  /-- The location of the content. -/
  location : Option String
  /-- The name under which the part is fetched, such as `1.2`. -/
  specifier : String
deriving DecidableEq, Repr

/-- The attributes of a multipart, its parts apart. -/
structure Multipart where
  /-- The subtype, such as `MIXED`. -/
  subtype : String
  /-- The parameters of the content type. -/
  params : Option Params
  /-- How to present the part. -/
  disposition : Option Disposition
  /-- The language tags. -/
  language : Option (List String)
  /-- The location of the content. -/
  location : Option String
  /-- The name under which its text is fetched, such as `2.TEXT`. -/
  specifier : String
deriving DecidableEq, Repr

/-- A part of a message, with all parts inside it. -/
inductive Part where
  /-- A body. If it is a message, `embedded` is the structure of that message. -/
  | leaf (info : Leaf) (embedded : Option Part)
  /-- A multipart with its parts in order. -/
  | multipart (info : Multipart) (parts : List Part)

/-- The kinds of parts. -/
inductive PartKind where
  /-- A body. -/
  | body
  /-- A multipart. -/
  | multipart
deriving DecidableEq, Repr

namespace Part

/-- The kind of a part. -/
def kind : Part → PartKind
  | leaf .. => .body
  | multipart .. => .multipart

/-- The name under which a part is fetched. -/
def specifier : Part → String
  | leaf info _ => info.specifier
  | multipart info _ => info.specifier

/-- The attributes of a part that is a body. -/
def leaf? : Part → Option Leaf
  | leaf info _ => some info
  | multipart .. => none

end Part

namespace Leaf

/-- The type and the subtype in lower case. -/
def mimeType (leaf : Leaf) : String := Text.lower (leaf.mediaType ++ "/" ++ leaf.subtype)

/-- Whether the body is to be saved, not shown. -/
def isAttachment (leaf : Leaf) : Bool := leaf.disposition.any Disposition.isAttachment

/-- The file name of the disposition, or else the name among the parameters. -/
def filename? (leaf : Leaf) : Option String :=
  (leaf.disposition.bind fun disposition => disposition.attributes.get? "filename").or
    (leaf.params.get? "name")

end Leaf

end MailOutline
