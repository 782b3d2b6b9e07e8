import MailOutline.Proofs.Mime.Attributes
import MailOutline.Proofs.Specifier

/-!
# MIME entities and their written form

A message as a tree of MIME entities. It has two readings: the field that describes it, in the order
of RFC 3501, and the part that a reader of this field is to get.

* `Mime.Content`: the attributes that every body has.
* `Mime.Entity`: the tree. `Entity.field` is its written form.
* `Entity.part`: its part, with the path of each part as its specifier.
* `Entity.nesting`: how deep multiparts and embedded messages nest inside.
-/

namespace MailOutline.Mime

/-! ## Bodies -/

/-- The attributes that every body has. -/
structure Content where
  mediaType : String
  subtype : String
  params : Option (List (String × String))
  id : Option String
  description : Option String
  encoding : String
  size : UInt32

namespace Content

/-- Whether the body is a text. -/
def isText (content : Content) : Bool := Text.sameLetters content.mediaType "text"

/-- Whether the body is a message. -/
def isMessage (content : Content) : Bool :=
  Text.sameLetters content.mediaType "message" && Text.sameLetters content.subtype "rfc822"

/-- The first seven elements of a body. -/
def fields (content : Content) : List Field :=
  [.atom content.mediaType, .atom content.subtype, paramsField content.params,
    stringField content.id, stringField content.description, .atom content.encoding,
    .number content.size]

/-- The body with these attributes and no others. -/
def leaf (content : Content) (specifier : String) : Leaf where
  mediaType := content.mediaType
  subtype := content.subtype
  params := ⟨Params.grouped (content.params.getD [])⟩
  id := content.id.getD ""
  description := content.description.getD ""
  encoding := content.encoding
  size := content.size
  lineCount := none
  envelope := none
  md5 := none
  disposition := none
  language := none
  location := none
  specifier := specifier

theorem value_leaf?_fields (embedded : Field → Traced (Option Part)) (specifier : String)
    (content : Content) (tail : List Field) :
    (Decoder.leaf? embedded specifier (content.fields ++ tail)).value =
      some (Decoder.leafTail embedded (content.leaf specifier) tail).value := by
  simp only [fields, List.cons_append, List.nil_append, Decoder.value_leaf?_cons,
    asText_stringField, ofPairs_paramsField]
  rfl

end Content

/-! ## The tree -/

/-- A MIME entity: a body, a text, a message with the entity inside it, or a multipart with at
least one part. -/
inductive Entity where
  | basic (content : Content) (notText : content.isText = false)
      (notMessage : content.isMessage = false) (tail : BodyTail)
  | text (content : Content) (isText : content.isText = true) (lines : UInt32) (tail : BodyTail)
  | message (content : Content) (isMessage : content.isMessage = true) (header : Header)
      (inner : Entity) (lines : UInt32) (tail : BodyTail)
  | multipart (first : Entity) (rest : List Entity) (subtype : String) (tail : MultipartTail)

namespace Entity

/-- Whether the entity is a multipart. -/
def isMultipart : Entity → Bool
  | multipart .. => true
  | _ => false

/-! ## The written form -/

mutual

/-- The elements that describe an entity. Those of a multipart begin with the lists of its parts. -/
def items : Entity → List Field
  | basic content _ _ tail => content.fields ++ tail.fields
  | text content _ lines tail => content.fields ++ .number lines :: tail.fields
  | message content _ header inner lines tail =>
    content.fields ++ header.field :: .list inner.items :: .number lines :: tail.fields
  | multipart first rest subtype tail =>
    .list first.items :: (fields rest ++ .atom subtype :: tail.fields)

/-- The fields that describe some entities. -/
def fields : List Entity → List Field
  | [] => []
  | entity :: rest => .list entity.items :: fields rest

end

/-- The field that describes an entity. -/
def field (entity : Entity) : Field := .list entity.items

theorem isMultipart_items (entity : Entity) :
    Decoder.isMultipart entity.items = entity.isMultipart := by
  cases entity <;> rfl

theorem items_ne_nil (entity : Entity) : entity.items ≠ [] := by
  cases entity <;> exact List.cons_ne_nil _ _

/-! ## The part -/

/-- The path of the root: a body there has the number one. -/
def rootPath (entity : Entity) : List Nat := if entity.isMultipart then [] else [1]

mutual

/-- The part that an entity at a path is. The entity inside a message starts a path of its own. -/
def partAt : Entity → List Nat → Part
  | basic content _ _ tail, path => .leaf (tail.attach (content.leaf (Specifier.dotted path))) none
  | text content _ lines tail, path =>
    .leaf (tail.attach { content.leaf (Specifier.dotted path) with lineCount := lines }) none
  | message content _ header inner lines tail, path =>
    .leaf (tail.attach { content.leaf (Specifier.dotted path) with
      envelope := header.envelope
      lineCount := lines }) (partAt inner inner.rootPath)
  | multipart first rest subtype tail, path =>
    .multipart (tail.attach subtype (Specifier.ofText path))
      (partAt first (path ++ [1]) :: partsAt rest path 2)

/-- The parts that some entities are, inside the multipart at a path and numbered from `number`. -/
def partsAt : List Entity → List Nat → Nat → List Part
  | [], _, _ => []
  | entity :: rest, path, number =>
    partAt entity (path ++ [number]) :: partsAt rest path (number + 1)

end

/-- The part that an entity is. -/
def part (entity : Entity) : Part := entity.partAt entity.rootPath

/-! ## Nesting -/

/-- The level that an entity takes as part of a multipart. -/
def level (entity : Entity) : Nat := if entity.isMultipart then 1 else 0

mutual

/-- How deep multiparts and embedded messages nest inside an entity. -/
def nesting : Entity → Nat
  | basic .. => 0
  | text .. => 0
  | message _ _ _ inner _ _ => nesting inner + 1
  | multipart first rest _ _ => max (nesting first + first.level) (nestingAll rest)

/-- How deep multiparts and embedded messages nest among some entities. -/
def nestingAll : List Entity → Nat
  | [] => 0
  | entity :: rest => max (nesting entity + entity.level) (nestingAll rest)

end

end Entity

end MailOutline.Mime
