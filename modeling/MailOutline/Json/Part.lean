import MailOutline.Json.Record
import MailOutline.Part.Basic

/-!
# Parts as JSON

A part names its alternative, `Body` or `Multipart`, with the record of its attributes. The record
of a body holds the structure of an embedded message, that of a multipart its parts.

Model of the derived serialization of `MessagePart`, `PartType`, `BodyPart` and `Multipart`.

* `Part.toJson`, `Part.ofJson?`: a part with all parts inside it.
* `Leaf.toJson`, `Multipart.toJson`: the two records.
* `PartKind.toJson`, `PartKind.ofJson?`: the name of a kind.
-/

namespace MailOutline

open Json (required? optional? members?)

/-! ## Kinds -/

namespace PartKind

/-- The name of a kind. -/
def name : PartKind → String
  | body => "Body"
  | multipart => "Multipart"

/-- A kind as JSON. -/
def toJson (kind : PartKind) : Json := .text kind.name

/-- The kind that a value denotes. -/
def ofJson? (json : Json) : Option PartKind :=
  match json.variant? with
  | some ("Body", held) => if Json.isUnit held then some .body else none
  | some ("Multipart", held) => if Json.isUnit held then some .multipart else none
  | _ => none

end PartKind

/-! ## The record of a body -/

namespace Leaf

/-- The names of the members of the record of a body. -/
def memberNames : List String :=
  ["media_type", "subtype", "params", "id", "description", "encoding", "size", "line_count",
   "envelope", "body_structure", "md5", "disposition", "language", "location", "section"]

/-- The record of a body, with the structure of an embedded message. -/
def toJson (leaf : Leaf) (embedded : Json) : Json :=
  .object
    [("media_type", .text leaf.mediaType),
     ("subtype", .text leaf.subtype),
     ("params", leaf.params.toJson),
     ("id", .text leaf.id),
     ("description", .text leaf.description),
     ("encoding", .text leaf.encoding),
     ("size", .ofWord leaf.size),
     ("line_count", .ofOption .ofWord leaf.lineCount),
     ("envelope", .ofOption Envelope.toJson leaf.envelope),
     ("body_structure", embedded),
     ("md5", .ofOption .text leaf.md5),
     ("disposition", .ofOption Disposition.toJson leaf.disposition),
     ("language", .ofOption (.ofList .text) leaf.language),
     ("location", .ofOption .text leaf.location),
     ("section", .text leaf.specifier)]

/-- The body that a record denotes, with the structure of an embedded message, read by `part?`. -/
def ofJson? (part? : Json → Option Part) (json : Json) : Option (Leaf × Option Part) := do
  match ← members? memberNames json with
  | [mediaType, subtype, params, id, description, encoding, size, lineCount, envelope, embedded,
     md5, disposition, language, location, specifier] =>
    let leaf : Leaf := {
      mediaType := ← required? Json.text? mediaType
      subtype := ← required? Json.text? subtype
      params := ← required? Params.ofJson? params
      id := ← required? Json.text? id
      description := ← required? Json.text? description
      encoding := ← required? Json.text? encoding
      size := ← required? Json.word? size
      lineCount := ← optional? Json.word? lineCount
      envelope := ← optional? Envelope.ofJson? envelope
      md5 := ← optional? Json.text? md5
      disposition := ← optional? Disposition.ofJson? disposition
      language := ← optional? (Json.listOf? Json.text?) language
      location := ← optional? Json.text? location
      specifier := ← required? Json.text? specifier }
    return (leaf, ← optional? part? embedded)
  | _ => none

end Leaf

/-! ## The record of a multipart -/

namespace Multipart

/-- The names of the members of the record of a multipart. -/
def memberNames : List String :=
  ["subtype", "parts", "params", "disposition", "language", "location", "section"]

/-- The record of a multipart, with its parts. -/
def toJson (multipart : Multipart) (parts : List Json) : Json :=
  .object
    [("subtype", .text multipart.subtype),
     ("parts", .array parts),
     ("params", .ofOption Params.toJson multipart.params),
     ("disposition", .ofOption Disposition.toJson multipart.disposition),
     ("language", .ofOption (.ofList .text) multipart.language),
     ("location", .ofOption .text multipart.location),
     ("section", .text multipart.specifier)]

/-- The multipart that a record denotes, with its parts, read by `part?`. -/
def ofJson? (part? : Json → Option Part) (json : Json) : Option (Multipart × List Part) := do
  match ← members? memberNames json with
  | [subtype, parts, params, disposition, language, location, specifier] =>
    let multipart : Multipart := {
      subtype := ← required? Json.text? subtype
      params := ← optional? Params.ofJson? params
      disposition := ← optional? Disposition.ofJson? disposition
      language := ← optional? (Json.listOf? Json.text?) language
      location := ← optional? Json.text? location
      specifier := ← required? Json.text? specifier }
    return (multipart, ← required? (Json.listOf? part?) parts)
  | _ => none

end Multipart

/-! ## Parts -/

namespace Part

mutual

/-- A part as JSON. -/
def toJson : Part → Json
  | leaf info none => .ofVariant PartKind.body.name (info.toJson .null)
  | leaf info (some embedded) => .ofVariant PartKind.body.name (info.toJson embedded.toJson)
  | multipart info parts => .ofVariant PartKind.multipart.name (info.toJson (toJsonAll parts))

/-- Parts as JSON, one by one. -/
def toJsonAll : List Part → List Json
  | [] => []
  | part :: rest => part.toJson :: toJsonAll rest

end

theorem toJsonAll_eq_map (parts : List Part) : toJsonAll parts = parts.map toJson := by
  induction parts with
  | nil => rfl
  | cons part rest ih => rw [toJsonAll, ih, List.map_cons]

/-- The part that a value denotes, if it nests at most `levels` deep. -/
def readJson? : (levels : Nat) → Json → Option Part
  | 0, _ => none
  | levels + 1, json =>
    match json.variant? with
    | some ("Body", some held) =>
      (Leaf.ofJson? (readJson? levels) held).map fun (info, embedded) => leaf info embedded
    | some ("Multipart", some held) =>
      (Multipart.ofJson? (readJson? levels) held).map fun (info, parts) => multipart info parts
    | _ => none

/-- The part that a value denotes. -/
def ofJson? (json : Json) : Option Part := readJson? (json.depth + 1) json

end Part

end MailOutline
