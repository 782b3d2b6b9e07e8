import MailOutline.Part.Basic

/-!
# Extension data

Behind the fixed elements of a part comes its extension data: attributes in a fixed order, which may
stop after any of them. What follows the last known one is reported and ignored.

Model of `Extension`, `BODY_EXTENSIONS`, `MULTIPART_EXTENSIONS` and `decode_extensions`.

* `Extension`: one such attribute.
* `Extension.readAll`: the attributes of a tail. An empty tail changes nothing.
* `Leaf.extensions`, `Multipart.extensions`: the extension data of the two kinds of parts.
-/

namespace MailOutline

/-- An attribute that may stand in the extension data of a part. -/
structure Extension (α : Type) where
  /-- Its name. -/
  name : String
  /-- The part with the attribute that a field denotes. -/
  read : Field → α → Traced α

namespace Extension

variable {α : Type}

/-- The part with the attributes that the elements of a tail denote, one by one. -/
def readAll : List (Extension α) → List Field → α → Traced α
  | _, [], part => return part
  | [], tail, part => do
    .report (.unknownExtensions tail.length)
    return part
  | extension :: more, field :: tail, part => do
    .report (@Event.extensionData extension.name field)
    let part ← extension.read field part
    readAll more tail part

end Extension

namespace Leaf

/-- The extension data of a body: its digest, disposition, language and location. -/
def extensions : List (Extension Leaf) :=
  [⟨"md5", fun field leaf => return { leaf with md5 := field.asText? }⟩,
   ⟨"disposition", fun field leaf => do
      let disposition ← Disposition.ofFields? field.asList
      return { leaf with disposition }⟩,
   ⟨"language", fun field leaf => return { leaf with language := languagesOf? field }⟩,
   ⟨"location", fun field leaf => return { leaf with location := field.asText? }⟩]

end Leaf

namespace Multipart

/-- The parameters that a field denotes, which has to be a list. -/
def readParams? (field : Field) : Traced (Option Params) :=
  if field.isList then some <$> Params.ofFields field.asList else return none

/-- The extension data of a multipart: its parameters, disposition and language. -/
def extensions : List (Extension Multipart) :=
  [⟨"parameters", fun field multipart => do
      let params ← readParams? field
      return { multipart with params }⟩,
   ⟨"disposition", fun field multipart => do
      let disposition ← Disposition.ofFields? field.asList
      return { multipart with disposition }⟩,
   ⟨"language", fun field multipart => return { multipart with language := languagesOf? field }⟩]

end Multipart

end MailOutline
