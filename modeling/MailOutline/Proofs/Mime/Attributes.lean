import MailOutline.Proofs.Decoding
import MailOutline.Proofs.Grouping

/-!
# The attributes of MIME entities and their written form

The attributes of a message and its parts, apart from any way to write them down. Each has two
readings: the field that RFC 3501 writes for it, and the attribute that a reader of this field is to
get.

* `Mime.Mailbox`, `Mime.Header`: addresses and envelopes (`Header.value_ofField?`).
* `Mime.Presentation`, `Mime.Tags`: dispositions and languages (`Presentation.value_ofFields?`,
  `Tags.languagesOf?_field`).
* `Mime.BodyTail`, `Mime.MultipartTail`: extension data, cut off after any number of positions
  (`BodyTail.extend_fields`, `MultipartTail.ofBehind_fields`).
-/

namespace MailOutline.Mime

/-! ## Strings and parameters -/

/-- A string, or `NIL` where there is none. -/
def stringField : Option String → Field
  | none => .nil
  | some text => .atom text

/-- Keys and values in turn. -/
def pairFields : List (String × String) → List Field
  | [] => []
  | (key, value) :: rest => .atom key :: .atom value :: pairFields rest

/-- A list of keys and values, or `NIL` where there is none. -/
def paramsField : Option (List (String × String)) → Field
  | none => .nil
  | some pairs => .list (pairFields pairs)

@[simp] theorem asText_stringField (text : Option String) :
    (stringField text).asText = text.getD "" := by
  cases text <;> rfl

@[simp] theorem asText?_stringField (text : Option String) : (stringField text).asText? = text := by
  cases text <;> rfl

theorem pairsOf_pairFields (pairs : List (String × String)) :
    Params.pairsOf (pairFields pairs) = pairs := by
  induction pairs with
  | nil => rfl
  | cons pair rest ih => rw [pairFields, Params.pairsOf, ih]; rfl

theorem ofPairs_paramsField (pairs : Option (List (String × String))) :
    Params.ofPairs (Params.pairsOf (paramsField pairs).asList) =
      ⟨Params.grouped (pairs.getD [])⟩ := by
  cases pairs with
  | none => rfl
  | some pairs => rw [paramsField, Field.asList, pairsOf_pairFields, Params.ofPairs_eq_grouped]; rfl

/-! ## Headers -/

/-- An address, any part of which may be missing. -/
structure Mailbox where
  name : Option String
  route : Option String
  mailbox : Option String
  host : Option String

namespace Mailbox

/-- The four elements of an address. -/
def field (mailbox : Mailbox) : Field :=
  .list [stringField mailbox.name, stringField mailbox.route, stringField mailbox.mailbox,
    stringField mailbox.host]

/-- The mailbox and the host with an at sign between them, if neither is missing or empty. -/
def spec? (mailbox : Mailbox) : Option String :=
  match mailbox.mailbox, mailbox.host with
  | some box, some host => if box = "" ∨ host = "" then none else some (box ++ "@" ++ host)
  | _, _ => none

/-- The address with an empty text for each missing part. -/
def address (mailbox : Mailbox) : Address where
  name := mailbox.name.getD ""
  route := mailbox.route.getD ""
  mailbox := mailbox.mailbox.getD ""
  host := mailbox.host.getD ""
  spec := mailbox.spec?

/-- A list of addresses, or `NIL` where there is none. -/
def listField : Option (List Mailbox) → Field
  | none => .nil
  | some mailboxes => .list (mailboxes.map field)

/-- A part that is missing reads as an empty text, and neither makes an address. -/
theorem specOf_getD (mailbox : Mailbox) :
    Address.specOf (mailbox.mailbox.getD "") (mailbox.host.getD "") = mailbox.spec? := by
  obtain ⟨name, route, box, host⟩ := mailbox
  unfold Address.specOf spec?
  cases box with
  | none => exact if_neg fun hboth => hboth.1 rfl
  | some box =>
    cases host with
    | none => exact if_neg fun hboth => hboth.2 rfl
    | some host => simp only [Option.getD_some, ne_eq, ← not_or, ite_not]

theorem value_ofField (mailbox : Mailbox) :
    (Address.ofField mailbox.field).value = mailbox.address := by
  simp only [Address.ofField, field, Field.asList, asText_stringField, Traced.value_pure, address,
    Address.ofParts, specOf_getD]

theorem value_listOfField (mailboxes : Option (List Mailbox)) :
    (Address.listOfField (listField mailboxes)).value = (mailboxes.getD []).map address := by
  rw [Address.listOfField, Address.value_listOfFields]
  cases mailboxes with
  | none => rfl
  | some mailboxes =>
    have hlists : (mailboxes.map field).filter Field.isList = mailboxes.map field :=
      List.filter_eq_self.2 fun field hfield => by
        obtain ⟨mailbox, -, rfl⟩ := List.mem_map.1 hfield
        rfl
    rw [listField, Field.asList, hlists, List.map_map, Option.getD_some]
    exact List.map_congr_left fun mailbox _ => value_ofField mailbox

end Mailbox

/-- The header of an embedded message, as far as its envelope tells it. -/
structure Header where
  date : Option String
  subject : Option String
  authors : Option (List Mailbox)
  sender : Option (List Mailbox)
  replyTo : Option (List Mailbox)
  recipients : Option (List Mailbox)
  cc : Option (List Mailbox)
  bcc : Option (List Mailbox)
  inReplyTo : Option String
  messageId : Option String

namespace Header

/-- The ten elements of an envelope. -/
def field (header : Header) : Field :=
  .list [stringField header.date, stringField header.subject, Mailbox.listField header.authors,
    Mailbox.listField header.sender, Mailbox.listField header.replyTo,
    Mailbox.listField header.recipients, Mailbox.listField header.cc, Mailbox.listField header.bcc,
    stringField header.inReplyTo, stringField header.messageId]

/-- The envelope, with an empty text or list for what is missing. -/
def envelope (header : Header) : Envelope where
  date := header.date.bind Calendar.Timestamp.ofText?
  dateText := header.date.getD ""
  subject := header.subject.getD ""
  authors := (header.authors.getD []).map Mailbox.address
  sender := (header.sender.getD []).map Mailbox.address
  replyTo := (header.replyTo.getD []).map Mailbox.address
  recipients := (header.recipients.getD []).map Mailbox.address
  cc := (header.cc.getD []).map Mailbox.address
  bcc := (header.bcc.getD []).map Mailbox.address
  inReplyTo := header.inReplyTo.getD ""
  messageId := header.messageId.getD ""

theorem ofText?_getD (date : Option String) :
    Calendar.Timestamp.ofText? (date.getD "") = date.bind Calendar.Timestamp.ofText? := by
  cases date with
  | none => decide
  | some text => rfl

theorem value_ofField? (header : Header) :
    (Envelope.ofField? header.field).value = some header.envelope := by
  simp only [Envelope.ofField?, field, Field.asList, asText_stringField, Traced.value_bind,
    Traced.value_pure, Envelope.value_readDate, Mailbox.value_listOfField, ofText?_getD, envelope]

end Header

/-! ## Extension data -/

/-- A disposition, whose attributes may be missing. -/
structure Presentation where
  kind : String
  attributes : Option (List (String × String))

namespace Presentation

/-- A pair of a kind and attributes, or `NIL` where there is none. -/
def field : Option Presentation → Field
  | none => .nil
  | some presentation => .list [.atom presentation.kind, paramsField presentation.attributes]

/-- The disposition, with its attributes grouped. -/
def disposition (presentation : Presentation) : Disposition :=
  ⟨presentation.kind, ⟨Params.grouped (presentation.attributes.getD [])⟩⟩

theorem value_ofFields? (presentation : Option Presentation) :
    (Disposition.ofFields? (field presentation).asList).value = presentation.map disposition := by
  cases presentation with
  | none => rfl
  | some presentation =>
    have hshape : ((paramsField presentation.attributes).isList ||
        (paramsField presentation.attributes).isNil) = true := by
      cases presentation.attributes <;> rfl
    change (Disposition.ofFields? [.atom presentation.kind,
      paramsField presentation.attributes]).value = _
    simp only [Disposition.ofFields?, hshape, if_true, Traced.value_bind, Traced.value_pure,
      Params.value_ofFields, ofPairs_paramsField]
    rfl

end Presentation

/-- The languages of a body: a single tag, or a list of them. An empty tag needs a list, since
alone it stands for no language. -/
inductive Tags where
  | one (tag : String) (nonempty : tag ≠ "")
  | many (tags : List String)

namespace Tags

/-- A tag, a list of tags, or `NIL` where there is none. -/
def field : Option Tags → Field
  | none => .nil
  | some (one tag _) => .atom tag
  | some (many tags) => .list (tags.map .atom)

/-- The tags as a list. -/
def toList : Tags → List String
  | one tag _ => [tag]
  | many tags => tags

theorem languagesOf?_field (tags : Option Tags) : languagesOf? (field tags) = tags.map toList := by
  match tags with
  | none => rfl
  | some (one tag nonempty) => exact if_neg nonempty
  | some (many tags) =>
    rw [field, languagesOf?, List.map_map, Option.map_some, toList]
    exact congrArg some (List.map_id tags)

end Tags

/-- The value of an attribute, if its position is among the first `kept` ones. -/
def upTo {α : Type} (kept position : Nat) (value : Option α) : Option α :=
  if position < kept then value else none

/-- What the elements of a cut tail say about an attribute. -/
theorem getElem?_take_map {α : Type} (fields : List Field) (kept position : Nat) (field : Field)
    (hfield : fields[position]? = some field) (read : Field → Option α) :
    ((fields.take kept)[position]?.map read).getD none = upTo kept position (read field) := by
  rw [List.getElem?_take, upTo]
  split
  · rw [hfield]; rfl
  · rfl

/-- The extension data of a body, of which the first `kept` positions are written. -/
structure BodyTail where
  md5 : Option String
  disposition : Option Presentation
  language : Option Tags
  location : Option String
  kept : Nat

namespace BodyTail

/-- The positions that are written. -/
def fields (tail : BodyTail) : List Field :=
  [stringField tail.md5, Presentation.field tail.disposition, Tags.field tail.language,
    stringField tail.location].take tail.kept

/-- The body with the attributes that are written. -/
def attach (tail : BodyTail) (leaf : Leaf) : Leaf :=
  { leaf with
    md5 := upTo tail.kept 0 tail.md5
    disposition := upTo tail.kept 1 (tail.disposition.map Presentation.disposition)
    language := upTo tail.kept 2 (tail.language.map Tags.toList)
    location := upTo tail.kept 3 tail.location }

theorem extend_fields (tail : BodyTail) {leaf : Leaf} (hmd5 : leaf.md5 = none)
    (hdisposition : leaf.disposition = none) (hlanguage : leaf.language = none)
    (hlocation : leaf.location = none) : leaf.extend tail.fields = tail.attach leaf := by
  rw [Leaf.extend, hmd5, hdisposition, hlanguage, hlocation, fields,
    getElem?_take_map _ _ _ _ rfl, getElem?_take_map _ _ _ _ rfl, getElem?_take_map _ _ _ _ rfl,
    getElem?_take_map _ _ _ _ rfl, asText?_stringField, asText?_stringField,
    Presentation.value_ofFields?, Tags.languagesOf?_field]
  rfl

end BodyTail

/-- The extension data of a multipart, of which the first `kept` positions are written. -/
structure MultipartTail where
  params : Option (List (String × String))
  disposition : Option Presentation
  language : Option Tags
  kept : Nat

namespace MultipartTail

/-- The positions that are written. -/
def fields (tail : MultipartTail) : List Field :=
  [paramsField tail.params, Presentation.field tail.disposition,
    Tags.field tail.language].take tail.kept

/-- The attributes of a multipart with this tail. -/
def attach (tail : MultipartTail) (subtype specifier : String) : Multipart where
  subtype := subtype
  params := upTo tail.kept 0 (tail.params.map fun pairs => ⟨Params.grouped pairs⟩)
  disposition := upTo tail.kept 1 (tail.disposition.map Presentation.disposition)
  language := upTo tail.kept 2 (tail.language.map Tags.toList)
  location := none
  specifier := specifier

theorem paramsOf?_paramsField (pairs : Option (List (String × String))) :
    Multipart.paramsOf? (paramsField pairs) = pairs.map fun pairs => ⟨Params.grouped pairs⟩ := by
  cases pairs with
  | none => rfl
  | some pairs =>
    rw [Multipart.paramsOf?, if_pos (by rfl), ofPairs_paramsField]
    rfl

theorem ofBehind_fields (tail : MultipartTail) (subtype specifier : String) :
    Multipart.ofBehind specifier (.atom subtype :: tail.fields) =
      tail.attach subtype specifier := by
  rw [Multipart.ofBehind, Multipart.extend, List.tail_cons, fields,
    getElem?_take_map _ _ _ _ rfl, getElem?_take_map _ _ _ _ rfl, getElem?_take_map _ _ _ _ rfl,
    paramsOf?_paramsField, Presentation.value_ofFields?, Tags.languagesOf?_field]
  rfl

end MultipartTail

end MailOutline.Mime
