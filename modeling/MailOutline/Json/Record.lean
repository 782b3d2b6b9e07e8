import MailOutline.Calendar.Rfc3339
import MailOutline.Envelope
import MailOutline.Attribute.Disposition
import MailOutline.Json.Value

/-!
# Fields, attributes and envelopes as JSON

Records are objects. A member that may be absent is null. A timestamp is a text in the standard
form, with `Z` for universal time. Each `toJson` comes with a reader `ofJson?`.

Model of the derived serialization of `Field`, `Params`, `Disposition`, `Address` and `Envelope`.

* `Field.toJson`, `Field.ofJson?`: a field names its alternative, `"Nil"` alone or an object with
  one member such as `Atom`.
* `Params`, `Disposition`, `Address` and `Envelope` likewise.
-/

namespace MailOutline

open Calendar (Timestamp)
open Json (required? optional? members?)

/-! ## Fields -/

namespace Field

mutual

/-- A field as JSON. -/
def toJson : Field → Json
  | nil => .text "Nil"
  | atom value => .ofVariant "Atom" (.text value)
  | number value => .ofVariant "Number" (.ofWord value)
  | list items => .ofVariant "List" (.array (toJsonAll items))

/-- Fields as JSON, one by one. -/
def toJsonAll : List Field → List Json
  | [] => []
  | field :: rest => field.toJson :: toJsonAll rest

end

theorem toJsonAll_eq_map (items : List Field) : toJsonAll items = items.map toJson := by
  induction items with
  | nil => rfl
  | cons field rest ih => rw [toJsonAll, ih, List.map_cons]

/-- The field that a value denotes, if it nests at most `levels` deep. -/
def readJson? : (levels : Nat) → Json → Option Field
  | 0, _ => none
  | levels + 1, json =>
    match json.variant? with
    | some ("Nil", held) => if Json.isUnit held then some .nil else none
    | some ("Atom", some held) => held.text?.map atom
    | some ("Number", some held) => held.word?.map number
    | some ("List", some held) => (held.listOf? (readJson? levels)).map list
    | _ => none

/-- The field that a value denotes. -/
def ofJson? (json : Json) : Option Field := readJson? (json.depth + 1) json

end Field

/-! ## Attributes -/

namespace Params

/-- A key with its values as JSON. -/
def entryToJson (entry : String × List String) : Json :=
  .array [.text entry.1, .ofList .text entry.2]

/-- Parameters as JSON. -/
def toJson (params : Params) : Json :=
  .object [("entries", .ofList entryToJson params.entries)]

/-- The key with its values that a value denotes. -/
def entryOfJson? : Json → Option (String × List String)
  | .array [key, values] => do return (← key.text?, ← values.listOf? Json.text?)
  | _ => none

/-- The parameters that a value denotes. -/
def ofJson? (json : Json) : Option Params := do
  match ← members? ["entries"] json with
  | [entries] => return ⟨← required? (Json.listOf? entryOfJson?) entries⟩
  | _ => none

end Params

namespace Disposition

/-- A disposition as JSON. -/
def toJson (disposition : Disposition) : Json :=
  .object [("kind", .text disposition.kind), ("attributes", disposition.attributes.toJson)]

/-- The disposition that a value denotes. -/
def ofJson? (json : Json) : Option Disposition := do
  match ← members? ["kind", "attributes"] json with
  | [kind, attributes] =>
    return ⟨← required? Json.text? kind, ← required? Params.ofJson? attributes⟩
  | _ => none

end Disposition

namespace Address

/-- An address as JSON. -/
def toJson (address : Address) : Json :=
  .object
    [("name", .text address.name),
     ("adl", .text address.route),
     ("mailbox", .text address.mailbox),
     ("host", .text address.host),
     ("address", .ofOption .text address.spec)]

/-- The address that a value denotes. -/
def ofJson? (json : Json) : Option Address := do
  match ← members? ["name", "adl", "mailbox", "host", "address"] json with
  | [name, route, mailbox, host, spec] =>
    return {
      name := ← required? Json.text? name
      route := ← required? Json.text? route
      mailbox := ← required? Json.text? mailbox
      host := ← required? Json.text? host
      spec := ← optional? Json.text? spec }
  | _ => none

end Address

/-! ## Envelopes -/

/-- A timestamp as JSON. -/
def Calendar.Timestamp.toJson (stamp : Timestamp) : Json := .text (stamp.toRfc3339 "Z")

/-- The timestamp that a value denotes. -/
def Calendar.Timestamp.ofJson? (json : Json) : Option Timestamp :=
  json.text?.bind Timestamp.ofRfc3339?

namespace Envelope

/-- The names of the members of an envelope. -/
def memberNames : List String :=
  ["date", "date_string", "subject", "from", "sender", "reply_to", "to", "cc", "bcc", "in_reply_to",
   "message_id"]

/-- An envelope as JSON. -/
def toJson (envelope : Envelope) : Json :=
  .object
    [("date", .ofOption Timestamp.toJson envelope.date),
     ("date_string", .text envelope.dateText),
     ("subject", .text envelope.subject),
     ("from", .ofList Address.toJson envelope.authors),
     ("sender", .ofList Address.toJson envelope.sender),
     ("reply_to", .ofList Address.toJson envelope.replyTo),
     ("to", .ofList Address.toJson envelope.recipients),
     ("cc", .ofList Address.toJson envelope.cc),
     ("bcc", .ofList Address.toJson envelope.bcc),
     ("in_reply_to", .text envelope.inReplyTo),
     ("message_id", .text envelope.messageId)]

/-- The addresses that a member denotes. -/
def addresses? (member : Option Json) : Option (List Address) :=
  required? (Json.listOf? Address.ofJson?) member

/-- The envelope that a value denotes. -/
def ofJson? (json : Json) : Option Envelope := do
  match ← members? memberNames json with
  | [date, dateText, subject, authors, sender, replyTo, recipients, cc, bcc, inReplyTo,
     messageId] =>
    return {
      date := ← optional? Timestamp.ofJson? date
      dateText := ← required? Json.text? dateText
      subject := ← required? Json.text? subject
      authors := ← addresses? authors
      sender := ← addresses? sender
      replyTo := ← addresses? replyTo
      recipients := ← addresses? recipients
      cc := ← addresses? cc
      bcc := ← addresses? bcc
      inReplyTo := ← required? Json.text? inReplyTo
      messageId := ← required? Json.text? messageId }
  | _ => none

end Envelope

end MailOutline
