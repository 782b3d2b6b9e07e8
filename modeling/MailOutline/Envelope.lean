import MailOutline.Attribute.Address
import MailOutline.Calendar.Layout

/-!
# Envelopes

The envelope of a message holds its date, its subject, its addresses and its identifiers, at ten
fixed positions.

Model of `Envelope` and `decode_envelope`.

* `Envelope.ofField?`: decodes a list of at least ten elements. An element of the wrong shape
  decodes as an empty value, and elements behind the tenth are ignored.
* `Envelope.ofField?_eq_none_iff`: a shorter list, or no list, is no envelope.
* `Envelope.date_of_ofField?`: the date is the one that its text denotes.
-/

namespace MailOutline

open Calendar (Timestamp)

/-- The envelope of a message. -/
structure Envelope where
  /-- The date, if its text has a known layout. -/
  date : Option Timestamp
  /-- The date as it was written. -/
  dateText : String
  /-- The subject as it was written. -/
  subject : String
  /-- Who wrote the message. -/
  authors : List Address
  /-- Who sent it. -/
  sender : List Address
  /-- Where answers go. -/
  replyTo : List Address
  /-- Whom it is addressed to. -/
  recipients : List Address
  /-- Who gets a copy. -/
  cc : List Address
  /-- Who gets a copy unseen by the others. -/
  bcc : List Address
  /-- The identifier of the message that it answers. -/
  inReplyTo : String
  /-- The identifier of the message. -/
  messageId : String
deriving DecidableEq, Repr

namespace Envelope

/-- The date that a text denotes. A text that is not empty and no date is reported. -/
def readDate (text : String) : Traced (Option Timestamp) := do
  let date := Timestamp.ofText? text
  if date.isNone ∧ text ≠ "" then .report (.unknownDate text)
  return date

@[simp] theorem value_readDate (text : String) :
    (readDate text).value = Timestamp.ofText? text := by
  simp only [readDate]
  split <;> rfl

/-- The envelope that a field denotes. -/
def ofField? (field : Field) : Traced (Option Envelope) :=
  match field.asList with
  | date :: subject :: authors :: sender :: replyTo :: recipients :: cc :: bcc ::
      inReplyTo :: messageId :: _ => do
    let stamp ← readDate date.asText
    let authors ← Address.listOfField authors
    let sender ← Address.listOfField sender
    let replyTo ← Address.listOfField replyTo
    let recipients ← Address.listOfField recipients
    let cc ← Address.listOfField cc
    let bcc ← Address.listOfField bcc
    return some {
      date := stamp
      dateText := date.asText
      subject := subject.asText
      authors, sender, replyTo, recipients, cc, bcc
      inReplyTo := inReplyTo.asText
      messageId := messageId.asText }
  | items => do
    .report (.shortEnvelope items.length)
    return none

theorem ofField?_eq_none_iff {field : Field} :
    (ofField? field).value = none ↔ field.asList.length < 10 := by
  unfold ofField?
  split
  next h => simp [h]
  next hshort =>
    simp only [Traced.value_bind, Traced.value_pure, true_iff]
    refine Nat.lt_of_not_le fun hlen => ?_
    match hl : field.asList, hlen with
    | date :: subject :: authors :: sender :: replyTo :: recipients :: cc :: bcc ::
        inReplyTo :: messageId :: more, _ => exact hshort _ _ _ _ _ _ _ _ _ _ _ hl

theorem date_of_ofField? {field : Field} {envelope : Envelope}
    (h : (ofField? field).value = some envelope) :
    envelope.date = Timestamp.ofText? envelope.dateText := by
  unfold ofField? at h
  split at h
  · simp only [Traced.value_bind, Traced.value_pure, value_readDate, Option.some.injEq] at h
    rw [← h]
  · simp at h

end Envelope

end MailOutline
