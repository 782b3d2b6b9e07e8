import MailOutline.Trace

/-!
# Addresses

Model of `Address`, `decode_address` and `decode_address_list`.

* `Address.spec`: the usual form `mailbox@host` of an address that has both.
* `Address.ofField`: decodes a list of name, route, mailbox and host. A shorter list, or no list,
  is an empty address and reported. Elements behind the fourth are ignored.
* `Address.listOfField`: decodes a list of addresses, without the elements that are no lists.
-/

namespace MailOutline

/-- A mail address. -/
structure Address where
  /-- The display name. -/
  name : String
  /-- The source route, which is obsolete. -/
  route : String
  /-- The part in front of the at sign. -/
  mailbox : String
  /-- The part behind the at sign. -/
  host : String
  /-- The address in its usual form. -/
  spec : Option String
deriving DecidableEq, Repr, Inhabited

namespace Address

/-- The address without any part. -/
def empty : Address := ⟨"", "", "", "", none⟩

/-- The usual form of an address, which needs a mailbox and a host. -/
def specOf (mailbox host : String) : Option String :=
  if mailbox ≠ "" ∧ host ≠ "" then some (mailbox ++ "@" ++ host) else none

/-- The address with these parts, in its usual form if it has one. -/
def ofParts (name route mailbox host : String) : Address :=
  ⟨name, route, mailbox, host, specOf mailbox host⟩

/-- The address that a field denotes. -/
def ofField (field : Field) : Traced Address :=
  match field.asList with
  | name :: route :: mailbox :: host :: _ =>
    return ofParts name.asText route.asText mailbox.asText host.asText
  | _ => do
    .report (@Event.shortAddress field)
    return empty

theorem spec_ofField (field : Field) :
    (ofField field).value.spec =
      specOf (ofField field).value.mailbox (ofField field).value.host := by
  unfold ofField
  split <;> rfl

/-- The addresses that the elements of a list denote, in order. Elements that are no lists are left
out. -/
def listOfFields : List Field → Traced (List Address)
  | [] => return []
  | field :: rest => do
    if field.isList then
      let address ← ofField field
      let addresses ← listOfFields rest
      return address :: addresses
    else listOfFields rest

/-- The addresses that a field denotes. -/
def listOfField (field : Field) : Traced (List Address) := listOfFields field.asList

theorem value_listOfFields (items : List Field) :
    (listOfFields items).value =
      (items.filter Field.isList).map fun field => (ofField field).value := by
  induction items with
  | nil => rfl
  | cons field rest ih => by_cases h : field.isList <;> simp [listOfFields, h, ih]

end Address

end MailOutline
