import MailOutline.Part.Extension
import MailOutline.Proofs.Bounds.Dates

/-!
# The attributes of a part are decoded without a stop

The decoders of lists are written down with the indexes that a machine reads them by. Each of them
answers, and reports, what the total decoder does.

Model of `decode_attribute_pairs`, `decode_disposition`, `decode_language`, `decode_address`,
`decode_address_list`, `decode_envelope` and `decode_extensions`, operation by operation.

* `Guarded`: a decoding that reports, and that an operation may stop.
* `attributePairs`, `disposition`, `address`, `addresses`, `envelope`: lists of a fixed form, whose
  length is tested before they are read (`attributePairs_eq`, `disposition_eq`, `address_eq`,
  `addresses_eq`, `envelope_eq`).
* `languages?`: language tags (`languages?_eq`).
* `extensionData`: a tail of any length. The elements behind the last known one are counted
  (`extensionData_eq`).
-/

namespace MailOutline.Checked

open MailOutline.Calendar (Timestamp)

/-- A decoding with its events, which stops where an operation cannot be carried out. -/
abbrev Guarded (α : Type) : Type := OptionT Traced α

variable {α : Type}

/-! ## Parameters -/

/-- The elements of a list two by two, without a last one that is left over. -/
def chunksOfTwo : List Field → List (List Field)
  | first :: second :: rest => [first, second] :: chunksOfTwo rest
  | _ => []

/-- The texts of a key and its value. -/
def pairOf? (chunk : List Field) : Option (String × String) := do
  let key ← chunk[0]?
  let value ← chunk[1]?
  return (key.asText, value.asText)

/-- The parameters with one more value under a key, whose entry is changed in its place. -/
def addPair? (params : Params) (pair : String × String) : Option Params :=
  match params.entries.findIdx? fun entry => Text.sameLetters entry.1 pair.1 with
  | none => some ⟨params.entries ++ [(pair.1, [pair.2])]⟩
  | some place => do
    let entry ← params.entries[place]?
    return ⟨params.entries.set place (entry.1, entry.2 ++ [pair.2])⟩

/-- The values under a key, read where its entry stands. -/
def valuesAt? (params : Params) (key : String) : Option (List String) :=
  match params.entries.findIdx? fun entry => Text.sameLetters entry.1 key with
  | none => some []
  | some place => do
    let entry ← params.entries[place]?
    return entry.2

/-- The parameters of a list that alternates keys and values. -/
def paramsOf? (items : List Field) : Option Params := do
  let pairs ← (chunksOfTwo items).mapM pairOf?
  pairs.foldlM addPair? Params.empty

/-- The parameters of a list that alternates keys and values. A last key without a value is
reported. -/
def attributePairs (items : List Field) : Guarded Params := do
  if items.length % 2 ≠ 0 then Traced.report (.oddAttributes items.length)
  (paramsOf? items).getM

theorem mapM_pairOf? (items : List Field) :
    (chunksOfTwo items).mapM pairOf? = some (Params.pairsOf items) := by
  induction items using chunksOfTwo.induct with
  | case1 first second rest ih =>
    rw [chunksOfTwo, List.mapM_cons, ih]
    rfl
  | case2 items hshort =>
    match items, hshort with
    | [], _ => rfl
    | [last], _ => rfl
    | first :: second :: rest, hshort => exact absurd rfl (hshort first second rest)

/-- **The place of an entry is a place of the list**, and what is put there is the entry with one
more value. -/
theorem addPair?_eq (params : Params) (pair : String × String) :
    addPair? params pair = some (params.add pair.1 pair.2) := by
  obtain ⟨entries⟩ := params
  unfold addPair? Params.add
  simp only
  induction entries with
  | nil => rfl
  | cons entry rest ih =>
    rw [List.findIdx?_cons, Params.addTo]
    by_cases hkey : Text.sameLetters entry.1 pair.1 = true
    · simp [hkey]
    · rw [if_neg hkey]
      simp only [hkey]
      cases hplace : rest.findIdx? fun entry => Text.sameLetters entry.1 pair.1 with
      | none =>
        rw [hplace] at ih
        simpa using ih
      | some place =>
        rw [hplace] at ih
        simp only at ih
        cases hentry : rest[place]? with
        | none => simp [hentry] at ih
        | some found => simpa [hentry] using ih

/-- **A look-up** reads an entry that there is. -/
theorem valuesAt?_eq (params : Params) (key : String) :
    valuesAt? params key = some (params.valuesOf key) := by
  unfold valuesAt? Params.valuesOf
  rw [List.find?_eq_bind_findIdx?_getElem?]
  cases hplace : params.entries.findIdx? fun entry => Text.sameLetters entry.1 key with
  | none => rfl
  | some place =>
    obtain ⟨hlt, -⟩ := List.findIdx?_eq_some_iff_getElem.1 hplace
    simp only [Option.bind_some, List.getElem?_eq_getElem hlt]
    rfl

theorem paramsOf?_eq (items : List Field) :
    paramsOf? items = some (Params.ofPairs (Params.pairsOf items)) := by
  have hfold : ∀ (pairs : List (String × String)) (params : Params),
      pairs.foldlM addPair? params =
        some (pairs.foldl (fun params pair => params.add pair.1 pair.2) params) := by
    intro pairs
    induction pairs with
    | nil => exact fun _ => rfl
    | cons pair rest ih =>
      intro params
      rw [List.foldlM_cons, addPair?_eq]
      exact ih _
  rw [paramsOf?, mapM_pairOf?]
  exact hfold _ _

theorem attributePairs_eq (items : List Field) :
    attributePairs items = liftM (Params.ofFields items) := by
  unfold attributePairs Params.ofFields
  rw [paramsOf?_eq, Option.getM_some]
  split <;> simp only [liftM_bind, liftM_pure]

/-! ## Dispositions -/

/-- The disposition that a list of a kind and attributes denotes. -/
def disposition (items : List Field) : Guarded (Option Disposition) := do
  if items.length = 2 then do
    let kind ← items[0]?.getM
    let attributes ← items[1]?.getM
    if attributes.isList || attributes.isNil then do
      let params ← attributePairs attributes.asList
      return some ⟨kind.asText, params⟩
    else do
      Traced.report .dispositionAttributes
      return none
  else if items = [] then return none
  else do
    Traced.report (.malformedDisposition items.length)
    return none

theorem disposition_eq (items : List Field) :
    disposition items = liftM (Disposition.ofFields? items) := by
  match items with
  | [] => rfl
  | [_] => rfl
  | [kind, attributes] =>
    have hlen : [kind, attributes].length = 2 := rfl
    unfold disposition Disposition.ofFields?
    simp only [attributePairs_eq, if_pos hlen, List.getElem?_cons_zero, List.getElem?_cons_succ,
      Option.getM_some, pure_bind]
    split <;> simp only [liftM_bind, liftM_pure]
  | first :: second :: third :: rest =>
    have hlen : ¬(first :: second :: third :: rest).length = 2 := by simp
    unfold disposition Disposition.ofFields?
    rw [if_neg hlen, if_neg (List.cons_ne_nil first _)]
    simp only [liftM_bind, liftM_pure]

/-! ## Languages -/

/-- The language tags that a field denotes. Nothing is read by an index here. -/
def languages? : Field → Option (Option (List String))
  | .list items => do
    let tags ← items.mapM fun item => return item.asText
    return some tags
  | field => if field.asText = "" then return none else return some [field.asText]

theorem languages?_eq (field : Field) : languages? field = some (languagesOf? field) := by
  cases field with
  | list items =>
    rw [languages?, List.mapM_pure]
    rfl
  | _ =>
    simp only [languages?, languagesOf?]
    split <;> rfl

/-! ## Addresses -/

/-- The address that a field denotes. -/
def address (field : Field) : Guarded Address := do
  let items := field.asList
  if 4 ≤ items.length then do
    let name ← items[0]?.getM
    let route ← items[1]?.getM
    let mailbox ← items[2]?.getM
    let host ← items[3]?.getM
    return Address.ofParts name.asText route.asText mailbox.asText host.asText
  else do
    Traced.report (@Event.shortAddress field)
    return Address.empty

/-- The addresses that a field denotes. -/
def addresses (field : Field) : Guarded (List Address) :=
  (field.asList.filter Field.isList).mapM address

theorem address_eq (field : Field) : address field = liftM (Address.ofField field) := by
  unfold address Address.ofField
  split
  next name route mailbox host rest hitems =>
    have hlen : 4 ≤ (name :: route :: mailbox :: host :: rest).length := by simp
    simp only [hitems, if_pos hlen, List.getElem?_cons_zero, List.getElem?_cons_succ,
      Option.getM_some, pure_bind, liftM_pure]
  next hshort =>
    have hlen : ¬4 ≤ field.asList.length := by
      intro hlen
      match hitems : field.asList, hlen with
      | name :: route :: mailbox :: host :: rest, _ => exact hshort _ _ _ _ _ hitems
    simp only [if_neg hlen, liftM_bind, liftM_pure]

theorem addresses_eq (field : Field) : addresses field = liftM (Address.listOfField field) := by
  unfold addresses Address.listOfField
  induction field.asList with
  | nil => rfl
  | cons first rest ih =>
    rw [Address.listOfFields]
    by_cases hlist : first.isList = true
    · rw [List.filter_cons_of_pos hlist, List.mapM_cons, ih, address_eq, if_pos hlist]
      simp only [liftM_bind, liftM_pure]
    · rw [List.filter_cons_of_neg hlist, if_neg hlist, ih]

/-! ## Envelopes -/

/-- The date that a text denotes. -/
def envelopeDate (text : String) : Guarded (Option Timestamp) := do
  let date ← (parseDate? text).getM
  if date.isNone ∧ text ≠ "" then Traced.report (.unknownDate text)
  return date

/-- The envelope that a field denotes. -/
def envelope (field : Field) : Guarded (Option Envelope) := do
  let items := field.asList
  if items.length < 10 then do
    Traced.report (.shortEnvelope items.length)
    return none
  else do
    let dateText := (← items[0]?.getM).asText
    let date ← envelopeDate dateText
    let subject := (← items[1]?.getM).asText
    let authors ← addresses (← items[2]?.getM)
    let sender ← addresses (← items[3]?.getM)
    let replyTo ← addresses (← items[4]?.getM)
    let recipients ← addresses (← items[5]?.getM)
    let cc ← addresses (← items[6]?.getM)
    let bcc ← addresses (← items[7]?.getM)
    let inReplyTo := (← items[8]?.getM).asText
    let messageId := (← items[9]?.getM).asText
    return some {
      date, dateText, subject, authors, sender, replyTo, recipients, cc, bcc, inReplyTo
      messageId }

theorem envelopeDate_eq (text : String) : envelopeDate text = liftM (Envelope.readDate text) := by
  unfold envelopeDate Envelope.readDate
  rw [parseDate?_eq, Option.getM_some, pure_bind]
  simp only
  by_cases hunknown : (Timestamp.ofText? text).isNone = true ∧ text ≠ ""
  · simp only [if_pos hunknown, liftM_bind, liftM_pure]
  · simp only [if_neg hunknown, liftM_pure]

theorem envelope_eq (field : Field) : envelope field = liftM (Envelope.ofField? field) := by
  unfold envelope Envelope.ofField?
  split
  next date subject authors sender replyTo recipients cc bcc inReplyTo messageId rest hitems =>
    have hlen : ¬(date :: subject :: authors :: sender :: replyTo :: recipients :: cc :: bcc ::
        inReplyTo :: messageId :: rest).length < 10 := by simp
    simp only [hitems, if_neg hlen, List.getElem?_cons_zero, List.getElem?_cons_succ,
      Option.getM_some, pure_bind, addresses_eq, envelopeDate_eq, liftM_bind, liftM_pure]
  next hshort =>
    have hlen : field.asList.length < 10 := by
      refine Nat.lt_of_not_le fun hlen => ?_
      match hitems : field.asList, hlen with
      | date :: subject :: authors :: sender :: replyTo :: recipients :: cc :: bcc ::
          inReplyTo :: messageId :: rest, _ => exact hshort _ _ _ _ _ _ _ _ _ _ _ hitems
    simp only [if_pos hlen, liftM_bind, liftM_pure]

/-! ## Extension data -/

/-- A named decoder of one attribute. -/
abbrev Entry (α : Type) : Type := String × (Field → α → Guarded α)

/-- A part with the attributes that the elements of a tail denote, one for each entry of a table. -/
def extensionData (table : List (Entry α)) (tail : List Field) (part : α) : Guarded α := do
  let read (part : α) (next : Field × Entry α) : Guarded α := do
    Traced.report (@Event.extensionData next.2.1 next.1)
    next.2.2 next.1 part
  let part ← (tail.zip table).foldlM read part
  if table.length < tail.length then do
    let ignored ← (sub? tail.length table.length).getM
    Traced.report (.unknownExtensions ignored)
    return part
  else return part

/-- The decoders of the attributes of a body. -/
def leafTable : List (Entry Leaf) :=
  [("md5", fun field leaf => return { leaf with md5 := field.asText? }),
   ("disposition", fun field leaf => do
      let disposition ← disposition field.asList
      return { leaf with disposition }),
   ("language", fun field leaf => do
      let language ← (languages? field).getM
      return { leaf with language }),
   ("location", fun field leaf => return { leaf with location := field.asText? })]

/-- The parameters that a field denotes, which has to be a list. -/
def paramsField (field : Field) : Guarded (Option Params) := do
  if field.isList then do
    let params ← attributePairs field.asList
    return some params
  else return none

/-- The decoders of the attributes of a multipart. -/
def multipartTable : List (Entry Multipart) :=
  [("parameters", fun field multipart => do
      let params ← paramsField field
      return { multipart with params }),
   ("disposition", fun field multipart => do
      let disposition ← disposition field.asList
      return { multipart with disposition }),
   ("language", fun field multipart => do
      let language ← (languages? field).getM
      return { multipart with language })]

/-- The entry that reads an attribute as the total decoder does. -/
def entryOf (extension : Extension α) : Entry α :=
  (extension.name, fun field part => liftM (extension.read field part))

theorem leafTable_eq : leafTable = Leaf.extensions.map entryOf := by
  unfold leafTable Leaf.extensions
  simp only [List.map_cons, List.map_nil, entryOf, disposition_eq, languages?_eq,
    Option.getM_some, pure_bind, liftM_bind, liftM_pure]

theorem multipartTable_eq : multipartTable = Multipart.extensions.map entryOf := by
  have hparams : ∀ field, paramsField field = liftM (Multipart.readParams? field) := by
    intro field
    unfold paramsField Multipart.readParams?
    rw [attributePairs_eq]
    split
    · rw [map_eq_pure_bind, liftM_bind]
      simp only [liftM_pure]
    · rw [liftM_pure]
  unfold multipartTable Multipart.extensions
  simp only [List.map_cons, List.map_nil, entryOf, disposition_eq, languages?_eq, hparams,
    Option.getM_some, pure_bind, liftM_bind, liftM_pure]

/-- One attribute, then the others. -/
theorem extensionData_cons (entry : Entry α) (table : List (Entry α)) (field : Field)
    (tail : List Field) (part : α) :
    extensionData (entry :: table) (field :: tail) part = (do
      Traced.report (@Event.extensionData entry.1 field)
      let part ← entry.2 field part
      extensionData table tail part) := by
  have hcount : sub? (tail.length + 1) (table.length + 1) = sub? tail.length table.length := by
    simp only [sub?, Nat.add_le_add_iff_right, Nat.add_sub_add_right]
  unfold extensionData
  simp only [List.zip_cons_cons, List.foldlM_cons, bind_assoc, hcount, List.length_cons,
    Nat.add_lt_add_iff_right]

/-- **A tail longer than the table** has more elements than the table: their number is a word. -/
theorem extensionData_eq (extensions : List (Extension α)) (tail : List Field) (part : α) :
    extensionData (extensions.map entryOf) tail part =
      liftM (Extension.readAll extensions tail part) := by
  induction extensions generalizing tail part with
  | nil =>
    cases tail with
    | nil => rfl
    | cons field tail => rfl
  | cons extension more ih =>
    cases tail with
    | nil => rfl
    | cons field tail =>
      rw [List.map_cons, extensionData_cons, Extension.readAll, liftM_bind]
      simp only [ih, liftM_bind, entryOf]

end MailOutline.Checked
