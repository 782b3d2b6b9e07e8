import MailOutline.Proofs.Containment
import MailOutline.Proofs.Dates.LetterCase

/-!
# Attributes in lower case

The decoders of attributes, addresses and envelopes take no notice of the case of ASCII letters:
decoding a field whose strings are in lower case gives what the field decodes to, in lower case.

* `Field.Variant`: fields of one shape with equal numbers, whose strings have the same letters.
  They have one lower form (`Field.Variant.lower_eq`).
* `Params.lower`, `Disposition.lower`, `Address.lower`, `Envelope.lower`: decoded values with their
  strings in lower case. Dates stay, and so does what is absent.
* `Params.ofPairs_lower`, `Disposition.value_ofFields?_lower`, `languagesOf?_lower`,
  `Address.value_ofField_lower`, `Envelope.value_ofField?_lower`: one lemma for each decoder.
* `Params.get?_lower`, `Disposition.isAttachment_lower`: the same of what is asked of the values.
-/

namespace MailOutline

/-! ## Texts -/

namespace Text

theorem lower_append (a b : String) : lower (a ++ b) = lower a ++ lower b := by
  rw [← String.toList_inj]
  simp only [toList_lower, String.toList_append, List.map_append]

theorem lower_eq_empty_iff {text : String} : lower text = "" ↔ text = "" := by
  rw [← String.toList_inj, toList_lower, String.toList_empty, List.map_eq_nil_iff,
    String.toList_eq_nil_iff]

theorem lower_empty : lower "" = "" := lower_eq_empty_iff.2 rfl

theorem lower_lower (text : String) : lower (lower text) = lower text := by
  rw [← String.toList_inj]
  simp only [toList_lower, List.map_map, Calendar.toLower_comp_toLower]

theorem sameLetters_lower_left (a b : String) : sameLetters (lower a) b = sameLetters a b := by
  rw [sameLetters, lower_lower, sameLetters]

theorem sameLetters_lower (a b : String) : sameLetters (lower a) (lower b) = sameLetters a b := by
  rw [sameLetters_lower_left, sameLetters_comm, sameLetters_lower_left, sameLetters_comm]

end Text

open Text (lower_append lower_empty lower_eq_empty_iff lower_lower sameLetters_lower
  sameLetters_lower_left)

/-! ## Fields -/

namespace Field

mutual

/-- Two fields of one shape with equal numbers, whose strings have the same letters. -/
inductive Variant : Field → Field → Prop
  | nil : Variant .nil .nil
  | atom {a b : String} (h : Text.sameLetters a b = true) : Variant (.atom a) (.atom b)
  | number (value : UInt32) : Variant (.number value) (.number value)
  | list {as bs : List Field} (h : Variants as bs) : Variant (.list as) (.list bs)

/-- Two lists of variants, element by element. -/
inductive Variants : List Field → List Field → Prop
  | nil : Variants [] []
  | cons {a b : Field} {as bs : List Field} (h : Variant a b) (hs : Variants as bs) :
    Variants (a :: as) (b :: bs)

end

mutual

/-- A field with its strings in lower case. -/
def lower : Field → Field
  | nil => nil
  | atom text => atom (Text.lower text)
  | number value => number value
  | list items => list (lowerAll items)

/-- Some fields with their strings in lower case. -/
def lowerAll : List Field → List Field
  | [] => []
  | field :: rest => lower field :: lowerAll rest

end

theorem lowerAll_eq_map (items : List Field) : lowerAll items = items.map lower := by
  induction items with
  | nil => rfl
  | cons field rest ih => rw [lowerAll, ih, List.map_cons]

mutual

/-- **Variants have one lower form.** -/
theorem Variant.lower_eq : ∀ {a b : Field}, Variant a b → a.lower = b.lower
  | _, _, .nil => rfl
  | _, _, .atom h => congrArg atom (Text.sameLetters_iff.1 h)
  | _, _, .number _ => rfl
  | _, _, .list h => congrArg list h.lowerAll_eq

theorem Variants.lowerAll_eq : ∀ {as bs : List Field}, Variants as bs → lowerAll as = lowerAll bs
  | _, _, .nil => rfl
  | _, _, .cons h hs => by rw [lowerAll, lowerAll, h.lower_eq, hs.lowerAll_eq]

end

@[simp] theorem asText_lower (field : Field) : field.lower.asText = Text.lower field.asText := by
  cases field with
  | atom text => rfl
  | _ => exact lower_empty.symm

@[simp] theorem asText?_lower (field : Field) :
    field.lower.asText? = field.asText?.map Text.lower := by
  cases field <;> rfl

@[simp] theorem asNumber_lower (field : Field) : field.lower.asNumber = field.asNumber := by
  cases field <;> rfl

@[simp] theorem asList_lower (field : Field) : field.lower.asList = field.asList.map lower := by
  cases field with
  | list items => exact lowerAll_eq_map items
  | _ => rfl

@[simp] theorem isList_lower (field : Field) : field.lower.isList = field.isList := by
  cases field <;> rfl

@[simp] theorem isNil_lower (field : Field) : field.lower.isNil = field.isNil := by
  cases field <;> rfl

theorem isList_comp_lower : isList ∘ lower = isList := funext isList_lower

end Field

/-! ## Parameters and dispositions -/

namespace Params

/-- A key with its values in lower case. -/
def lowerEntry (entry : String × List String) : String × List String :=
  (Text.lower entry.1, entry.2.map Text.lower)

/-- Parameters in lower case, with the same values under the same keys. -/
def lower (params : Params) : Params := ⟨params.entries.map lowerEntry⟩

theorem addTo_lower (key value : String) (entries : List (String × List String)) :
    addTo (Text.lower key) (Text.lower value) (entries.map lowerEntry) =
      (addTo key value entries).map lowerEntry := by
  induction entries with
  | nil => rfl
  | cons entry rest ih =>
    rw [List.map_cons, addTo, addTo, lowerEntry, sameLetters_lower, ih]
    by_cases h : Text.sameLetters entry.1 key = true
    · rw [if_pos h, if_pos h, List.map_cons, lowerEntry, List.map_append, List.map_singleton]
    · rw [if_neg h, if_neg h, List.map_cons, lowerEntry]

theorem pairsOf_lower (items : List Field) :
    pairsOf (items.map Field.lower) =
      (pairsOf items).map fun pair => (Text.lower pair.1, Text.lower pair.2) := by
  induction items using pairsOf.induct with
  | case1 key value rest ih =>
    simp only [List.map_cons, pairsOf, Field.asText_lower, ih]
  | case2 items hshort =>
    cases items with
    | nil => rfl
    | cons key rest =>
      cases rest with
      | nil => rfl
      | cons value rest => exact absurd rfl (hshort key value rest)

/-- **Parameters are grouped without regard to case.** -/
theorem ofPairs_lower (pairs : List (String × String)) :
    ofPairs (pairs.map fun pair => (Text.lower pair.1, Text.lower pair.2)) =
      (ofPairs pairs).lower := by
  have hfold : ∀ (pairs : List (String × String)) (params : Params),
      (pairs.map fun pair => (Text.lower pair.1, Text.lower pair.2)).foldl
          (fun params pair => params.add pair.1 pair.2) params.lower =
        (pairs.foldl (fun params pair => params.add pair.1 pair.2) params).lower := by
    intro pairs
    induction pairs with
    | nil => intro params; rfl
    | cons pair rest ih =>
      intro params
      have hadd : params.lower.add (Text.lower pair.1) (Text.lower pair.2) =
          (params.add pair.1 pair.2).lower :=
        congrArg Params.mk (addTo_lower pair.1 pair.2 params.entries)
      rw [List.map_cons, List.foldl_cons, List.foldl_cons, hadd, ih]
  exact hfold pairs empty

/-- The parameters of a list of keys and values. -/
theorem ofPairs_pairsOf_lower (field : Field) :
    ofPairs (pairsOf field.lower.asList) = (ofPairs (pairsOf field.asList)).lower := by
  rw [Field.asList_lower, pairsOf_lower, ofPairs_lower]

theorem get?_lower (params : Params) (key : String) :
    params.lower.get? key = (params.get? key).map Text.lower := by
  have hvalues : params.lower.valuesOf key = (params.valuesOf key).map Text.lower := by
    unfold valuesOf lower
    simp only [List.find?_map, Function.comp_def, lowerEntry, sameLetters_lower_left]
    cases params.entries.find? fun entry => Text.sameLetters entry.1 key <;> rfl
  rw [get?, hvalues, List.head?_map, get?]

end Params

namespace Disposition

/-- A disposition in lower case. -/
def lower (disposition : Disposition) : Disposition :=
  ⟨Text.lower disposition.kind, disposition.attributes.lower⟩

theorem isAttachment_lower (disposition : Disposition) :
    disposition.lower.isAttachment = disposition.isAttachment :=
  sameLetters_lower_left _ _

theorem value_ofFields?_lower (field : Field) :
    (ofFields? field.lower.asList).value = (ofFields? field.asList).value.map lower := by
  rw [Field.asList_lower]
  match field.asList with
  | [] => rfl
  | [_] => rfl
  | [kind, attributes] =>
    simp only [List.map_cons, List.map_nil, ofFields?, Field.isList_lower, Field.isNil_lower]
    split
    · simp only [Traced.value_bind, Traced.value_pure, Params.value_ofFields,
        Params.ofPairs_pairsOf_lower, Field.asText_lower, Option.map_some, lower]
    · rfl
  | _ :: _ :: _ :: _ => rfl

end Disposition

theorem languagesOf?_lower (field : Field) :
    languagesOf? field.lower = (languagesOf? field).map (List.map Text.lower) := by
  cases field with
  | list items =>
    simp only [Field.lower, Field.lowerAll_eq_map, languagesOf?, List.map_map, Option.map_some]
    exact congrArg some (List.map_congr_left fun item _ => Field.asText_lower item)
  | atom text =>
    by_cases h : text = ""
    · simp [Field.lower, languagesOf?, Field.asText, h, lower_empty]
    · simp [Field.lower, languagesOf?, Field.asText, h, lower_eq_empty_iff]
  | _ => rfl

/-! ## Addresses and envelopes -/

namespace Address

/-- An address in lower case. -/
def lower (address : Address) : Address where
  name := Text.lower address.name
  route := Text.lower address.route
  mailbox := Text.lower address.mailbox
  host := Text.lower address.host
  spec := address.spec.map Text.lower

theorem specOf_lower (mailbox host : String) :
    specOf (Text.lower mailbox) (Text.lower host) = (specOf mailbox host).map Text.lower := by
  have hat : Text.lower "@" = "@" := by
    rw [← String.toList_inj, Text.toList_lower]
    rfl
  unfold specOf
  simp only [ne_eq, lower_eq_empty_iff]
  split
  · rw [Option.map_some, lower_append, lower_append, hat]
  · rfl

theorem value_ofField_lower (field : Field) :
    (ofField field.lower).value = (ofField field).value.lower := by
  unfold ofField
  rw [Field.asList_lower]
  match field.asList with
  | [] | [_] | [_, _] | [_, _, _] =>
    simp only [List.map_cons, List.map_nil, Traced.value_bind, Traced.value_pure, lower, empty,
      lower_empty, Option.map_none]
  | name :: route :: mailbox :: host :: _ =>
    simp only [List.map_cons, Traced.value_pure, Field.asText_lower, ofParts, specOf_lower, lower]

theorem value_listOfField_lower (field : Field) :
    (listOfField field.lower).value = (listOfField field).value.map lower := by
  unfold listOfField
  rw [value_listOfFields, value_listOfFields, Field.asList_lower, List.filter_map,
    Field.isList_comp_lower, List.map_map, List.map_map]
  exact List.map_congr_left fun item _ => value_ofField_lower item

end Address

namespace Envelope

/-- An envelope in lower case, of the same date. -/
def lower (envelope : Envelope) : Envelope where
  date := envelope.date
  dateText := Text.lower envelope.dateText
  subject := Text.lower envelope.subject
  authors := envelope.authors.map Address.lower
  sender := envelope.sender.map Address.lower
  replyTo := envelope.replyTo.map Address.lower
  recipients := envelope.recipients.map Address.lower
  cc := envelope.cc.map Address.lower
  bcc := envelope.bcc.map Address.lower
  inReplyTo := Text.lower envelope.inReplyTo
  messageId := Text.lower envelope.messageId

/-- **An envelope is decoded without regard to case**, its date included. -/
theorem value_ofField?_lower (field : Field) :
    (ofField? field.lower).value = (ofField? field).value.map lower := by
  have hdate : ∀ text, Calendar.Timestamp.ofText? (Text.lower text) =
      Calendar.Timestamp.ofText? text := fun text =>
    Calendar.Timestamp.ofText?_congr (Text.sameLetters_iff.2 (lower_lower text))
  by_cases hlen : field.asList.length < 10
  · rw [ofField?_eq_none_iff.2 hlen, ofField?_eq_none_iff.2 (by
      rwa [Field.asList_lower, List.length_map])]
    rfl
  · obtain ⟨items, rfl⟩ : ∃ items, field = .list items := by
      cases field with
      | list items => exact ⟨items, rfl⟩
      | _ => exact absurd (Nat.zero_lt_succ _) hlen
    match items, hlen with
    | date :: subject :: authors :: sender :: replyTo :: recipients :: cc :: bcc :: inReplyTo ::
        messageId :: more, _ =>
      rw [Field.lower]
      simp only [Field.lowerAll, value_ofField?_cons, Field.asText_lower, hdate,
        Address.value_listOfField_lower, Option.map_some, lower]
    | [], h | [_], h | [_, _], h | [_, _, _], h | [_, _, _, _], h | [_, _, _, _, _], h
    | [_, _, _, _, _, _], h | [_, _, _, _, _, _, _], h | [_, _, _, _, _, _, _, _], h
    | [_, _, _, _, _, _, _, _, _], h => exact absurd (by simp [Field.asList]) h

end Envelope

end MailOutline
