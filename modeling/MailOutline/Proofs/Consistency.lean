import MailOutline.Proofs.Additions
import MailOutline.Proofs.Relocation

/-!
# What every decoded part keeps to

The types of parts allow more than decoding produces. Whatever the field, the attributes of each
decoded part fit together, at any depth and inside messages too.

* `Params.Consistent`, `Address.Consistent`, `Envelope.Consistent`, `Leaf.Consistent`,
  `Multipart.Consistent`: what fits together, for each kind of data.
* `Part.nodes`: a part and everything inside it. The structures inside messages are entered, unlike
  by the walk.
* `Params.consistent_ofPairs`, `Address.consistent_ofField`, `Envelope.consistent_of_ofField?`,
  `Disposition.consistent_of_ofFields?`: the attributes.
* `Leaf.Consistent.extend`, `Multipart.consistent_ofBehind`: extension data.
* `Decoder.throughout_leaf?`, `Decoder.throughout_child?`: one step of decoding.
* `Decoder.throughout_structure?`: all of decoding, by induction on the levels.
* `Decoder.part?_consistent`: everything inside a decoded part.
-/

namespace MailOutline

open Calendar (Timestamp)
open Text (sameLetters)

/-! ## What fits together -/

/-- No key stands in two spellings, and no key is without a value. -/
structure Params.Consistent (params : Params) : Prop where
  distinct : params.entries.Pairwise fun a b => sameLetters a.1 b.1 = false
  held : ∀ entry ∈ params.entries, entry.2 ≠ []

/-- The usual form is that of the mailbox and the host, and is there if both are. -/
def Address.Consistent (address : Address) : Prop :=
  address.spec = if address.mailbox ≠ "" ∧ address.host ≠ "" then
    some (address.mailbox ++ "@" ++ address.host) else none

/-- All addresses of an envelope. -/
def Envelope.addresses (envelope : Envelope) : List Address :=
  envelope.authors ++ envelope.sender ++ envelope.replyTo ++ envelope.recipients ++ envelope.cc ++
    envelope.bcc

/-- The date is the one that its text denotes. -/
structure Envelope.Consistent (envelope : Envelope) : Prop where
  date : envelope.date = Timestamp.ofText? envelope.dateText
  addresses : ∀ address ∈ envelope.addresses, address.Consistent

/-- Only a message has an envelope or a structure inside it, and then it has a line count. Only a
message or a text has a line count. -/
structure Leaf.Consistent (info : Leaf) (embedded : Option Part) : Prop where
  message : info.envelope.isSome = true ∨ embedded.isSome = true →
    (sameLetters info.mediaType "message" = true ∧ sameLetters info.subtype "rfc822" = true) ∧
      info.lineCount.isSome = true
  lines : info.lineCount.isSome = true → sameLetters info.mediaType "text" = true ∨
    sameLetters info.mediaType "message" = true ∧ sameLetters info.subtype "rfc822" = true
  params : info.params.Consistent
  disposition : ∀ disposition, info.disposition = some disposition →
    disposition.attributes.Consistent
  envelope : ∀ envelope, info.envelope = some envelope → envelope.Consistent

/-- No multipart has a location. -/
structure Multipart.Consistent (info : Multipart) : Prop where
  location : info.location = none
  params : ∀ params, info.params = some params → params.Consistent
  disposition : ∀ disposition, info.disposition = some disposition →
    disposition.attributes.Consistent

namespace Part

/-- The attributes of a part fit together, whatever is inside it. -/
def Consistent : Part → Prop
  | leaf info embedded => info.Consistent embedded
  | multipart info _ => info.Consistent

/-! ## Everything inside a part -/

mutual

/-- A part and everything inside it, the structures inside messages included. -/
def nodes : Part → List Part
  | leaf info none => [leaf info none]
  | leaf info (some inner) => leaf info (some inner) :: nodes inner
  | multipart info parts => multipart info parts :: nodesAll parts

/-- Some parts and everything inside them. -/
def nodesAll : List Part → List Part
  | [] => []
  | part :: rest => nodes part ++ nodesAll rest

end

theorem nodesAll_eq_flatMap (parts : List Part) : nodesAll parts = parts.flatMap nodes := by
  induction parts with
  | nil => rfl
  | cons part rest ih => rw [nodesAll, ih, List.flatMap_cons]

/-- A part is consistent, and so is everything inside it. -/
def Throughout (part : Part) : Prop := ∀ node ∈ part.nodes, node.Consistent

theorem throughout_leaf_iff {info : Leaf} {embedded : Option Part} :
    (leaf info embedded).Throughout ↔
      info.Consistent embedded ∧ ∀ inner, embedded = some inner → inner.Throughout := by
  unfold Throughout
  cases embedded with
  | none => simp [nodes, Consistent]
  | some inner => simp [nodes, Consistent]

theorem throughout_multipart_iff {info : Multipart} {parts : List Part} :
    (multipart info parts).Throughout ↔
      info.Consistent ∧ ∀ part ∈ parts, part.Throughout := by
  unfold Throughout
  rw [nodes, nodesAll_eq_flatMap, List.forall_mem_cons]
  refine and_congr Iff.rfl ⟨fun h part hpart node hnode => ?_, fun h node hnode => ?_⟩
  · exact h node (List.mem_flatMap.2 ⟨part, hpart, hnode⟩)
  · obtain ⟨part, hpart, hmem⟩ := List.mem_flatMap.1 hnode
    exact h part hpart node hmem

end Part

/-! ## Attributes -/

/-- Parameters that were added one by one are consistent. -/
theorem Params.consistent_ofPairs (pairs : List (String × String)) :
    (Params.ofPairs pairs).Consistent := by
  have hrecords := Params.records_ofPairs pairs
  exact ⟨List.pairwise_map.1 hrecords.distinct, hrecords.held⟩

theorem Disposition.consistent_of_ofFields? {items : List Field} {disposition : Disposition}
    (h : (Disposition.ofFields? items).value = some disposition) :
    disposition.attributes.Consistent := by
  unfold Disposition.ofFields? at h
  split at h
  · cases h
  · split at h
    · cases h
      rw [Params.value_ofFields]
      exact Params.consistent_ofPairs _
    · cases h
  · cases h

theorem Address.consistent_ofField (field : Field) : (Address.ofField field).value.Consistent :=
  Address.spec_ofField field

theorem Address.consistent_of_mem_listOfField {field : Field} {address : Address}
    (h : address ∈ (Address.listOfField field).value) : address.Consistent := by
  rw [Address.listOfField, Address.value_listOfFields] at h
  obtain ⟨element, -, rfl⟩ := List.mem_map.1 h
  exact Address.consistent_ofField element

theorem Envelope.consistent_of_ofField? {field : Field} {envelope : Envelope}
    (h : (Envelope.ofField? field).value = some envelope) : envelope.Consistent := by
  refine ⟨Envelope.date_of_ofField? h, fun address haddress => ?_⟩
  unfold Envelope.ofField? at h
  split at h
  · simp only [Traced.value_bind, Traced.value_pure, Option.some.injEq] at h
    subst h
    simp only [Envelope.addresses, List.mem_append] at haddress
    rcases haddress with ((((h | h) | h) | h) | h) | h <;>
      exact Address.consistent_of_mem_listOfField h
  · cases h

theorem Multipart.consistent_of_paramsOf? {field : Field} {params : Params}
    (h : Multipart.paramsOf? field = some params) : params.Consistent := by
  unfold Multipart.paramsOf? at h
  split at h
  · cases h
    exact Params.consistent_ofPairs _
  · cases h

/-! ## Extension data -/

/-- Extension data of a body brings no disposition but what a list denotes. -/
theorem Leaf.Consistent.extend {info : Leaf} {embedded : Option Part} (h : info.Consistent embedded)
    (tail : List Field) : (info.extend tail).Consistent embedded where
  message := h.message
  lines := h.lines
  params := h.params
  disposition disposition hdisposition := by
    simp only [Leaf.extend] at hdisposition
    cases htail : tail[1]? with
    | none =>
      rw [htail] at hdisposition
      exact h.disposition disposition hdisposition
    | some field =>
      rw [htail] at hdisposition
      exact Disposition.consistent_of_ofFields? hdisposition
  envelope := h.envelope

/-- What stands behind the parts of a multipart gives consistent attributes. -/
theorem Multipart.consistent_ofBehind (specifier : String) (behind : List Field) :
    (Multipart.ofBehind specifier behind).Consistent where
  location := rfl
  params params hparams := by
    simp only [Multipart.ofBehind, Multipart.extend] at hparams
    cases htail : behind.tail[0]? with
    | none =>
      rw [htail] at hparams
      cases hparams
    | some field =>
      rw [htail] at hparams
      exact Multipart.consistent_of_paramsOf? hparams
  disposition disposition hdisposition := by
    simp only [Multipart.ofBehind, Multipart.extend] at hdisposition
    cases htail : behind.tail[1]? with
    | none =>
      rw [htail] at hdisposition
      cases hdisposition
    | some field =>
      rw [htail] at hdisposition
      exact Disposition.consistent_of_ofFields? hdisposition

namespace Decoder

variable {embedded : Field → Traced (Option Part)} {maxDepth levels : Nat} {part : Part}

/-! ## One step -/

/-- The structures that `embedded` reads are consistent throughout. -/
def ReadsConsistent (embedded : Field → Traced (Option Part)) : Prop :=
  ∀ {field inner}, (embedded field).value = some inner → inner.Throughout

/-- The first seven attributes of a body. -/
theorem consistent_ofFixed (specifier mediaType subtype : String) {params : Params}
    (hparams : params.Consistent) (id description encoding : String) (size : UInt32) :
    (Leaf.ofFixed specifier mediaType subtype params id description encoding size).Consistent
      none where
  message h := by
    rcases h with h | h <;> cases h
  lines h := by cases h
  params := hparams
  disposition _ h := by cases h
  envelope _ h := by cases h

/-- What stands behind the seventh element of a body keeps to its type. -/
theorem throughout_leafTail (hembedded : ReadsConsistent embedded) {leaf : Leaf}
    (hleaf : leaf.Consistent none) (tail : List Field) :
    (leafTail embedded leaf tail).value.Throughout := by
  unfold leafTail
  split
  next lines tail htext =>
    simp only [Traced.value_bind, Traced.value_pure, Leaf.value_readAll_extensions]
    refine Part.throughout_leaf_iff.2 ⟨Leaf.Consistent.extend ?_ tail, fun inner h => by cases h⟩
    exact {
      message := fun h => ⟨(hleaf.message h).1, rfl⟩
      lines := fun _ => .inl htext
      params := hleaf.params
      disposition := hleaf.disposition
      envelope := hleaf.envelope }
  next envelope inner lines tail htext hmessage =>
    rw [Leaf.isMessage, Bool.and_eq_true] at hmessage
    simp only [Traced.value_bind, Traced.value_pure, Leaf.value_readAll_extensions]
    refine Part.throughout_leaf_iff.2 ⟨Leaf.Consistent.extend ?_ tail, fun inner => hembedded⟩
    exact {
      message := fun _ => ⟨hmessage, rfl⟩
      lines := fun _ => .inr hmessage
      params := hleaf.params
      disposition := hleaf.disposition
      envelope := fun _ => Envelope.consistent_of_ofField? }
  next =>
    simp only [Traced.value_bind, Traced.value_pure, Leaf.value_readAll_extensions]
    exact Part.throughout_leaf_iff.2 ⟨hleaf.extend _, fun inner h => by cases h⟩

theorem throughout_leaf? (hembedded : ReadsConsistent embedded) {specifier : String}
    {items : List Field} (h : (leaf? embedded specifier items).value = some part) :
    part.Throughout := by
  unfold leaf? at h
  split at h
  · simp only [Traced.value_bind, Traced.value_map, Option.some.injEq, Params.value_ofFields] at h
    rw [← h]
    exact throughout_leafTail hembedded
      (consistent_ofFixed _ _ _ (Params.consistent_ofPairs _) _ _ _ _) _
  · cases h

theorem readsConsistent_inside
    (h : ∀ {stem items inner},
      (structure? maxDepth levels stem items).value = some inner → inner.Throughout) :
    ReadsConsistent (inside (structure? maxDepth levels "")) := by
  intro field inner hinner
  rw [value_inside] at hinner
  split at hinner
  · cases hinner
  · exact h hinner

theorem throughout_child?
    (h : ∀ {stem items inner},
      (structure? maxDepth levels stem items).value = some inner → inner.Throughout)
    {specifier : String} {child : List Field}
    (hchild : (child? maxDepth levels specifier child).value = some part) : part.Throughout := by
  unfold child? at hchild
  split at hchild
  · exact h hchild
  · exact throughout_leaf? (readsConsistent_inside h) hchild

/-! ## All of decoding -/

/-- **Structures are consistent throughout.** -/
theorem throughout_structure? {stem : String} {items : List Field}
    (h : (structure? maxDepth levels stem items).value = some part) : part.Throughout := by
  induction levels generalizing stem items part with
  | zero => cases h
  | succ levels ih =>
    cases hm : isMultipart items with
    | true =>
      rw [value_structure?_multipart hm] at h
      cases h
      refine Part.throughout_multipart_iff.2
        ⟨Multipart.consistent_ofBehind _ _, fun part hpart => ?_⟩
      obtain ⟨child, -, hchild⟩ := List.mem_filterMap.1 hpart
      exact throughout_child? ih hchild
    | false =>
      rw [value_structure?_leaf hm] at h
      exact throughout_leaf? (readsConsistent_inside ih) h

/-- **Everything that decoding produces fits together**, whatever the field and the limit, at any
depth of the part and inside its messages: no multipart has a location, only messages have an
envelope or a structure inside them and only messages and texts have a line count, parameters have
each key in one spelling and with a value, the date of an envelope is the one that its text denotes,
and an address has its usual form if it has a mailbox and a host. -/
theorem part?_consistent (decoder : Decoder) (field : Field) {part : Part}
    (h : (decoder.part? field).value = some part) : ∀ node ∈ part.nodes, node.Consistent := by
  rw [value_part?] at h
  split at h
  · cases h
  · exact throughout_structure? h

/-- The message with a note inside it has a line count, and the note is consistent too. -/
theorem part?_consistent_message :
    ∃ info note,
      ((Decoder.mk 1).part? (.list messageFields)).value = some (.leaf info (some note)) ∧
        info.lineCount.isSome = true ∧ info.params.Consistent ∧ note.Consistent := by
  have hcase : sameLetters "RFC822" "rfc822" = true := Text.sameLetters_iff_toList.2 (by decide)
  obtain ⟨info, hmessage⟩ := @value_part?_message 1 messageFields
    (by decide) (Text.sameLetters_refl _) hcase
  obtain ⟨leaf, inner, hnote⟩ :
      ∃ leaf inner, standaloneInner? 1 (.list noteFields) = some (.leaf leaf inner) := by
    obtain ⟨note, hnote⟩ : ∃ note, standaloneInner? 1 (.list noteFields) = some note := ⟨_, rfl⟩
    obtain ⟨leaf, inner, rfl, -⟩ := @eq_leaf_of_value_part? 0 noteFields rfl note hnote
    exact ⟨leaf, inner, hnote⟩
  have hinner : messageFields[8] = .list noteFields := rfl
  rw [hinner, hnote] at hmessage
  have hnodes := part?_consistent (Decoder.mk 1) (.list messageFields) hmessage
  have hinfo : info.Consistent (some (.leaf leaf inner)) := hnodes _ List.mem_cons_self
  refine ⟨info, .leaf leaf inner, hmessage, (hinfo.message (.inr rfl)).2, hinfo.params, ?_⟩
  exact hnodes _ (List.mem_cons_of_mem _ (by cases inner <;> exact List.mem_cons_self))

end Decoder

end MailOutline
