import MailOutline.Proofs.Decoding

/-!
# What the attributes report

Structures report what is left out of the tree, attributes report what is odd about a value. The two
kinds of events do not mix: no attribute tells of a structure.

* `Event.ofStructure`, `Event.ofValue`: whether an event tells of a structure, or of a value.
* `Traced.Only`: a run all of whose events have a property. Steps that have it one after the other
  have it together (`Traced.Only.bind`).
* `Params.only_ofFields`, `Address.only_listOfFields`, `Envelope.only_ofField?`: attribute lists,
  addresses and envelopes tell of values.
* `Traced.Plain`: a run that tells of no structure. Attributes and extension data are plain
  (`Disposition.plain_ofFields?`, `Leaf.plain_readAll`, `Multipart.plain_readAll`).
-/

namespace MailOutline

namespace Event

/-- Whether an event tells of a structure: that it is none, nests too deep, is too short for a body,
or was left out of a multipart. -/
def ofStructure : Event → Bool
  | .notAStructure | .tooDeep .. | .shortBody .. | .droppedPart _ => true
  | _ => false

/-- Whether an event tells of a value: of an attribute list, of an address, or of an envelope and
its date. -/
def ofValue : Event → Bool
  | .oddAttributes _ | .shortAddress | .shortEnvelope _ | .unknownDate _ => true
  | _ => false

theorem ofStructure_of_ofValue {event : Event} (h : event.ofValue = true) :
    event.ofStructure = false := by
  cases event with
  | oddAttributes | shortAddress | shortEnvelope | unknownDate => rfl
  | _ => cases h

end Event

namespace Traced

variable {α β : Type} {x : Traced α} {f : α → Traced β} {p q : Event → Prop}

/-! ## Runs with events of one kind -/

/-- Every event has the property. -/
def Only (p : Event → Prop) (x : Traced α) : Prop := ∀ event ∈ x.events, p event

theorem only_pure (a : α) : (pure a : Traced α).Only p := fun _ h => nomatch h

theorem Only.bind (hx : x.Only p) (hf : ∀ a, (f a).Only p) : (x >>= f).Only p :=
  List.forall_mem_append.2 ⟨hx, hf x.value⟩

theorem Only.map (f : α → β) (hx : x.Only p) : (f <$> x).Only p := by
  rw [Only, events_map]
  exact hx

theorem Only.mono (hx : x.Only p) (h : ∀ {event}, p event → q event) : x.Only q :=
  fun event hevent => h (hx event hevent)

theorem only_report {event : Event} (h : p event) : (report event).Only p :=
  List.forall_mem_singleton.2 h

/-- A run that only reports. -/
theorem only_reported {event : Event} (h : p event) (a : α) :
    (do report event; return a : Traced α).Only p :=
  (only_report h).bind fun _ => only_pure a

/-! ## Runs that tell of no structure -/

/-- No event tells of a structure. -/
def Plain (x : Traced α) : Prop := ∀ event ∈ x.events, event.ofStructure = false

@[simp] theorem plain_pure (a : α) : (pure a : Traced α).Plain := only_pure a

theorem Plain.bind (hx : x.Plain) (hf : ∀ a, (f a).Plain) : (x >>= f).Plain := Only.bind hx hf

theorem Plain.map (f : α → β) (hx : x.Plain) : (f <$> x).Plain := Only.map f hx

end Traced

/-! ## Attributes -/

theorem Params.only_ofFields (items : List Field) :
    (Params.ofFields items).Only fun event => event.ofValue = true := by
  unfold Params.ofFields
  split
  · exact Traced.only_reported (by rfl) _
  · exact Traced.only_pure _

theorem Params.plain_ofFields (items : List Field) : (Params.ofFields items).Plain :=
  (Params.only_ofFields items).mono Event.ofStructure_of_ofValue

theorem Disposition.plain_ofFields? (items : List Field) :
    (Disposition.ofFields? items).Plain := by
  unfold Disposition.ofFields?
  split
  · exact Traced.plain_pure none
  · split
    · exact (Params.plain_ofFields _).bind fun _ => Traced.plain_pure _
    · exact Traced.only_reported (by rfl) none
  · exact Traced.only_reported (by rfl) none

theorem Address.only_ofField (field : Field) :
    (Address.ofField field).Only fun event => event.ofValue = true := by
  unfold Address.ofField
  split
  · exact Traced.only_pure _
  · exact Traced.only_reported (by rfl) _

theorem Address.only_listOfFields (items : List Field) :
    (Address.listOfFields items).Only fun event => event.ofValue = true := by
  induction items with
  | nil => exact Traced.only_pure []
  | cons field rest ih =>
    rw [Address.listOfFields]
    split
    · exact (Address.only_ofField field).bind fun _ => ih.bind fun _ => Traced.only_pure _
    · exact ih

theorem Envelope.only_readDate (text : String) :
    (Envelope.readDate text).Only fun event => event.ofValue = true := by
  simp only [Envelope.readDate]
  split
  · exact Traced.only_reported (by rfl) _
  · exact Traced.only_pure _

theorem Envelope.only_ofField? (field : Field) :
    (Envelope.ofField? field).Only fun event => event.ofValue = true := by
  unfold Envelope.ofField?
  split
  · refine (Envelope.only_readDate _).bind fun _ => ?_
    iterate 6 refine (Address.only_listOfFields _).bind fun _ => ?_
    exact Traced.only_pure _
  · exact Traced.only_reported (by rfl) none

theorem Envelope.plain_ofField? (field : Field) : (Envelope.ofField? field).Plain :=
  (Envelope.only_ofField? field).mono Event.ofStructure_of_ofValue

/-! ## Extension data -/

theorem Extension.only_readAll {α : Type} {p : Event → Prop}
    (hname : ∀ name field, p (@Event.extensionData name field))
    (hunknown : ∀ ignored, p (.unknownExtensions ignored)) {extensions : List (Extension α)}
    (h : ∀ extension ∈ extensions, ∀ field part, (extension.read field part).Only p)
    (tail : List Field) (part : α) : (Extension.readAll extensions tail part).Only p := by
  induction extensions generalizing tail part with
  | nil =>
    cases tail with
    | nil => exact Traced.only_pure part
    | cons => exact Traced.only_reported (hunknown _) part
  | cons extension more ih =>
    obtain ⟨hfirst, hmore⟩ := List.forall_mem_cons.1 h
    cases tail with
    | nil => exact Traced.only_pure part
    | cons field tail =>
      refine (Traced.only_report (hname _ _)).bind fun _ => ?_
      exact (hfirst field part).bind fun part => ih hmore tail part

theorem Leaf.plain_readAll (tail : List Field) (leaf : Leaf) :
    (Extension.readAll Leaf.extensions tail leaf).Plain := by
  refine Extension.only_readAll (fun _ _ => rfl) (fun _ => rfl)
    (fun extension hextension field leaf => ?_) tail leaf
  simp only [Leaf.extensions, List.mem_cons, List.not_mem_nil, or_false] at hextension
  obtain rfl | rfl | rfl | rfl := hextension
  · exact Traced.plain_pure _
  · exact (Disposition.plain_ofFields? _).bind fun _ => Traced.plain_pure _
  · exact Traced.plain_pure _
  · exact Traced.plain_pure _

theorem Multipart.only_readParams? (field : Field) :
    (Multipart.readParams? field).Only fun event => event.ofValue = true := by
  unfold Multipart.readParams?
  split
  · exact (Params.only_ofFields _).map some
  · exact Traced.only_pure none

theorem Multipart.plain_readAll (tail : List Field) (multipart : Multipart) :
    (Extension.readAll Multipart.extensions tail multipart).Plain := by
  refine Extension.only_readAll (fun _ _ => rfl) (fun _ => rfl)
    (fun extension hextension field multipart => ?_) tail multipart
  simp only [Multipart.extensions, List.mem_cons, List.not_mem_nil, or_false] at hextension
  obtain rfl | rfl | rfl := hextension
  · exact ((Multipart.only_readParams? _).mono Event.ofStructure_of_ofValue).bind fun _ =>
      Traced.plain_pure _
  · exact (Disposition.plain_ofFields? _).bind fun _ => Traced.plain_pure _
  · exact Traced.plain_pure _

end MailOutline
