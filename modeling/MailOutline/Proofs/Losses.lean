import MailOutline.Proofs.Consistency
import MailOutline.Proofs.Numbering
import MailOutline.Proofs.Warnings

/-!
# No part is lost without a report

A multipart has a part for each of its leading lists, but for those that denote none. These are
reported, each right behind the cause, so the lists that went into a decoded tree are its parts and
the reported losses together.

* `Part.origins`: the multiparts of a tree, those inside messages included, each with the list that
  it comes from. The numbers in the specifiers lead to the lists.
* `Origin.missing`: the specifiers of the lists that no part of the multipart comes from.
* `Explained`: events in which each loss has its cause in front of it. They can be joined
  (`Explained.append`).
* `Decoder.Accounted`: a run that reports the losses of what it gives, and explains them.
* `Decoder.accounted_leaf?`, `Decoder.accounted_multipart`: one step of decoding.
* `Decoder.accounted_structureAt?`: all of decoding, by induction on the levels.
* `Decoder.part?_losses`: the balance for the part that a field denotes.
-/

namespace MailOutline

/-! ## Losses among events -/

namespace Event

/-- The specifier of a part that was left out of its multipart. -/
def dropped? : Event → Option String
  | .droppedPart specifier => some specifier
  | _ => none

theorem dropped?_eq_none {event : Event} (h : event.ofStructure = false) :
    event.dropped? = none := by
  cases event with
  | droppedPart specifier => cases h
  | _ => rfl

/-- Why there is no part under a specifier: the list there has less than seven elements, or it is a
multipart below the limit. -/
inductive Causes (maxDepth : Nat) (specifier : String) : Event → Prop
  | short (len : Nat) (h : len < 7) : Causes maxDepth specifier (.shortBody len specifier)
  | deep : Causes maxDepth specifier (.tooDeep (maxDepth + 1) maxDepth)

end Event

/-- The specifiers of the parts that were left out, in order. -/
def losses (events : List Event) : List String := events.filterMap Event.dropped?

theorem losses_append (a b : List Event) : losses (a ++ b) = losses a ++ losses b :=
  List.filterMap_append

theorem losses_of_plain {events : List Event} (h : ∀ event ∈ events, event.ofStructure = false) :
    losses events = [] :=
  List.filterMap_eq_nil_iff.2 fun event hevent => Event.dropped?_eq_none (h event hevent)

/-- Events in which each loss stands right behind its cause. -/
inductive Explained (maxDepth : Nat) : List Event → Prop
  | nil : Explained maxDepth []
  | other {event : Event} {rest : List Event} (h : event.dropped? = none)
      (hrest : Explained maxDepth rest) : Explained maxDepth (event :: rest)
  | loss {cause : Event} {specifier : String} {rest : List Event}
      (h : cause.Causes maxDepth specifier) (hrest : Explained maxDepth rest) :
      Explained maxDepth (cause :: .droppedPart specifier :: rest)

namespace Explained

variable {maxDepth : Nat} {a b : List Event}

theorem append (ha : Explained maxDepth a) (hb : Explained maxDepth b) :
    Explained maxDepth (a ++ b) := by
  induction ha with
  | nil => exact hb
  | other h _ ih => exact .other h ih
  | loss h _ ih => exact .loss h ih

theorem of_lossless (h : ∀ event ∈ a, event.dropped? = none) : Explained maxDepth a := by
  induction a with
  | nil => exact .nil
  | cons event rest ih =>
    obtain ⟨hevent, hrest⟩ := List.forall_mem_cons.1 h
    exact .other hevent (ih hrest)

theorem of_plain (h : ∀ event ∈ a, event.ofStructure = false) : Explained maxDepth a :=
  of_lossless fun event hevent => Event.dropped?_eq_none (h event hevent)

/-- The event in front of a loss is its cause. -/
theorem exists_cause (ha : Explained maxDepth a) {i : Nat} {specifier : String}
    (hi : a[i]? = some (.droppedPart specifier)) :
    ∃ j cause, i = j + 1 ∧ a[j]? = some cause ∧ cause.Causes maxDepth specifier := by
  induction ha generalizing i with
  | nil => cases hi
  | other h _ ih =>
    cases i with
    | zero =>
      cases hi
      cases h
    | succ i =>
      obtain ⟨j, cause, rfl, hj, hcause⟩ := ih hi
      exact ⟨j + 1, cause, rfl, hj, hcause⟩
  | loss h _ ih =>
    match i with
    | 0 =>
      cases hi
      cases h
    | 1 =>
      cases hi
      exact ⟨0, _, rfl, rfl, h⟩
    | i + 2 =>
      obtain ⟨j, cause, rfl, hj, hcause⟩ := ih hi
      exact ⟨j + 2, cause, rfl, hj, hcause⟩

end Explained

/-! ## The lists that a tree comes from -/

/-- A multipart of a decoded tree, with the list that it comes from. -/
structure Origin where
  /-- The attributes of the multipart. -/
  info : Multipart
  /-- The parts of the multipart. -/
  parts : List Part
  /-- The list. -/
  items : List Field

namespace Origin

/-- The multipart. -/
def part (origin : Origin) : Part := .multipart origin.info origin.parts

/-- The list denotes the multipart, at some place and with some levels left. -/
def Decoded (maxDepth : Nat) (origin : Origin) : Prop :=
  ∃ levels path, (Decoder.structure? maxDepth levels (Specifier.stem path) origin.items).value =
    some origin.part

/-- The leading lists, each of which may denote a part. -/
def lists (origin : Origin) : List Field := origin.items.takeWhile Field.isList

/-- The specifiers of the leading lists: what all specifiers inside the multipart begin with, and
the number of the list. -/
def labels (origin : Origin) : List String :=
  let path := (Specifier.path? origin.info.specifier).getD []
  (List.range' 1 origin.lists.length).map fun number => Specifier.stem path ++ Nat.repr number

/-- The specifiers of the leading lists that no part of the multipart has. -/
def missing (origin : Origin) : List String :=
  origin.labels.filter fun label =>
    origin.parts.all fun part => Specifier.path? part.specifier ≠ Specifier.path? label

/-- Each leading list is there as a part, or missing. -/
def Balanced (origin : Origin) : Prop :=
  origin.lists.length = origin.parts.length + origin.missing.length

end Origin

namespace Part

/-- The list that a part of a multipart comes from. The last number of its specifier is the number
of that list. -/
def source (items : List Field) (part : Part) : List Field :=
  let number := (Specifier.path? part.specifier).bind List.getLast?
  ((number.bind (Decoder.childAt? items)).map Field.asList).getD []

mutual

/-- The multiparts of a part that comes from a list, with the lists that they come from. The
structure of an embedded message comes from the ninth element. -/
def origins : List Field → Part → List Origin
  | _, leaf _ none => []
  | items, leaf _ (some inner) => origins ((items[8]?.map Field.asList).getD []) inner
  | items, multipart info parts => ⟨info, parts, items⟩ :: originsAll items parts

/-- The multiparts of the parts of a multipart that comes from a list. -/
def originsAll : List Field → List Part → List Origin
  | _, [] => []
  | items, part :: rest => origins (source items part) part ++ originsAll items rest

end

theorem originsAll_eq_flatMap (items : List Field) (parts : List Part) :
    originsAll items parts = parts.flatMap fun part => part.origins (part.source items) := by
  induction parts with
  | nil => rfl
  | cons part rest ih => rw [originsAll, ih, List.flatMap_cons]

mutual

/-- Every multipart of a part has its origin. -/
theorem map_part_origins (items : List Field) : ∀ part : Part,
    (part.origins items).map Origin.part = part.nodes.filter fun node => node.kind = .multipart
  | leaf info none => rfl
  | leaf info (some inner) => by
    rw [origins, map_part_origins _ inner, nodes, List.filter_cons_of_neg Bool.false_ne_true]
  | multipart info parts => by
    rw [origins, List.map_cons, map_part_originsAll items parts, nodes, List.filter_cons_of_pos rfl]
    rfl

theorem map_part_originsAll (items : List Field) : ∀ parts : List Part,
    (originsAll items parts).map Origin.part =
      (nodesAll parts).filter fun node => node.kind = .multipart
  | [] => rfl
  | part :: rest => by
    rw [originsAll, List.map_append, map_part_origins _ part, map_part_originsAll items rest,
      nodesAll, List.filter_append]

end

end Part

namespace Decoder

/-- The multiparts of what a list denotes. -/
def originsOf (items : List Field) (part : Option Part) : List Origin :=
  part.elim [] (Part.origins items)

/-- A run that reports what is missing from the multiparts that it gives, each time with the cause
in front, and nothing else as lost. -/
structure Accounted (maxDepth : Nat) (items : List Field) (run : Traced (Option Part)) : Prop where
  explained : Explained maxDepth run.events
  reported : (losses run.events).Perm ((originsOf items run.value).flatMap Origin.missing)
  balanced : ∀ origin ∈ originsOf items run.value, origin.Balanced
  decoded : ∀ origin ∈ originsOf items run.value, origin.Decoded maxDepth

variable {maxDepth levels depth : Nat} {items : List Field} {path : List Nat}
  {embedded : Field → Traced (Option Part)}
  {one below : String → List Field → Traced (Option Part)}

/-! ## Bodies -/

/-- A run that gives no multipart and reports no loss. -/
theorem accounted_of_losses_eq_nil {run : Traced (Option Part)}
    (hnone : originsOf items run.value = [])
    (hlosses : ∀ event ∈ run.events, event.dropped? = none) :
    Accounted maxDepth items run where
  explained := .of_lossless hlosses
  reported := by
    rw [hnone, losses, List.filterMap_eq_nil_iff.2 hlosses]
    exact .nil
  balanced := by
    rw [hnone]
    exact fun origin h => absurd h List.not_mem_nil
  decoded := by
    rw [hnone]
    exact fun origin h => absurd h List.not_mem_nil

/-- Plain events around a run change nothing. -/
theorem Accounted.around {run whole : Traced (Option Part)} {inner : List Field}
    {before behind : List Event} (h : Accounted maxDepth inner run)
    (hevents : whole.events = before ++ (run.events ++ behind))
    (hbefore : ∀ event ∈ before, event.ofStructure = false)
    (hbehind : ∀ event ∈ behind, event.ofStructure = false)
    (hsame : originsOf items whole.value = originsOf inner run.value) :
    Accounted maxDepth items whole where
  explained := by
    rw [hevents]
    exact (Explained.of_plain hbefore).append (h.explained.append (.of_plain hbehind))
  reported := by
    rw [hevents, losses_append, losses_append, losses_of_plain hbefore, losses_of_plain hbehind,
      List.nil_append, List.append_nil, hsame]
    exact h.reported
  balanced := by
    rw [hsame]
    exact h.balanced
  decoded := by
    rw [hsame]
    exact h.decoded

theorem accounted_leafTail (h : ∀ field, Accounted maxDepth field.asList (embedded field))
    (leaf : Leaf) (front : List Field) (hfront : front.length = 7) (tail : List Field) :
    Accounted maxDepth (front ++ tail) (some <$> leafTail embedded leaf tail) := by
  -- Extension data alone: there is no multipart and no loss.
  have hplain : ∀ (info : Leaf) (more : List Field), Accounted maxDepth (front ++ tail)
      (some <$> do
        let info ← Extension.readAll Leaf.extensions more info
        return .leaf info none) := fun info more =>
    accounted_of_losses_eq_nil rfl fun event hevent => Event.dropped?_eq_none <|
      (((Leaf.plain_readAll more info).bind fun _ => Traced.plain_pure _).map some) event hevent
  unfold leafTail
  split
  next => exact hplain _ _
  next envelope inner lines more _ _ =>
    refine (h inner).around (Traced.events_map _ _) (Envelope.plain_ofField? envelope)
      ((Leaf.plain_readAll more _).bind fun _ => Traced.plain_pure _) ?_
    have hinner : (front ++ envelope :: inner :: lines :: more)[8]? = some inner := by
      rw [List.getElem?_append_right (by omega), hfront]
      rfl
    simp only [Traced.value_map, Traced.value_bind, Traced.value_pure, originsOf]
    cases (embedded inner).value with
    | none => rfl
    | some part => simp only [Option.elim, Part.origins, hinner, Option.map_some, Option.getD_some]
  next => exact hplain _ _

theorem accounted_leaf? (h : ∀ field, Accounted maxDepth field.asList (embedded field))
    (specifier : String) (items : List Field) :
    Accounted maxDepth items (leaf? embedded specifier items) := by
  unfold leaf?
  split
  next mediaType subtype params id description encoding size tail =>
    have htail := accounted_leafTail h (Leaf.ofFixed specifier mediaType.asText subtype.asText
      (Params.ofFields params.asList).value id.asText description.asText encoding.asText
      size.asNumber) [mediaType, subtype, params, id, description, encoding, size] rfl tail
    refine htail.around ?_ (Params.plain_ofFields params.asList)
      (List.forall_mem_nil fun event : Event => event.ofStructure = false) rfl
    rw [List.append_nil]
    rfl
  next =>
    exact accounted_of_losses_eq_nil rfl (List.forall_mem_singleton.2 rfl)

/-! ## Multiparts -/

/-- The name that a list with a number has in the multipart at a path. -/
def label (path : List Nat) (number : Nat) : String := Specifier.stem path ++ Nat.repr number

/-- A reader of the parts of the multipart at a path: it accounts for each list, names the part
after its number, and where there is none it reports the cause and nothing else. -/
structure ReadsParts (maxDepth : Nat) (path : List Nat)
    (one : String → List Field → Traced (Option Part)) : Prop where
  accounted : ∀ number child, Accounted maxDepth child (one (label path number) child)
  named : ∀ {number child part}, (one (label path number) child).value = some part →
    Specifier.path? part.specifier = some (path ++ [number])
  caused : ∀ {number child}, (one (label path number) child).value = none →
    ∃ cause : Event, (one (label path number) child).events = [cause] ∧
      cause.Causes maxDepth (label path number)

section Numbered

variable (path : List Nat) (one : String → List Field → Traced (Option Part))

/-- The part that a numbered list denotes. -/
def partOf (child : Field × Nat) : Option Part := (one (label path child.2) child.1.asList).value

/-- The multiparts of what some numbered lists denote. -/
def originsIn (numbered : List (Field × Nat)) : List Origin :=
  numbered.flatMap fun child => originsOf child.1.asList (partOf path one child)

/-- The names of the numbered lists that denote no part. -/
def lostIn (numbered : List (Field × Nat)) : List String :=
  (numbered.filter fun child => (partOf path one child).isNone).map fun child => label path child.2

end Numbered

theorem explained_parts (h : ReadsParts maxDepth path one) (first : Nat) (children : List Field) :
    Explained maxDepth (parts one (Specifier.stem path) first children).events := by
  induction children generalizing first with
  | nil => exact .nil
  | cons child rest ih =>
    simp only [parts, Traced.events_bind]
    cases hpart : (one (Specifier.stem path ++ Nat.repr first) child.asList).value with
    | some part => exact (h.accounted _ _).explained.append ((ih (first + 1)).append .nil)
    | none =>
      obtain ⟨cause, hcause, hwhy⟩ := h.caused hpart
      rw [← label, hcause]
      exact .loss hwhy (ih (first + 1))

/-- The losses among the parts: those inside the parts, and the lists that denote none. -/
theorem losses_parts (h : ReadsParts maxDepth path one) (first : Nat) (children : List Field) :
    (losses (parts one (Specifier.stem path) first children).events).Perm
      ((originsIn path one (children.zipIdx first)).flatMap Origin.missing ++
        lostIn path one (children.zipIdx first)) := by
  induction children generalizing first with
  | nil => exact .nil
  | cons child rest ih =>
    have hfirst := (h.accounted first child.asList).reported
    rw [List.zipIdx_cons, originsIn, List.flatMap_cons, List.flatMap_append, List.append_assoc,
      ← originsIn]
    simp only [parts, Traced.events_bind, losses_append]
    cases hpart : (one (Specifier.stem path ++ Nat.repr first) child.asList).value with
    | some part =>
      have hkept : lostIn path one ((child, first) :: rest.zipIdx (first + 1)) =
          lostIn path one (rest.zipIdx (first + 1)) := by
        rw [lostIn, List.filter_cons_of_neg, ← lostIn]
        rw [partOf, label, hpart]
        exact Bool.false_ne_true
      rw [hkept]
      refine hfirst.append ?_
      simp only [Traced.events_bind, Traced.events_pure, List.append_nil]
      exact ih (first + 1)
    | none =>
      have hlost : lostIn path one ((child, first) :: rest.zipIdx (first + 1)) =
          label path first :: lostIn path one (rest.zipIdx (first + 1)) := by
        rw [lostIn, List.filter_cons_of_pos, List.map_cons, ← lostIn]
        rw [partOf, label, hpart]
        rfl
      rw [hlost]
      refine hfirst.append ?_
      exact ((ih (first + 1)).cons (label path first)).trans List.perm_middle.symm

/-- Only the list with its own number gives a part with a name. -/
theorem partOf_isSome_iff (h : ReadsParts maxDepth path one) {children : List Field}
    {child : Field × Nat} (hchild : child ∈ children.zipIdx 1) :
    (partOf path one child).isSome = true ↔
      ∃ part ∈ (children.zipIdx 1).filterMap (partOf path one),
        Specifier.path? part.specifier = Specifier.path? (label path child.2) := by
  rw [label, Specifier.path?_stem_repr]
  constructor
  · intro hsome
    obtain ⟨part, hpart⟩ := Option.isSome_iff_exists.1 hsome
    exact ⟨part, List.mem_filterMap.2 ⟨child, hchild, hpart⟩, h.named hpart⟩
  · rintro ⟨part, hpart, hpath⟩
    obtain ⟨other, hother, hvalue⟩ := List.mem_filterMap.1 hpart
    rw [h.named hvalue, Option.some.injEq, List.append_cancel_left_eq, List.cons.injEq] at hpath
    have hsame : other = child := by
      obtain ⟨-, -, hfirst⟩ := List.mem_zipIdx hchild
      obtain ⟨-, -, hsecond⟩ := List.mem_zipIdx hother
      refine Prod.ext ?_ hpath.1
      rw [hfirst, hsecond]
      simp only [hpath.1]
    rw [← hsame, hvalue]
    rfl

/-- **What is missing from a multipart** are the lists that denote no part. -/
theorem missing_eq_lostIn (h : ReadsParts maxDepth path one) (info : Multipart)
    (hinfo : info.specifier = Specifier.stem path ++ "TEXT") (items : List Field) :
    let numbered := (items.takeWhile Field.isList).zipIdx 1
    (Origin.mk info (numbered.filterMap (partOf path one)) items).missing =
      lostIn path one numbered := by
  intro numbered
  have hlabels : (Origin.mk info (numbered.filterMap (partOf path one)) items).labels =
      numbered.map fun child => label path child.2 := by
    have hnumbers : numbered.map Prod.snd = List.range' 1 (items.takeWhile Field.isList).length :=
      List.zipIdx_map_snd 1 _
    simp only [Origin.labels, Origin.lists, hinfo, Specifier.path?_stem_text, Option.getD_some,
      ← hnumbers, List.map_map]
    rfl
  rw [Origin.missing, hlabels, List.filter_map, lostIn]
  refine congrArg _ (List.filter_congr fun child hchild => ?_)
  rw [Function.comp_apply, Bool.eq_iff_iff, List.all_eq_true, ← Option.not_isSome,
    Bool.not_eq_true', ← Bool.not_eq_true, partOf_isSome_iff h hchild]
  simp only [decide_eq_true_eq, not_exists, not_and, ne_eq]
  rfl

/-- Each list is among the parts or among the losses. -/
theorem length_filterMap_add_length_lostIn (numbered : List (Field × Nat)) :
    (numbered.filterMap (partOf path one)).length + (lostIn path one numbered).length =
      numbered.length := by
  rw [lostIn, List.length_map]
  induction numbered with
  | nil => rfl
  | cons child rest ih =>
    rw [List.filterMap_cons, List.filter_cons, List.length_cons]
    cases partOf path one child with
    | none =>
      simp only [Option.isNone_none, if_true, List.length_cons]
      omega
    | some part =>
      simp only [Option.isNone_some, Bool.false_eq_true, if_false, List.length_cons]
      omega

/-- **The numbers of the parts lead to the lists** that they come from. -/
theorem flatMap_source {α : Type} (g : List Field → Part → List α)
    (hnamed : ∀ {number child part}, (one (label path number) child).value = some part →
      Specifier.path? part.specifier = some (path ++ [number])) (items : List Field) :
    let numbered := (items.takeWhile Field.isList).zipIdx 1
    ((numbered.filterMap (partOf path one)).flatMap fun part => g (part.source items) part) =
      numbered.flatMap fun child => (partOf path one child).elim [] (g child.1.asList) := by
  intro numbered
  have hsource : ∀ child ∈ numbered, ∀ part, partOf path one child = some part →
      part.source items = child.1.asList := by
    rintro ⟨field, number⟩ hchild part hpart
    obtain ⟨hle, hlt, hfield⟩ := List.mem_zipIdx hchild
    obtain ⟨index, rfl⟩ := Nat.exists_eq_add_of_le' hle
    have hchildAt : childAt? items (index + 1) = some field := by
      rw [hfield]
      exact List.getElem?_eq_getElem (by omega)
    simp only [Part.source, hnamed hpart, Option.bind_some, List.getLast?_concat, hchildAt,
      Option.map_some, Option.getD_some]
  generalize numbered = listed at hsource
  induction listed with
  | nil => rfl
  | cons child rest ih =>
    obtain ⟨hfirst, hrest⟩ := List.forall_mem_cons.1 hsource
    rw [List.filterMap_cons, List.flatMap_cons, ← ih hrest]
    cases hpart : partOf path one child with
    | none => rfl
    | some part => rw [List.flatMap_cons, hfirst part hpart, Option.elim_some]

theorem originsAll_eq_originsIn (h : ReadsParts maxDepth path one) (items : List Field) :
    let numbered := (items.takeWhile Field.isList).zipIdx 1
    Part.originsAll items (numbered.filterMap (partOf path one)) = originsIn path one numbered := by
  intro numbered
  rw [Part.originsAll_eq_flatMap]
  exact flatMap_source Part.origins h.named items

/-- The step for a multipart: the losses inside its parts, then its own. -/
theorem accounted_multipart (h : ReadsParts maxDepth path one) {items : List Field}
    (hself : (structure? maxDepth levels (Specifier.stem path) items).value =
      (some <$> multipart one (Specifier.stem path) items).value) :
    Accounted maxDepth items (some <$> multipart one (Specifier.stem path) items) := by
  have hvalue : (some <$> multipart one (Specifier.stem path) items).value =
      some (.multipart (Multipart.ofBehind (Specifier.stem path ++ "TEXT")
        (items.dropWhile Field.isList))
        (((items.takeWhile Field.isList).zipIdx 1).filterMap (partOf path one))) := by
    rw [Traced.value_map, value_multipart]
    rfl
  have horigins := originsAll_eq_originsIn h items
  have hmissing := missing_eq_lostIn h (Multipart.ofBehind (Specifier.stem path ++ "TEXT")
    (items.dropWhile Field.isList)) rfl items
  obtain ⟨behind, hevents, hplain⟩ : ∃ behind : List Event,
      (some <$> multipart one (Specifier.stem path) items).events =
        (parts one (Specifier.stem path) 1 (items.takeWhile Field.isList)).events ++ behind ∧
      ∀ event ∈ behind, event.ofStructure = false :=
    ⟨_, Traced.events_map _ _,
      (Multipart.plain_readAll _ _).bind fun _ => Traced.plain_pure _⟩
  refine ⟨?_, ?_, ?_, ?_⟩
  · rw [hevents]
    exact (explained_parts h 1 _).append (.of_plain hplain)
  · rw [hevents, losses_append, losses_of_plain hplain, List.append_nil, hvalue, originsOf,
      Option.elim_some, Part.origins, List.flatMap_cons, horigins, hmissing]
    exact (losses_parts h 1 _).trans List.perm_append_comm
  · rw [hvalue, originsOf, Option.elim_some, Part.origins, horigins, List.forall_mem_cons]
    refine ⟨?_, fun origin horigin => ?_⟩
    · rw [Origin.Balanced, hmissing, length_filterMap_add_length_lostIn, List.length_zipIdx]
      rfl
    · obtain ⟨child, -, hmem⟩ := List.mem_flatMap.1 horigin
      exact (h.accounted child.2 child.1.asList).balanced origin hmem
  · rw [hvalue, originsOf, Option.elim_some, Part.origins, horigins, List.forall_mem_cons]
    refine ⟨⟨levels, path, hself.trans hvalue⟩, fun origin horigin => ?_⟩
    obtain ⟨child, -, hmem⟩ := List.mem_flatMap.1 horigin
    exact (h.accounted child.2 child.1.asList).decoded origin hmem

/-! ## All of decoding -/

theorem accounted_inside {structure? : List Field → Traced (Option Part)}
    (h : ∀ items, Accounted maxDepth items (structure? items)) (field : Field) :
    Accounted maxDepth field.asList (inside structure? field) := by
  unfold inside
  split
  · exact accounted_of_losses_eq_nil rfl (List.forall_mem_singleton.2 rfl)
  next => exact h _

/-- A structure is missing only below the limit. -/
theorem causes_of_value_structureAt? (hdepth : depth + levels = maxDepth + 1)
    (hm : isMultipart items = true) {specifier stem : String}
    (h : (structureAt? maxDepth levels depth stem items).value = none) :
    ∃ cause : Event, (structureAt? maxDepth levels depth stem items).events = [cause] ∧
      cause.Causes maxDepth specifier := by
  cases levels with
  | zero =>
    rw [Nat.add_zero] at hdepth
    subst hdepth
    exact ⟨_, rfl, .deep⟩
  | succ levels =>
    simp only [structureAt?, hm, if_true, Traced.value_map] at h
    cases h

/-- A body is missing only where there are less than seven elements. -/
theorem causes_of_value_leaf? {specifier : String}
    (h : (leaf? embedded specifier items).value = none) :
    ∃ cause : Event, (leaf? embedded specifier items).events = [cause] ∧
      cause.Causes maxDepth specifier := by
  have hlen := value_leaf?_eq_none_iff.1 h
  unfold leaf?
  split
  · simp only [List.length_cons] at hlen
    omega
  · exact ⟨_, rfl, .short _ hlen⟩

theorem specifier_of_value_structureAt? (hm : isMultipart items = true) {stem : String}
    {part : Part} (h : (structureAt? maxDepth levels depth stem items).value = some part) :
    part.specifier = stem ++ "TEXT" := by
  cases levels with
  | zero => cases h
  | succ levels =>
    simp only [structureAt?, hm, if_true, Traced.value_map, value_multipart] at h
    cases h
    rfl

/-- A part of a multipart is named after the number of its list. -/
theorem path?_of_value_childWith? {number : Nat} {child : List Field} {part : Part}
    (h : (childWith? (structureAt? maxDepth levels depth) (label path number) child).value =
      some part) :
    Specifier.path? part.specifier = some (path ++ [number]) := by
  unfold childWith? at h
  split at h
  next hm =>
    rw [label, ← Specifier.stem_concat] at h
    rw [specifier_of_value_structureAt? hm h, Specifier.path?_stem_text]
  next =>
    obtain ⟨info, inner, rfl, hspecifier⟩ := eq_leaf_of_value_leaf? h
    rw [Part.specifier, hspecifier, label, Specifier.path?_stem_repr]

theorem readsParts_childWith? (hdepth : depth + levels = maxDepth + 1)
    (h : ∀ path items, Accounted maxDepth items
      (structureAt? maxDepth levels depth (Specifier.stem path) items)) (path : List Nat) :
    ReadsParts maxDepth path (childWith? (structureAt? maxDepth levels depth)) where
  accounted number child := by
    unfold childWith?
    split
    · rw [label, ← Specifier.stem_concat]
      exact h _ child
    · exact accounted_leaf? (accounted_inside (h [])) _ child
  named := path?_of_value_childWith?
  caused := by
    intro number child hnone
    unfold childWith? at hnone ⊢
    split at hnone
    next hm =>
      rw [if_pos hm]
      exact causes_of_value_structureAt? hdepth hm hnone
    next hm =>
      rw [if_neg hm]
      exact causes_of_value_leaf? hnone

/-- **Every structure accounts for its lists**, at the depth that goes with its levels. -/
theorem accounted_structureAt? (hdepth : depth + levels = maxDepth + 1) (path : List Nat)
    (items : List Field) :
    Accounted maxDepth items (structureAt? maxDepth levels depth (Specifier.stem path) items) := by
  induction levels generalizing depth path items with
  | zero => exact accounted_of_losses_eq_nil rfl (List.forall_mem_singleton.2 rfl)
  | succ levels ih =>
    have hbelow := @ih (depth + 1) (by omega)
    cases hm : isMultipart items with
    | true =>
      have hself : structureAt? maxDepth (levels + 1) depth (Specifier.stem path) items =
          some <$> multipart (childWith? (structureAt? maxDepth levels (depth + 1)))
            (Specifier.stem path) items := by
        rw [structureAt?]
        simp only [hm, if_true]
      rw [hself]
      refine accounted_multipart (readsParts_childWith? (by omega) hbelow path)
        (?_ : (structure? maxDepth (levels + 1) _ _).value = _)
      rw [← hself]
      exact value_structureAt?_congr maxDepth _ depth
    | false =>
      rw [structureAt?]
      simp only [hm, Bool.false_eq_true, if_false]
      exact accounted_leaf? (accounted_inside (hbelow [])) _ items

/-- The lists of balanced origins are their parts and what is missing. -/
theorem length_lists {origins : List Origin} (h : ∀ origin ∈ origins, origin.Balanced) :
    (origins.flatMap Origin.lists).length =
      (origins.flatMap Origin.parts).length + (origins.flatMap Origin.missing).length := by
  induction origins with
  | nil => rfl
  | cons origin rest ih =>
    obtain ⟨hfirst, hrest⟩ := List.forall_mem_cons.1 h
    simp only [List.flatMap_cons, List.length_append, ih hrest]
    rw [Origin.Balanced] at hfirst
    omega

/-- **No part is lost without a report.** The origins are the multiparts of the decoded tree, those
inside messages included, with the lists that denote them. All their leading lists together are all
their parts and the reported losses. These are told one by one under the specifiers that no part of
the multipart has, and in front of each stands its cause: a list of less than seven elements under
the same specifier, or the warning of the limit. -/
theorem part?_losses (maxDepth : Nat) (field : Field) :
    let run := (Decoder.mk maxDepth).part? field
    let origins := originsOf field.asList run.value
    (origins.map Origin.part =
      (run.value.elim [] Part.nodes).filter fun node => node.kind = .multipart) ∧
    (∀ origin ∈ origins, origin.Decoded maxDepth) ∧
    (origins.flatMap Origin.lists).length =
      (origins.flatMap Origin.parts).length + (losses run.events).length ∧
    (losses run.events).Perm (origins.flatMap Origin.missing) ∧
    ∀ i specifier, run.events[i]? = some (.droppedPart specifier) →
      ∃ j cause, i = j + 1 ∧ run.events[j]? = some cause ∧ cause.Causes maxDepth specifier := by
  intro run origins
  have hrun : Accounted maxDepth field.asList run := by
    simp only [run, part?_eq_inside]
    exact accounted_inside (accounted_structureAt? (Nat.zero_add _) []) field
  refine ⟨?_, hrun.decoded, ?_, hrun.reported, fun i specifier => hrun.explained.exists_cause⟩
  · cases hvalue : run.value with
    | none =>
      simp only [origins, hvalue, originsOf, Option.elim_none, List.map_nil, List.filter_nil]
    | some root =>
      simp only [origins, hvalue, originsOf, Option.elim_some]
      exact Part.map_part_origins _ root
  · rw [length_lists hrun.balanced, hrun.reported.length_eq]

/-- The empty list is lost, and the event in front of its loss says that it is short. -/
theorem part?_losses_gap :
    ((Decoder.mk 1).part? (.list gapFields)).events[1]? = some (.droppedPart "1") ∧
      ∃ j cause, 1 = j + 1 ∧ ((Decoder.mk 1).part? (.list gapFields)).events[j]? = some cause ∧
        cause.Causes 1 "1" := by
  have hlost : ((Decoder.mk 1).part? (.list gapFields)).events[1]? = some (.droppedPart "1") := rfl
  exact ⟨hlost, (part?_losses 1 (.list gapFields)).2.2.2.2 1 "1" hlost⟩

end Decoder

end MailOutline
