import MailOutline.Proofs.Losses
import MailOutline.Proofs.Tails

/-!
# Which dispositions are lost, and which losses are reported

The disposition of a part is the second attribute of its extension data. It has to be a list. Every
list that is no disposition is reported, each once, and nothing else is: a text or a number at that
position is left out without a word, as if there were nothing.

* `refusals`: the events that tell of a disposition. A list that is not empty is a disposition, or
  it is refused (`Disposition.ofFields?_cases`).
* `tailRefusals`: what is reported of the disposition in a tail (`Leaf.refusals_readAll`,
  `Multipart.refusals_readAll`).
* `Node`: a part of a decoded tree with the list that it comes from. `Part.sourced` gives all of
  them.
* `Decoder.Told`: a run that reports the refused dispositions of the parts that it gives, and no
  others.
* `Decoder.told_leaf?`, `Decoder.told_multipart`: one step of decoding.
* `Decoder.told_structureAt?`: all of decoding, by induction on the levels.
* `Decoder.part?_dispositions`: the dispositions of the part that a field denotes.
-/

namespace MailOutline

/-! ## Events that tell of a disposition -/

/-- Whether an event tells of a disposition. -/
def Event.ofDisposition : Event → Bool
  | .malformedDisposition _ | .dispositionAttributes => true
  | _ => false

theorem Event.ofDisposition_of_ofValue {event : Event} (h : event.ofValue = true) :
    event.ofDisposition = false := by
  cases event with
  | malformedDisposition | dispositionAttributes => cases h
  | _ => rfl

/-- What these events look like. -/
theorem Event.level_of_ofDisposition {event : Event} (h : event.ofDisposition = true) :
    event.level.name = "TRACE" ∧ (event.message = "malformed disposition" ∨
      event.message = "disposition attributes are not a list") := by
  cases event with
  | malformedDisposition => exact ⟨rfl, .inl rfl⟩
  | dispositionAttributes => exact ⟨rfl, .inr rfl⟩
  | _ => cases h

/-- The events that tell of a disposition, in order. -/
def refusals (events : List Event) : List Event := events.filter Event.ofDisposition

theorem refusals_append (a b : List Event) : refusals (a ++ b) = refusals a ++ refusals b :=
  List.filter_append a b

theorem Traced.Only.refusals {α : Type} {x : Traced α}
    (h : x.Only fun event => event.ofDisposition = false) : refusals x.events = [] := by
  refine List.filter_eq_nil_iff.2 fun event hevent => ?_
  rw [h event hevent]
  exact Bool.false_ne_true

theorem Traced.Only.refusals_of_ofValue {α : Type} {x : Traced α}
    (h : x.Only fun event => event.ofValue = true) : MailOutline.refusals x.events = [] :=
  (h.mono Event.ofDisposition_of_ofValue).refusals

/-! ## One disposition -/

/-- **A list that is not empty** is a disposition, or it is refused. -/
theorem Disposition.ofFields?_cases {items : List Field} (hne : items ≠ []) :
    (ofFields? items).value.isSome = true ∧ refusals (ofFields? items).events = [] ∨
      (ofFields? items).value = none ∧ ∃ event, refusals (ofFields? items).events = [event] ∧
        (event = .malformedDisposition items.length ∨ event = .dispositionAttributes) := by
  cases hvalue : (ofFields? items).value with
  | none =>
    refine .inr ⟨rfl, ?_⟩
    rcases reported_of_ofFields?_eq_none hne hvalue with hevents | hevents
    · exact ⟨_, congrArg refusals hevents, .inr rfl⟩
    · exact ⟨_, congrArg refusals hevents, .inl rfl⟩
  | some disposition =>
    refine .inl ⟨rfl, ?_⟩
    unfold ofFields? at hvalue ⊢
    split at hvalue
    · cases hvalue
    · split at hvalue
      next hlist =>
        rw [if_pos hlist]
        exact ((Params.only_ofFields _).bind fun _ => Traced.only_pure _).refusals_of_ofValue
      · cases hvalue
    · cases hvalue

/-! ## Extension data -/

/-- What is reported of the disposition in a tail, its second element. -/
def tailRefusals (tail : List Field) : List Event :=
  (tail[1]?.map fun field => refusals (Disposition.ofFields? field.asList).events).getD []

section

variable {α : Type} {first second : Extension α} {more : List (Extension α)}

/-- Extension data that tells of a disposition at its second position only. -/
theorem Extension.refusals_readAll
    (hfirst : ∀ field part, refusals (first.read field part).events = [])
    (hsecond : ∀ field part, refusals (second.read field part).events =
      refusals (Disposition.ofFields? field.asList).events)
    (hmore : ∀ extension ∈ more, ∀ field part,
      (extension.read field part).Only fun event => event.ofDisposition = false)
    (tail : List Field) (part : α) :
    refusals (readAll (first :: second :: more) tail part).events = tailRefusals tail := by
  have hbehind : ∀ tail part, refusals (readAll more tail part).events = [] := fun tail part =>
    (only_readAll (fun _ _ => rfl) (fun _ => rfl) hmore tail part).refusals
  cases tail with
  | nil => rfl
  | cons field tail =>
    cases tail with
    | nil =>
      simp only [readAll, Traced.events_bind, refusals_append, hfirst]
      rfl
    | cons disposition rest =>
      simp only [readAll, Traced.events_bind, refusals_append, hfirst, hsecond, hbehind,
        List.append_nil]
      rfl

end

theorem Leaf.refusals_readAll (tail : List Field) (leaf : Leaf) :
    refusals (Extension.readAll Leaf.extensions tail leaf).events = tailRefusals tail := by
  refine Extension.refusals_readAll (fun _ _ => rfl) (fun field leaf => ?_)
    (fun extension hextension field leaf => ?_) tail leaf
  · rw [Traced.events_bind, Traced.events_pure, List.append_nil]
  · simp only [List.mem_cons, List.not_mem_nil, or_false] at hextension
    obtain rfl | rfl := hextension
    · exact Traced.only_pure _
    · exact Traced.only_pure _

theorem Multipart.refusals_readAll (tail : List Field) (multipart : Multipart) :
    refusals (Extension.readAll Multipart.extensions tail multipart).events =
      tailRefusals tail := by
  refine Extension.refusals_readAll (fun field multipart => ?_) (fun field multipart => ?_)
    (fun extension hextension field multipart => ?_) tail multipart
  · exact ((Multipart.only_readParams? field).bind fun _ =>
      Traced.only_pure _).refusals_of_ofValue
  · rw [Traced.events_bind, Traced.events_pure, List.append_nil]
  · rw [List.mem_singleton] at hextension
    subst hextension
    exact Traced.only_pure _

/-! ## Parts and their lists -/

/-- The disposition of a part. -/
def Part.disposition : Part → Option Disposition
  | leaf info _ => info.disposition
  | multipart info _ => info.disposition

/-- A part of a decoded tree, with the list that it comes from. -/
structure Node where
  /-- The part. -/
  part : Part
  /-- The list. -/
  items : List Field

namespace Node

/-- The field at the position of the disposition. -/
def field? (node : Node) : Option Field := node.items[Decoder.tailStart node.items + 1]?

/-- What is reported of the disposition. -/
def refusals (node : Node) : List Event :=
  tailRefusals (node.items.drop (Decoder.tailStart node.items))

/-- The disposition of the part is what that field denotes, and nothing where there is none. -/
def Read (node : Node) : Prop :=
  node.part.disposition = node.field?.bind fun field => (Disposition.ofFields? field.asList).value

/-- The list denotes the part: a body, whatever the structure inside it, or a multipart, whatever
its parts. -/
inductive Decoded : Node → Prop
  | body {embedded : Field → Traced (Option Part)} {specifier : String} {items : List Field}
      {part : Part} (h : Decoder.isMultipart items = false)
      (decoded : (Decoder.leaf? embedded specifier items).value = some part) :
      Decoded ⟨part, items⟩
  | multipart {one : String → List Field → Traced (Option Part)} {stem : String}
      {items : List Field} (h : Decoder.isMultipart items = true) :
      Decoded ⟨(Decoder.multipart one stem items).value, items⟩

end Node

namespace Part

mutual

/-- All parts in a part that comes from a list, itself included, each with its own list. -/
def sourced : List Field → Part → List Node
  | items, leaf info none => [⟨leaf info none, items⟩]
  | items, leaf info (some inner) =>
    ⟨leaf info (some inner), items⟩ :: sourced ((items[8]?.map Field.asList).getD []) inner
  | items, multipart info parts => ⟨multipart info parts, items⟩ :: sourcedAll items parts

/-- All parts in the parts of a multipart that comes from a list. -/
def sourcedAll : List Field → List Part → List Node
  | _, [] => []
  | items, part :: rest => sourced (source items part) part ++ sourcedAll items rest

end

theorem sourcedAll_eq_flatMap (items : List Field) (parts : List Part) :
    sourcedAll items parts = parts.flatMap fun part => part.sourced (part.source items) := by
  induction parts with
  | nil => rfl
  | cons part rest ih => rw [sourcedAll, ih, List.flatMap_cons]

mutual

/-- Every part of a tree is there. -/
theorem map_part_sourced (items : List Field) : ∀ part : Part,
    (part.sourced items).map Node.part = part.nodes
  | leaf info none => rfl
  | leaf info (some inner) => by rw [sourced, List.map_cons, map_part_sourced _ inner, nodes]
  | multipart info parts => by rw [sourced, List.map_cons, map_part_sourcedAll items parts, nodes]

theorem map_part_sourcedAll (items : List Field) : ∀ parts : List Part,
    (sourcedAll items parts).map Node.part = nodesAll parts
  | [] => rfl
  | part :: rest => by
    rw [sourcedAll, List.map_append, map_part_sourced _ part, map_part_sourcedAll items rest,
      nodesAll]

end

end Part

namespace Decoder

variable {maxDepth levels depth : Nat} {items : List Field} {path : List Nat}
  {embedded : Field → Traced (Option Part)} {leaf : Leaf}
  {one : String → List Field → Traced (Option Part)}

/-- The parts of what a list denotes. -/
def nodesOf (items : List Field) (part : Option Part) : List Node :=
  part.elim [] (Part.sourced items)

/-- A run that reports what is refused of the parts that it gives, and tells of no other
disposition. -/
structure Told (items : List Field) (run : Traced (Option Part)) : Prop where
  reported : (refusals run.events).Perm ((nodesOf items run.value).flatMap Node.refusals)
  decoded : ∀ node ∈ nodesOf items run.value, node.Decoded ∧ node.Read

/-- A run that gives no part and tells of no disposition. -/
theorem told_of_none {run : Traced (Option Part)} (hnone : run.value = none)
    (hevents : refusals run.events = []) : Told items run where
  reported := by
    rw [hnone, hevents]
    exact .nil
  decoded := by
    rw [hnone]
    exact fun node h => absurd h List.not_mem_nil

/-- Other events change nothing. -/
theorem Told.congr {run whole : Traced (Option Part)} (h : Told items run)
    (hvalue : whole.value = run.value) (hevents : refusals whole.events = refusals run.events) :
    Told items whole where
  reported := by
    rw [hvalue, hevents]
    exact h.reported
  decoded := by
    rw [hvalue]
    exact h.decoded

/-! ## Bodies -/

/-- The extension data of a body begins where its list says. -/
theorem read_leaf {info : Leaf} {inner : Option Part} {tail : List Field}
    (hnone : info.disposition = none) (htail : items.drop (tailStart items) = tail) :
    Node.Read ⟨.leaf (info.extend tail) inner, items⟩ := by
  rw [Node.Read, Node.field?, ← List.getElem?_drop, htail, Part.disposition, Leaf.extend, hnone]
  cases tail[1]? <;> rfl

/-- A body with nothing inside it. -/
theorem told_body {run : Traced Part} {info : Leaf} {tail : List Field}
    (hrun : run = do
      let info ← Extension.readAll Leaf.extensions tail info
      return .leaf info none)
    (hnone : info.disposition = none) (htail : items.drop (tailStart items) = tail)
    (hdecoded : Node.Decoded ⟨run.value, items⟩) : Told items (some <$> run) := by
  have hvalue : run.value = .leaf (info.extend tail) none := by
    rw [hrun, Traced.value_bind, Traced.value_pure, Leaf.value_readAll_extensions]
  have hnodes : nodesOf items (some <$> run).value = [⟨run.value, items⟩] := by
    rw [Traced.value_map, hvalue]
    rfl
  have hread : Node.Read ⟨run.value, items⟩ := hvalue ▸ read_leaf hnone htail
  refine ⟨?_, ?_⟩
  · rw [hnodes, List.flatMap_singleton, Node.refusals, htail, Traced.events_map, hrun,
      Traced.events_bind, Traced.events_pure, List.append_nil, Leaf.refusals_readAll]
  · rw [hnodes]
    exact List.forall_mem_singleton.2 ⟨hdecoded, hread⟩

/-- A message: what is told inside it, then its own disposition. -/
theorem told_message (h : ∀ field, Told field.asList (embedded field))
    (hmessage : leaf.isMessage = true) (hnone : leaf.disposition = none)
    {envelope inner lines : Field} {tail : List Field}
    (htail : items.drop (tailStart items) = tail) (hinner : items[8]? = some inner)
    (hdecoded :
      Node.Decoded ⟨(leafTail embedded leaf (envelope :: inner :: lines :: tail)).value, items⟩) :
    Told items (some <$> leafTail embedded leaf (envelope :: inner :: lines :: tail)) := by
  have hvalue : (leafTail embedded leaf (envelope :: inner :: lines :: tail)).value = .leaf _ _ :=
    value_leafTail_message hmessage envelope inner lines tail
  have hread : Node.Read
      ⟨(leafTail embedded leaf (envelope :: inner :: lines :: tail)).value, items⟩ :=
    hvalue ▸ read_leaf hnone htail
  have hnodes : nodesOf items
      (some <$> leafTail embedded leaf (envelope :: inner :: lines :: tail)).value =
        ⟨(leafTail embedded leaf (envelope :: inner :: lines :: tail)).value, items⟩ ::
          nodesOf inner.asList (embedded inner).value := by
    rw [Traced.value_map, hvalue]
    simp only [nodesOf, Option.elim]
    cases (embedded inner).value with
    | none => rfl
    | some part => simp only [Part.sourced, hinner, Option.map_some, Option.getD_some]
  have hevents : refusals
      (some <$> leafTail embedded leaf (envelope :: inner :: lines :: tail)).events =
        refusals (embedded inner).events ++ tailRefusals tail := by
    rw [Traced.events_map, leafTail_message hmessage]
    simp only [Traced.events_bind, Traced.events_pure, List.append_nil, refusals_append,
      Leaf.refusals_readAll]
    rw [(Envelope.only_ofField? envelope).refusals_of_ofValue, List.nil_append]
  refine ⟨?_, ?_⟩
  · rw [hnodes, hevents, List.flatMap_cons, Node.refusals, htail]
    exact List.perm_append_comm.trans ((h inner).reported.append_left _)
  · rw [hnodes]
    exact List.forall_mem_cons.2 ⟨⟨hdecoded, hread⟩, (h inner).decoded⟩

theorem told_leafTail (h : ∀ field, Told field.asList (embedded field))
    (hnone : leaf.disposition = none) {front tail : List Field} (hfront : front.length = 7)
    (hstart : tailStart (front ++ tail) =
      bodyTailStart leaf.mediaType leaf.subtype (tail.length + 7))
    (hdecoded : Node.Decoded ⟨(leafTail embedded leaf tail).value, front ++ tail⟩) :
    Told (front ++ tail) (some <$> leafTail embedded leaf tail) := by
  by_cases ht : leaf.isText = true ∧ 8 ≤ tail.length + 7
  · rw [bodyTailStart_text ht] at hstart
    obtain ⟨htext, hlength⟩ := ht
    match tail, hlength with
    | lines :: more, _ =>
      refine told_body (leafTail_text htext lines more) hnone ?_ hdecoded
      rw [hstart, List.drop_append, hfront, List.drop_of_length_le (by omega)]
      rfl
  by_cases hm : leaf.isMessage = true ∧ 10 ≤ tail.length + 7
  · rw [bodyTailStart_message hm] at hstart
    obtain ⟨hmessage, hlength⟩ := hm
    match tail, hlength with
    | envelope :: inner :: lines :: more, _ =>
      refine told_message h hmessage hnone ?_ ?_ hdecoded
      · rw [hstart, List.drop_append, hfront, List.drop_of_length_le (by omega)]
        rfl
      · rw [List.getElem?_append_right (by omega), hfront]
        rfl
  · refine told_body (leafTail_short ht hm) hnone ?_ hdecoded
    rw [hstart, bodyTailStart_plain ht hm, ← hfront, List.drop_left]

theorem told_leaf? (h : ∀ field, Told field.asList (embedded field))
    (hbody : isMultipart items = false) (specifier : String) :
    Told items (leaf? embedded specifier items) := by
  by_cases hlength : items.length < 7
  · refine told_of_none (value_leaf?_of_length_lt hlength) ?_
    unfold leaf?
    split
    · simp only [List.length_cons] at hlength
      omega
    · rfl
  match items, Nat.le_of_not_lt hlength with
  | mediaType :: subtype :: params :: id :: description :: encoding :: size :: tail, _ =>
    have hstart : tailStart (mediaType :: subtype :: params :: id :: description :: encoding ::
        size :: tail) = bodyTailStart mediaType.asText subtype.asText (tail.length + 7) :=
      if_neg (hbody ▸ Bool.false_ne_true)
    have hfront : [mediaType, subtype, params, id, description, encoding, size].length = 7 := rfl
    have hdecoded : (leaf? embedded specifier (mediaType :: subtype :: params :: id ::
        description :: encoding :: size :: tail)).value = some _ := value_leaf?_cons ..
    rw [← Params.value_ofFields] at hdecoded
    have htail := told_leafTail h rfl hfront hstart (.body hbody hdecoded)
    refine htail.congr rfl ?_
    rw [leaf?, Traced.events_bind, refusals_append,
      (Params.only_ofFields params.asList).refusals_of_ofValue, List.nil_append]

/-! ## Multiparts -/

theorem refusals_parts (h : ∀ number child, Told child (one (label path number) child))
    (first : Nat) (children : List Field) :
    (refusals (parts one (Specifier.stem path) first children).events).Perm
      ((children.zipIdx first).flatMap fun child =>
        (nodesOf child.1.asList (partOf path one child)).flatMap Node.refusals) := by
  induction children generalizing first with
  | nil => exact .nil
  | cons child rest ih =>
    have hfirst := (h first child.asList).reported
    rw [List.zipIdx_cons, List.flatMap_cons]
    simp only [parts, Traced.events_bind, refusals_append]
    refine hfirst.append ?_
    cases (one (Specifier.stem path ++ Nat.repr first) child.asList).value with
    | some part =>
      simp only [Traced.events_bind, Traced.events_pure, List.append_nil]
      exact ih (first + 1)
    | none => exact ih (first + 1)

/-- The step for a multipart: what is told of its parts, then its own disposition. -/
theorem told_multipart (h : ∀ number child, Told child (one (label path number) child))
    (hnamed : ∀ {number child part}, (one (label path number) child).value = some part →
      Specifier.path? part.specifier = some (path ++ [number]))
    (hm : isMultipart items = true) :
    Told items (some <$> multipart one (Specifier.stem path) items) := by
  have hnodes : nodesOf items (some <$> multipart one (Specifier.stem path) items).value =
      ⟨(multipart one (Specifier.stem path) items).value, items⟩ ::
        ((items.takeWhile Field.isList).zipIdx 1).flatMap fun child =>
          nodesOf child.1.asList (partOf path one child) := by
    rw [Traced.value_map, value_multipart, nodesOf, Option.elim_some, Part.sourced,
      Part.sourcedAll_eq_flatMap]
    exact congrArg _ (flatMap_source Part.sourced hnamed items)
  have htail : items.drop (tailStart items) = (items.dropWhile Field.isList).tail := by
    have hdrop : (items.takeWhile Field.isList ++ items.dropWhile Field.isList).drop
        (items.takeWhile Field.isList).length = items.dropWhile Field.isList := List.drop_left
    rw [List.takeWhile_append_dropWhile] at hdrop
    rw [tailStart, if_pos hm, ← List.drop_drop, hdrop, List.drop_one]
  have hread : Node.Read ⟨(multipart one (Specifier.stem path) items).value, items⟩ := by
    rw [Node.Read, Node.field?, ← List.getElem?_drop, htail, value_multipart, Part.disposition,
      Multipart.ofBehind, Multipart.extend]
    cases (items.dropWhile Field.isList).tail[1]? <;> rfl
  have hevents : refusals (some <$> multipart one (Specifier.stem path) items).events =
      refusals (parts one (Specifier.stem path) 1 (items.takeWhile Field.isList)).events ++
        tailRefusals (items.dropWhile Field.isList).tail := by
    rw [Traced.events_map, multipart]
    simp only [Traced.events_bind, Traced.events_pure, List.append_nil, refusals_append,
      Multipart.refusals_readAll]
  refine ⟨?_, ?_⟩
  · rw [hnodes, hevents, List.flatMap_cons, Node.refusals, htail, List.flatMap_assoc]
    exact List.perm_append_comm.trans ((refusals_parts h 1 _).append_left _)
  · rw [hnodes]
    refine List.forall_mem_cons.2 ⟨⟨.multipart hm, hread⟩, fun node hnode => ?_⟩
    obtain ⟨child, -, hmem⟩ := List.mem_flatMap.1 hnode
    exact (h child.2 child.1.asList).decoded node hmem

/-! ## All of decoding -/

theorem told_inside {structure? : List Field → Traced (Option Part)}
    (h : ∀ items, Told items (structure? items)) (field : Field) :
    Told field.asList (inside structure? field) := by
  unfold inside
  split
  · exact told_of_none rfl rfl
  · exact h _

/-- **Every structure tells of its dispositions.** -/
theorem told_structureAt? (maxDepth levels depth : Nat) (path : List Nat) (items : List Field) :
    Told items (structureAt? maxDepth levels depth (Specifier.stem path) items) := by
  induction levels generalizing depth path items with
  | zero => exact told_of_none rfl rfl
  | succ levels ih =>
    have hbody : ∀ {items}, isMultipart items = false → ∀ specifier, Told items
        (leaf? (inside (structureAt? maxDepth levels (depth + 1) "")) specifier items) :=
      fun hbody => told_leaf? (told_inside (ih (depth + 1) [])) hbody
    rw [structureAt?]
    cases hm : isMultipart items with
    | true =>
      simp only [if_true]
      refine told_multipart (fun number child => ?_) path?_of_value_childWith? hm
      unfold childWith?
      cases hchild : isMultipart child with
      | true =>
        rw [if_pos rfl, label, ← Specifier.stem_concat]
        exact ih (depth + 1) _ child
      | false =>
        rw [if_neg Bool.false_ne_true]
        exact hbody hchild _
    | false =>
      simp only [Bool.false_eq_true, if_false]
      exact hbody hm _

/-- What is reported of the disposition of a list, told by its field. -/
theorem refusals_of_field? {node : Node} :
    node.refusals = (node.field?.map fun field =>
      refusals (Disposition.ofFields? field.asList).events).getD [] := by
  rw [Node.refusals, tailRefusals, List.getElem?_drop]
  rfl

theorem told_part? (maxDepth : Nat) (field : Field) :
    Told field.asList ((Decoder.mk maxDepth).part? field) := by
  rw [part?_eq_inside]
  exact told_inside (told_structureAt? maxDepth (maxDepth + 1) 0 []) field

/-- **No disposition in a list is lost without a report, and every other one is.** The nodes are the
parts of the decoded tree, those inside messages included, each with the list that denotes it. The
events that tell of a disposition are those of the nodes. Where a list that is not empty stands at
the position of the disposition, either the part has a disposition, or there is an event at level
`TRACE` which tells that it is malformed or that its attributes are no list. Where anything else
stands there, be it a text or a number, there is neither a disposition nor an event. -/
theorem part?_dispositions (maxDepth : Nat) (field : Field) :
    let run := (Decoder.mk maxDepth).part? field
    let nodes := nodesOf field.asList run.value
    nodes.map Node.part = run.value.elim [] Part.nodes ∧
    (∀ node ∈ nodes, node.Decoded) ∧
    (refusals run.events).Perm (nodes.flatMap Node.refusals) ∧
    ∀ node ∈ nodes, ∀ found, node.field? = some found →
      (found.asList ≠ [] →
        node.part.disposition.isSome = true ∧ node.refusals = [] ∨
          node.part.disposition = none ∧ ∃ event ∈ run.events, node.refusals = [event] ∧
            event.level.name = "TRACE" ∧
            (event.message = "malformed disposition" ∨
              event.message = "disposition attributes are not a list")) ∧
      (found.asList = [] → node.part.disposition = none ∧ node.refusals = []) := by
  intro run nodes
  have hrun : Told field.asList run := told_part? maxDepth field
  refine ⟨?_, fun node hnode => (hrun.decoded node hnode).1, hrun.reported, ?_⟩
  · cases hvalue : run.value with
    | none => simp only [nodes, hvalue, nodesOf, Option.elim_none, List.map_nil]
    | some root =>
      simp only [nodes, hvalue, nodesOf, Option.elim_some]
      exact Part.map_part_sourced _ root
  intro node hnode found hfound
  have hdisposition : node.part.disposition = (Disposition.ofFields? found.asList).value := by
    have hread : node.Read := (hrun.decoded node hnode).2
    rwa [Node.Read, hfound, Option.bind_some] at hread
  have hrefusals : node.refusals = refusals (Disposition.ofFields? found.asList).events := by
    rw [refusals_of_field?, hfound, Option.map_some, Option.getD_some]
  rw [hdisposition, hrefusals]
  constructor
  · intro hne
    rcases Disposition.ofFields?_cases hne with hkept | ⟨hnone, event, hevents, hkind⟩
    · exact .inl hkept
    · have htold : event ∈ refusals run.events := by
        rw [hrun.reported.mem_iff]
        refine List.mem_flatMap.2 ⟨node, hnode, ?_⟩
        rw [hrefusals, hevents]
        exact List.mem_singleton_self event
      obtain ⟨hevent, hof⟩ := List.mem_filter.1 htold
      exact .inr ⟨hnone, event, hevent, hevents, Event.level_of_ofDisposition hof⟩
  · intro hnil
    rw [hnil]
    exact ⟨rfl, rfl⟩

/-- The list of a PDF file, with a field at the position of the disposition. -/
def pdfFields (found : Field) : List Field :=
  [.atom "APPLICATION", .atom "PDF", .nil, .nil, .nil, .atom "BASE64", .number 10, .nil, found]

/-- The file is the only part that the list denotes, and the field is that of its disposition. -/
theorem nodesOf_pdfFields (found : Field) :
    ∃ node : Node, nodesOf (pdfFields found)
        ((Decoder.mk 32).part? (.list (pdfFields found))).value = [node] ∧
      node.field? = some found := by
  have htext : Text.sameLetters "APPLICATION" "text" = false := by
    rw [Bool.eq_false_iff, ne_eq, Text.sameLetters_iff_toList]
    decide
  have ht : ¬(Text.sameLetters "APPLICATION" "text" = true ∧ 8 ≤ 9) := fun h =>
    Bool.false_ne_true (htext.symm.trans h.1)
  have hm : ∀ message : Bool, ¬(message = true ∧ 10 ≤ 9) := fun _ h => absurd h.2 (by decide)
  have hstart : tailStart (pdfFields found) = 7 := (if_neg ht).trans (if_neg (hm _))
  obtain ⟨info, hvalue⟩ : ∃ info,
      ((Decoder.mk 32).part? (.list (pdfFields found))).value = some (.leaf info none) :=
    ⟨_, (value_part?_body _ rfl).trans
      ((value_leaf?_cons ..).trans (congrArg some (value_leafTail_short ht (hm _))))⟩
  refine ⟨⟨.leaf info none, pdfFields found⟩, by rw [hvalue]; rfl, ?_⟩
  rw [Node.field?, hstart]
  rfl

/-- A disposition without attributes is reported. A text that is none is not. -/
theorem part?_dispositions_pdf :
    (∃ node ∈ nodesOf (pdfFields (.list [.atom "attachment"]))
        ((Decoder.mk 32).part? (.list (pdfFields (.list [.atom "attachment"])))).value,
      node.field? = some (.list [.atom "attachment"]) ∧ node.part.disposition = none ∧
      ∃ event ∈ ((Decoder.mk 32).part? (.list (pdfFields (.list [.atom "attachment"])))).events,
        node.refusals = [event] ∧ event.level.name = "TRACE" ∧
          (event.message = "malformed disposition" ∨
            event.message = "disposition attributes are not a list")) ∧
    ∃ node ∈ nodesOf (pdfFields (.atom "attachment"))
        ((Decoder.mk 32).part? (.list (pdfFields (.atom "attachment")))).value,
      node.field? = some (.atom "attachment") ∧ node.part.disposition = none ∧
        node.refusals = [] := by
  obtain ⟨listed, hlisted, hlist⟩ := nodesOf_pdfFields (.list [.atom "attachment"])
  obtain ⟨bare, hbare, htext⟩ := nodesOf_pdfFields (.atom "attachment")
  have hin : listed ∈ nodesOf (pdfFields (.list [.atom "attachment"]))
      ((Decoder.mk 32).part? (.list (pdfFields (.list [.atom "attachment"])))).value :=
    hlisted ▸ List.mem_singleton_self listed
  have hon : bare ∈ nodesOf (pdfFields (.atom "attachment"))
      ((Decoder.mk 32).part? (.list (pdfFields (.atom "attachment")))).value :=
    hbare ▸ List.mem_singleton_self bare
  have hkept : listed.refusals ≠ [] := by
    rw [refusals_of_field?, hlist]
    exact List.cons_ne_nil _ _
  have htold := ((part?_dispositions 32 (.list (pdfFields (.list [.atom "attachment"])))).2.2.2
    listed hin _ hlist).1 (List.cons_ne_nil _ _)
  have hsilent := ((part?_dispositions 32 (.list (pdfFields (.atom "attachment")))).2.2.2
    bare hon _ htext).2 rfl
  exact ⟨⟨listed, hin, hlist, htold.resolve_left fun h => hkept h.2⟩, bare, hon, htext, hsilent⟩

/-- **A disposition may be lost without a report.** A text at its position is neither the absent
value nor the empty list. -/
theorem not_part?_dispositions_told :
    ¬ ∀ maxDepth field, ∀ node ∈ nodesOf field.asList ((Decoder.mk maxDepth).part? field).value,
      ∀ found, node.field? = some found → found ≠ .nil → found ≠ .list [] →
        node.part.disposition.isSome = true ∨
          ∃ event ∈ ((Decoder.mk maxDepth).part? field).events, event.ofDisposition = true := by
  intro h
  obtain ⟨bare, hbare, htext⟩ := nodesOf_pdfFields (.atom "attachment")
  have hmem : bare ∈ nodesOf (pdfFields (.atom "attachment"))
      ((Decoder.mk 32).part? (.list (pdfFields (.atom "attachment")))).value :=
    hbare ▸ List.mem_singleton_self bare
  have htold := told_part? 32 (.list (pdfFields (.atom "attachment")))
  rcases h 32 _ bare hmem _ htext (by decide) (by decide) with hsome | ⟨event, hevent, hof⟩
  · have hread : bare.Read := (htold.decoded bare hmem).2
    rw [Node.Read, htext] at hread
    rw [hread] at hsome
    cases hsome
  · have hnone : bare.refusals = [] := by
      rw [refusals_of_field?, htext]
      rfl
    have hreported := htold.reported
    rw [Field.asList, hbare, List.flatMap_singleton, hnone, List.perm_nil] at hreported
    have hrefused : event ∈ refusals
        ((Decoder.mk 32).part? (.list (pdfFields (.atom "attachment")))).events :=
      List.mem_filter.2 ⟨hevent, hof⟩
    rw [hreported] at hrefused
    exact List.not_mem_nil hrefused

end Decoder

end MailOutline
