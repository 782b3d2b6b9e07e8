import MailOutline.Proofs.Relocation

/-!
# A replaced element stays where it is

What one element of a list holds changes what is decoded from its own position and nothing else,
whatever stands there instead.

* `Envelope.put`: an envelope with what a field denotes at a position. Replacing the element there
  gives it (`Envelope.value_ofField?_set`).
* `Leaf.Slot`, `Leaf.layout`: which attribute of a body stands at which position.
* `Leaf.put`, `Part.put`: a body with one attribute read anew. Replacing an element of its list does
  this to the attribute at its position (`Decoder.value_leaf?_set`).
* `Multipart.put`: a multipart with one attribute read anew, for the elements behind its parts
  (`Decoder.value_structure?_set_behind`).
* `Decoder.value_structure?_set_part`: replacing one part of a multipart leaves the others.
* `Decoder.set_contained`: all of it together.
-/

namespace MailOutline

/-! ## Envelopes -/

namespace Envelope

/-- The envelope with what a field denotes at a position. -/
def put (position : Nat) (field : Field) (envelope : Envelope) : Envelope :=
  match position with
  | 0 => { envelope with date := Calendar.Timestamp.ofText? field.asText, dateText := field.asText }
  | 1 => { envelope with subject := field.asText }
  | 2 => { envelope with authors := (Address.listOfField field).value }
  | 3 => { envelope with sender := (Address.listOfField field).value }
  | 4 => { envelope with replyTo := (Address.listOfField field).value }
  | 5 => { envelope with recipients := (Address.listOfField field).value }
  | 6 => { envelope with cc := (Address.listOfField field).value }
  | 7 => { envelope with bcc := (Address.listOfField field).value }
  | 8 => { envelope with inReplyTo := field.asText }
  | 9 => { envelope with messageId := field.asText }
  | _ => envelope

theorem value_ofField?_cons (date subject authors sender replyTo recipients cc bcc inReplyTo
    messageId : Field) (more : List Field) :
    (ofField? (.list (date :: subject :: authors :: sender :: replyTo :: recipients :: cc :: bcc ::
      inReplyTo :: messageId :: more))).value =
      some {
        date := Calendar.Timestamp.ofText? date.asText
        dateText := date.asText
        subject := subject.asText
        authors := (Address.listOfField authors).value
        sender := (Address.listOfField sender).value
        replyTo := (Address.listOfField replyTo).value
        recipients := (Address.listOfField recipients).value
        cc := (Address.listOfField cc).value
        bcc := (Address.listOfField bcc).value
        inReplyTo := inReplyTo.asText
        messageId := messageId.asText } := by
  simp only [ofField?, Field.asList, Traced.value_bind, Traced.value_pure, value_readDate]

/-- **An element of an envelope** is read at its position only. -/
theorem value_ofField?_set {items : List Field} (h : 10 ≤ items.length) (position : Nat)
    (field : Field) :
    ∃ envelope, (ofField? (.list items)).value = some envelope ∧
      (ofField? (.list (items.set position field))).value =
        some (envelope.put position field) := by
  match items, h with
  | date :: subject :: authors :: sender :: replyTo :: recipients :: cc :: bcc :: inReplyTo ::
      messageId :: more, _ =>
    refine ⟨_, value_ofField?_cons .., ?_⟩
    match position with
    | 0 | 1 | 2 | 3 | 4 | 5 | 6 | 7 | 8 | 9 | _ + 10 =>
      simp only [List.set_cons_zero, List.set_cons_succ, value_ofField?_cons, put]

end Envelope

/-! ## Bodies -/

namespace Leaf

/-- What an element of a body may hold behind the type and the subtype. -/
inductive Slot where
  | params
  | id
  | description
  | encoding
  | size
  | lineCount
  | envelope
  | embedded
  | md5
  | disposition
  | language
  | location
deriving DecidableEq, Repr

/-- The attributes at the third to the seventh element of a body. -/
def fixedLayout : List Slot := [.params, .id, .description, .encoding, .size]

/-- The attributes in the extension data of a body. -/
def extensionLayout : List Slot := [.md5, .disposition, .language, .location]

/-- The attributes that the elements of a body hold, in a list of `length` elements and from the
third element on. -/
def layout (leaf : Leaf) (length : Nat) : List Slot :=
  fixedLayout ++
    ((if leaf.isText then [.lineCount]
      else if leaf.isMessage ∧ 10 ≤ length then [.envelope, .embedded, .lineCount]
      else []) ++ extensionLayout)

/-- The body with an attribute that is read from a field. The structure of an embedded message
stands beside the body. -/
def put (field : Field) (slot : Slot) (leaf : Leaf) : Leaf :=
  match slot with
  | .params => { leaf with params := Params.ofPairs (Params.pairsOf field.asList) }
  | .id => { leaf with id := field.asText }
  | .description => { leaf with description := field.asText }
  | .encoding => { leaf with encoding := field.asText }
  | .size => { leaf with size := field.asNumber }
  | .lineCount => { leaf with lineCount := some field.asNumber }
  | .envelope => { leaf with envelope := (Envelope.ofField? field).value }
  | .embedded => leaf
  | .md5 => { leaf with md5 := field.asText? }
  | .disposition => { leaf with disposition := (Disposition.ofFields? field.asList).value }
  | .language => { leaf with language := languagesOf? field }
  | .location => { leaf with location := field.asText? }

theorem layout_congr {leaf other : Leaf} (ht : leaf.isText = other.isText)
    (hm : leaf.isMessage = other.isMessage) (length : Nat) :
    leaf.layout length = other.layout length := by
  rw [layout, ht, hm, layout]

theorem isText_put (field : Field) (slot : Slot) (leaf : Leaf) :
    (leaf.put field slot).isText = leaf.isText := by
  cases slot <;> rfl

theorem isMessage_put (field : Field) (slot : Slot) (leaf : Leaf) :
    (leaf.put field slot).isMessage = leaf.isMessage := by
  cases slot <;> rfl

end Leaf

namespace Part

/-- The body with the attribute that is read from a field, if there is one. -/
def put (embedded : Field → Option Part) (field : Field) : Option Leaf.Slot → Part → Part
  | some .embedded, leaf info _ => leaf info (embedded field)
  | some slot, leaf info inner => leaf (info.put field slot) inner
  | _, part => part

end Part

namespace Leaf

/-- An element of the extension data is read at its position only. -/
theorem extend_set (embedded : Field → Option Part) (leaf : Leaf) (inner : Option Part)
    {tail : List Field} {k : Nat} (h : k < tail.length) (field : Field) :
    Part.leaf (leaf.extend (tail.set k field)) inner =
      Part.put embedded field extensionLayout[k]? (.leaf (leaf.extend tail) inner) := by
  match tail, k, h with
  | _ :: _, 0, _ => rfl
  | _ :: _ :: _, 1, _ => rfl
  | _ :: _ :: _ :: _, 2, _ => rfl
  | _ :: _ :: _ :: _ :: _, 3, _ => rfl
  | _ :: _ :: _ :: _ :: _, _ + 4, _ => rfl

end Leaf

namespace Decoder

variable {embedded : Field → Traced (Option Part)} {leaf : Leaf} {tail : List Field}

/-- What stands in front of the eighth element does not reach what stands behind it. -/
theorem value_leafTail_put (leaf : Leaf) (tail : List Field) (field : Field) {slot : Leaf.Slot}
    (h : slot ∈ Leaf.fixedLayout) :
    (leafTail embedded (leaf.put field slot) tail).value =
      (leafTail embedded leaf tail).value.put (fun field => (embedded field).value) field
        (some slot) := by
  unfold leafTail
  rw [Leaf.isText_put, Leaf.isMessage_put]
  simp only [Leaf.fixedLayout, List.mem_cons, List.not_mem_nil, or_false] at h
  split
  all_goals
    simp only [Traced.value_bind, Traced.value_pure, Leaf.value_readAll_extensions]
    rcases h with rfl | rfl | rfl | rfl | rfl <;> rfl

/-- Behind the seventh element too, an element is read at its position only. -/
theorem value_leafTail_set {k : Nat} (hk : k < tail.length) (field : Field) :
    (leafTail embedded leaf (tail.set k field)).value =
      (leafTail embedded leaf tail).value.put (fun field => (embedded field).value) field
        (leaf.layout (tail.length + 7))[k + 5]? := by
  cases ht : leaf.isText with
  | true =>
    rw [Leaf.layout, if_pos ht]
    match tail, k, hk with
    | lines :: rest, 0, _ =>
      rw [List.set_cons_zero, value_leafTail_text ht, value_leafTail_text ht]
      rfl
    | lines :: rest, k + 1, hk =>
      rw [List.set_cons_succ, value_leafTail_text ht, value_leafTail_text ht,
        Leaf.extend_set (fun field => (embedded field).value) _ _ (Nat.lt_of_succ_lt_succ hk)]
      rfl
  | false =>
    by_cases hm : leaf.isMessage = true ∧ 10 ≤ tail.length + 7
    · rw [Leaf.layout, ht, if_neg Bool.false_ne_true, if_pos hm]
      obtain ⟨hmessage, hlength⟩ := hm
      match tail, hlength, k, hk with
      | envelope :: inner :: lines :: rest, _, 0, _ | envelope :: inner :: lines :: rest, _, 1, _
      | envelope :: inner :: lines :: rest, _, 2, _ =>
        simp only [List.set_cons_succ, List.set_cons_zero, value_leafTail_message hmessage]
        rfl
      | envelope :: inner :: lines :: rest, _, k + 3, hk =>
        have hrest : k < rest.length := by
          simp only [List.length_cons] at hk
          omega
        rw [List.set_cons_succ, List.set_cons_succ, List.set_cons_succ,
          value_leafTail_message hmessage, value_leafTail_message hmessage,
          Leaf.extend_set (fun field => (embedded field).value) _ _ hrest]
        rfl
    · rw [Leaf.layout, ht, if_neg Bool.false_ne_true, if_neg hm, value_leafTail_plain ht hm,
        value_leafTail_plain ht (by rwa [List.length_set]),
        Leaf.extend_set (fun field => (embedded field).value) _ _ hk]
      rfl

/-- **An element of a body** is read at its position only. -/
theorem value_leaf?_set {items : List Field} (h : 7 ≤ items.length) {position : Nat}
    (hbehind : 2 ≤ position) (hposition : position < items.length) (specifier : String)
    (field : Field) :
    ∃ info inner, (leaf? embedded specifier items).value = some (.leaf info inner) ∧
      (leaf? embedded specifier (items.set position field)).value =
        some (Part.put (fun field => (embedded field).value) field
          (info.layout items.length)[position - 2]? (.leaf info inner)) := by
  match items, h with
  | mediaType :: subtype :: params :: id :: description :: encoding :: size :: tail, _ =>
    let leaf := Leaf.ofFixed specifier mediaType.asText subtype.asText
      (Params.ofPairs (Params.pairsOf params.asList)) id.asText description.asText encoding.asText
      size.asNumber
    obtain ⟨info, inner, hleaf, ht, hm⟩ := value_leafTail_eq_leaf embedded leaf tail
    refine ⟨info, inner, (value_leaf?_cons ..).trans (congrArg some hleaf), ?_⟩
    rw [← hleaf, Leaf.layout_congr ht hm]
    have hput {slot : Leaf.Slot} (hslot : slot ∈ Leaf.fixedLayout) :=
      congrArg some (@value_leafTail_put embedded leaf tail field slot hslot)
    match position, hbehind, hposition with
    | 2, _, _ => exact (value_leaf?_cons ..).trans (hput (by decide : .params ∈ Leaf.fixedLayout))
    | 3, _, _ => exact (value_leaf?_cons ..).trans (hput (by decide : .id ∈ Leaf.fixedLayout))
    | 4, _, _ =>
      exact (value_leaf?_cons ..).trans (hput (by decide : .description ∈ Leaf.fixedLayout))
    | 5, _, _ => exact (value_leaf?_cons ..).trans (hput (by decide : .encoding ∈ Leaf.fixedLayout))
    | 6, _, _ => exact (value_leaf?_cons ..).trans (hput (by decide : .size ∈ Leaf.fixedLayout))
    | k + 7, _, hk =>
      have htail : k < tail.length := by
        simp only [List.length_cons] at hk
        omega
      exact (value_leaf?_cons ..).trans (congrArg some (value_leafTail_set htail field))

end Decoder

/-! ## Multiparts -/

namespace Multipart

/-- The multipart with what a field denotes at a position behind the parts. -/
def put (position : Nat) (field : Field) (multipart : Multipart) : Multipart :=
  match position with
  | 0 => { multipart with subtype := field.asText }
  | 1 => { multipart with params := paramsOf? field }
  | 2 => { multipart with disposition := (Disposition.ofFields? field.asList).value }
  | 3 => { multipart with language := languagesOf? field }
  | _ => multipart

/-- An element behind the parts is read at its position only. -/
theorem ofBehind_set (specifier : String) {behind : List Field} {k : Nat} (h : k < behind.length)
    (field : Field) :
    ofBehind specifier (behind.set k field) = (ofBehind specifier behind).put k field :=
  match behind, k, h with
  | _ :: _, 0, _ => rfl
  | _ :: _ :: _, 1, _ => rfl
  | _ :: _ :: _ :: _, 2, _ => rfl
  | _ :: _ :: _ :: _ :: _, 3, _ => rfl
  | _ :: _ :: _ :: _ :: _, _ + 4, _ => rfl

end Multipart

namespace Decoder

variable {maxDepth levels : Nat} {stem : String} {items lists behind : List Field}

/-- The parts that some lists denote, numbered from `first`. -/
def children (maxDepth levels : Nat) (stem : String) (first : Nat) (lists : List Field) :
    List Part :=
  (lists.zipIdx first).filterMap fun child =>
    (child? maxDepth levels (stem ++ Nat.repr child.2) child.1.asList).value

/-- The part in the place of a list, between the parts of the lists around it. -/
theorem children_set {i : Nat} (h : i < lists.length) (field : Field) (first : Nat) :
    children maxDepth levels stem first (lists.set i field) =
      children maxDepth levels stem first (lists.take i) ++
        (child? maxDepth levels (stem ++ Nat.repr (first + i)) field.asList).value.toList ++
        children maxDepth levels stem (first + i + 1) (lists.drop (i + 1)) := by
  have hlength : (lists.take i).length = i := List.length_take_of_le (Nat.le_of_lt h)
  unfold children
  rw [List.set_eq_take_append_cons_drop, if_pos h, List.zipIdx_append, List.zipIdx_cons,
    List.filterMap_append, List.filterMap_cons, hlength, List.append_assoc]
  cases (child? maxDepth levels (stem ++ Nat.repr (first + i)) field.asList).value <;> rfl

/-- A multipart, from its parts and what stands behind them. -/
theorem value_structure?_append (hne : lists ≠ []) (hlists : ∀ field ∈ lists, field.isList = true)
    (hbehind : isMultipart behind = false) :
    (structure? maxDepth (levels + 1) stem (lists ++ behind)).value = some (.multipart
      (Multipart.ofBehind (stem ++ "TEXT") behind) (children maxDepth levels stem 1 lists)) := by
  have htake : behind.takeWhile Field.isList = [] ∧ behind.dropWhile Field.isList = behind := by
    cases behind with
    | nil => exact ⟨rfl, rfl⟩
    | cons field rest =>
      have hfield : field.isList = false := hbehind
      rw [List.takeWhile_cons, List.dropWhile_cons, hfield]
      exact ⟨rfl, rfl⟩
  have hmultipart : isMultipart (lists ++ behind) = true := by
    cases lists with
    | nil => exact absurd rfl hne
    | cons field rest => exact hlists field List.mem_cons_self
  rw [value_structure?_multipart hmultipart, List.takeWhile_append_of_pos hlists,
    List.dropWhile_append_of_pos hlists, htake.1, htake.2, List.append_nil, children]

/-- A multipart is some lists, and what stands behind them. -/
theorem exists_append_of_isMultipart (h : isMultipart items = true) :
    ∃ lists behind, items = lists ++ behind ∧ items.takeWhile Field.isList = lists ∧ lists ≠ [] ∧
      (∀ field ∈ lists, field.isList = true) ∧ isMultipart behind = false := by
  refine ⟨_, _, List.takeWhile_append_dropWhile.symm, rfl, ?_,
    List.all_eq_true.1 List.all_takeWhile, ?_⟩
  · cases items with
    | nil => cases h
    | cons first rest =>
      have hfirst : first.isList = true := h
      rw [List.takeWhile_cons_of_pos hfirst]
      exact List.cons_ne_nil first _
  · have hhead := List.head?_dropWhile_not Field.isList items
    unfold isMultipart
    split at hhead
    next heq => rw [heq, Option.any_some, hhead]
    next heq => rw [heq, Option.any_none]

/-- What stands around one part does not depend on it. -/
theorem exists_around_part (hlists : ∀ field ∈ lists, field.isList = true)
    (hbehind : isMultipart behind = false) {i : Nat} (hi : i < lists.length) :
    ∃ info before after, ∀ field : Field, field.isList = true →
      (structure? maxDepth (levels + 1) stem (lists.set i field ++ behind)).value =
        some (.multipart info (before ++
          (child? maxDepth levels (stem ++ Nat.repr (1 + i)) field.asList).value.toList ++
          after)) := by
  refine ⟨Multipart.ofBehind (stem ++ "TEXT") behind,
    children maxDepth levels stem 1 (lists.take i),
    children maxDepth levels stem (1 + i + 1) (lists.drop (i + 1)), fun field hfield => ?_⟩
  have hne : lists.set i field ≠ [] :=
    List.ne_nil_of_length_pos (by rw [List.length_set]; exact Nat.zero_lt_of_lt hi)
  have hall : ∀ other ∈ lists.set i field, other.isList = true := by
    intro other hmem
    rcases List.mem_or_eq_of_mem_set hmem with hmem | rfl
    · exact hlists other hmem
    · exact hfield
  rw [value_structure?_append hne hall hbehind, children_set hi]

/-- **A part of a multipart** that is replaced by another list leaves the parts in front of it, the
parts behind it and the multipart itself as they are. -/
theorem value_structure?_set_part (h : isMultipart items = true) {i : Nat}
    (hi : i < (items.takeWhile Field.isList).length) {field : Field}
    (hfield : field.isList = true) :
    ∃ info before own after, items[i]? = some own ∧
      (structure? maxDepth (levels + 1) stem items).value =
        some (.multipart info (before ++
          (child? maxDepth levels (stem ++ Nat.repr (1 + i)) own.asList).value.toList ++ after)) ∧
      (structure? maxDepth (levels + 1) stem (items.set i field)).value =
        some (.multipart info (before ++
          (child? maxDepth levels (stem ++ Nat.repr (1 + i)) field.asList).value.toList ++
          after)) := by
  obtain ⟨lists, behind, rfl, htake, -, hlists, hbehind⟩ := exists_append_of_isMultipart h
  rw [htake] at hi
  obtain ⟨info, before, after, haround⟩ := exists_around_part hlists hbehind hi
  -- The old part is its own replacement.
  have hown := haround lists[i] (hlists _ (List.getElem_mem hi))
  rw [List.set_getElem_self] at hown
  refine ⟨info, before, lists[i], after, ?_, hown, ?_⟩
  · rw [List.getElem?_append_left hi, List.getElem?_eq_getElem hi]
  · rw [List.set_append_left _ _ hi, haround field hfield]

/-- **An element behind the parts** is read at its position only. The subtype, which comes first,
must not become a list. -/
theorem value_structure?_set_behind (h : isMultipart items = true) {k : Nat}
    (hk : (items.takeWhile Field.isList).length + k < items.length) {field : Field}
    (hfield : k = 0 → field.isList = false) :
    ∃ info parts,
      (structure? maxDepth (levels + 1) stem items).value = some (.multipart info parts) ∧
      (structure? maxDepth (levels + 1) stem
        (items.set ((items.takeWhile Field.isList).length + k) field)).value =
        some (.multipart (info.put k field) parts) := by
  obtain ⟨lists, behind, rfl, htake, hne, hlists, hbehind⟩ := exists_append_of_isMultipart h
  rw [htake] at hk ⊢
  rw [List.length_append, Nat.add_lt_add_iff_left] at hk
  have hset : isMultipart (behind.set k field) = false := by
    match behind, k, hk with
    | _ :: _, 0, _ => exact hfield rfl
    | _ :: _, _ + 1, _ => exact hbehind
  rw [List.set_append_right _ _ (Nat.le_add_right ..), Nat.add_sub_cancel_left,
    value_structure?_append hne hlists hbehind, value_structure?_append hne hlists hset,
    Multipart.ofBehind_set _ hk]
  exact ⟨_, _, rfl, rfl⟩

/-! ## Every decoder -/

/-- **A replaced element is contained.** In an envelope it changes what stands at its position. In a
body it changes the one attribute at its position, if there is one. In a multipart it changes one
part, if a list takes the place of a list, and behind the parts it changes the subtype, the
parameters, the disposition or the language. What a field denotes is decoded in this way. -/
theorem set_contained (items : List Field) (position : Nat) (field : Field) :
    (10 ≤ items.length →
      ∃ envelope, (Envelope.ofField? (.list items)).value = some envelope ∧
        (Envelope.ofField? (.list (items.set position field))).value =
          some (envelope.put position field)) ∧
    (∀ (embedded : Field → Traced (Option Part)) (specifier : String),
      7 ≤ items.length → 2 ≤ position → position < items.length →
      ∃ info inner, (leaf? embedded specifier items).value = some (.leaf info inner) ∧
        (leaf? embedded specifier (items.set position field)).value =
          some (Part.put (fun field => (embedded field).value) field
            (info.layout items.length)[position - 2]? (.leaf info inner))) ∧
    (∀ (maxDepth levels : Nat) (stem : String), isMultipart items = true →
      (position < (items.takeWhile Field.isList).length → field.isList = true →
        ∃ info before own after, items[position]? = some own ∧
          (structure? maxDepth (levels + 1) stem items).value =
            some (.multipart info (before ++
              (child? maxDepth levels (stem ++ Nat.repr (1 + position)) own.asList).value.toList ++
              after)) ∧
          (structure? maxDepth (levels + 1) stem (items.set position field)).value =
            some (.multipart info (before ++
              (child? maxDepth levels (stem ++ Nat.repr (1 + position))
                field.asList).value.toList ++ after))) ∧
      (∀ k, position = (items.takeWhile Field.isList).length + k → position < items.length →
        (k = 0 → field.isList = false) →
        ∃ info parts,
          (structure? maxDepth (levels + 1) stem items).value = some (.multipart info parts) ∧
          (structure? maxDepth (levels + 1) stem (items.set position field)).value =
            some (.multipart (info.put k field) parts))) ∧
    ∀ maxDepth : Nat, items ≠ [] →
      ((Decoder.mk maxDepth).part? (.list items)).value =
        if isMultipart items then (structure? maxDepth (maxDepth + 1) "" items).value
        else (leaf? (inside (structure? maxDepth maxDepth "")) "1" items).value := by
  refine ⟨fun h => Envelope.value_ofField?_set h position field,
    fun embedded specifier h hbehind hposition =>
      value_leaf?_set h hbehind hposition specifier field,
    fun maxDepth levels stem h => ⟨fun hi hfield => value_structure?_set_part h hi hfield, ?_⟩,
    fun maxDepth hne => ?_⟩
  · rintro k rfl hk hfield
    exact value_structure?_set_behind h hk hfield
  · rw [value_part?_list hne]
    cases h : isMultipart items with
    | true => rw [if_pos rfl]
    | false => rw [if_neg Bool.false_ne_true, value_structure?_leaf h]; rfl

/-- An envelope with a subject, a message with an identifier, and the forwarded message without its
second part or with another subtype. -/
theorem set_contained_forward :
    (∃ envelope, (Envelope.ofField? (.list (List.replicate 10 .nil))).value = some envelope ∧
      (Envelope.ofField? (.list ((List.replicate 10 .nil).set 1 (.atom "news")))).value =
        some { envelope with subject := "news" }) ∧
    (∃ info inner,
      ((Decoder.mk 1).part? (.list messageFields)).value = some (.leaf info inner) ∧
      (leaf? (inside (structure? 1 1 "")) "1" (messageFields.set 3 (.atom "<id>"))).value =
        some (.leaf { info with id := "<id>" } inner)) ∧
    (∃ info before own after,
      (structure? 1 2 "" forwardFields).value =
        some (.multipart info (before ++ own ++ after)) ∧
      (structure? 1 2 "" (forwardFields.set 1 (.list []))).value =
        some (.multipart info (before ++ after))) ∧
    ∃ info parts, (structure? 1 2 "" forwardFields).value = some (.multipart info parts) ∧
      (structure? 1 2 "" (forwardFields.set 3 (.atom "digest"))).value =
        some (.multipart { info with subtype := "digest" } parts) := by
  obtain ⟨-, hbody, -, hroot⟩ := set_contained messageFields 3 (.atom "<id>")
  obtain ⟨info, inner, hvalue, hset⟩ :=
    hbody (inside (structure? 1 1 "")) "1" (by decide) (by decide) (by decide)
  obtain ⟨mixed, before, own, after, -, hwhole, hless⟩ :=
    ((set_contained forwardFields 1 (.list [])).2.2.1 1 1 "" rfl).1 (by decide) rfl
  rw [show (child? 1 1 ("" ++ Nat.repr (1 + 1)) (Field.list []).asList).value = none from rfl,
    Option.toList_none, List.append_nil] at hless
  exact ⟨(set_contained (List.replicate 10 .nil) 1 (.atom "news")).1 (by decide),
    ⟨info, inner, (hroot 1 (by decide)).trans hvalue, hset⟩,
    ⟨mixed, before, _, after, hwhole, hless⟩,
    ((set_contained forwardFields 3 (.atom "digest")).2.2.1 1 1 "" rfl).2 0 rfl (by decide)
      fun _ => rfl⟩

end Decoder

end MailOutline
