import MailOutline.Part.Walk
import MailOutline.Proofs.Consistency
import MailOutline.Proofs.LowerCase

/-!
# Letter case has no influence on the structure

Fields that differ in the case of ASCII letters alone decode to the same parts, up to the case of
the strings that are taken over. Decoding commutes with putting all strings in lower case, so two
variants of a field decode to parts with one lower form.

* `Leaf.lower`, `Multipart.lower`, `Part.lower`: parts with their strings in lower case. Sizes, line
  counts, dates and specifiers stay.
* `Leaf.extend_lower`, `Multipart.ofBehind_lower`, `Decoder.value_leaf?_lower`: one step of
  decoding.
* `Decoder.value_structure?_lower`: structures, by induction on the levels that are left.
* `Part.SameAnswers`: two parts are walked through and searched alike. Parts with one lower form are
  (`Part.sameAnswers_of_lower_eq`).
* `Decoder.part?_variant`: variants decode to values with one lower form and the same answers.
-/

namespace MailOutline

/-! ## Bodies and multiparts -/

/-- What is read from one element of a tail, if the element is there. -/
theorem read_lower {α : Type} (read : Field → α) {change : α → α}
    (h : ∀ field, read field.lower = change (read field)) (tail : List Field) (i : Nat) (a : α) :
    ((tail.map Field.lower)[i]?.map read).getD (change a) =
      change ((tail[i]?.map read).getD a) := by
  rw [List.getElem?_map]
  cases tail[i]? with
  | none => rfl
  | some field => exact h field

namespace Leaf

/-- A body with its strings in lower case, under the same specifier. -/
def lower (leaf : Leaf) : Leaf where
  mediaType := Text.lower leaf.mediaType
  subtype := Text.lower leaf.subtype
  params := leaf.params.lower
  id := Text.lower leaf.id
  description := Text.lower leaf.description
  encoding := Text.lower leaf.encoding
  size := leaf.size
  lineCount := leaf.lineCount
  envelope := leaf.envelope.map Envelope.lower
  md5 := leaf.md5.map Text.lower
  disposition := leaf.disposition.map Disposition.lower
  language := leaf.language.map (List.map Text.lower)
  location := leaf.location.map Text.lower
  specifier := leaf.specifier

theorem isText_lower (leaf : Leaf) : leaf.lower.isText = leaf.isText :=
  Text.sameLetters_lower_left _ _

theorem isMessage_lower (leaf : Leaf) : leaf.lower.isMessage = leaf.isMessage := by
  simp only [isMessage, lower, Text.sameLetters_lower_left]

theorem extend_lower (leaf : Leaf) (tail : List Field) :
    leaf.lower.extend (tail.map Field.lower) = (leaf.extend tail).lower := by
  simp only [extend, lower, read_lower Field.asText? Field.asText?_lower,
    read_lower languagesOf? languagesOf?_lower,
    read_lower (fun field => (Disposition.ofFields? field.asList).value)
      Disposition.value_ofFields?_lower]

theorem mimeType_lower (leaf : Leaf) : leaf.lower.mimeType = leaf.mimeType := by
  simp only [mimeType, lower, Text.lower_append, Text.lower_lower]

theorem isAttachment_lower (leaf : Leaf) : leaf.lower.isAttachment = leaf.isAttachment := by
  unfold isAttachment lower
  cases leaf.disposition with
  | none => rfl
  | some disposition => exact disposition.isAttachment_lower

theorem filename?_lower (leaf : Leaf) :
    leaf.lower.filename? = leaf.filename?.map Text.lower := by
  unfold filename? lower
  cases leaf.disposition with
  | none => exact leaf.params.get?_lower "name"
  | some disposition =>
    simp only [Option.map_some, Option.bind_some, Disposition.lower, Params.get?_lower]
    cases disposition.attributes.get? "filename" <;> rfl

end Leaf

namespace Multipart

/-- A multipart with its strings in lower case, under the same specifier. -/
def lower (multipart : Multipart) : Multipart where
  subtype := Text.lower multipart.subtype
  params := multipart.params.map Params.lower
  disposition := multipart.disposition.map Disposition.lower
  language := multipart.language.map (List.map Text.lower)
  location := multipart.location.map Text.lower
  specifier := multipart.specifier

theorem paramsOf?_lower (field : Field) :
    paramsOf? field.lower = (paramsOf? field).map Params.lower := by
  unfold paramsOf?
  rw [Field.isList_lower, Params.ofPairs_pairsOf_lower]
  split <;> rfl

theorem extend_lower (multipart : Multipart) (tail : List Field) :
    multipart.lower.extend (tail.map Field.lower) = (multipart.extend tail).lower := by
  simp only [extend, lower, read_lower paramsOf? paramsOf?_lower,
    read_lower languagesOf? languagesOf?_lower,
    read_lower (fun field => (Disposition.ofFields? field.asList).value)
      Disposition.value_ofFields?_lower]

theorem ofBehind_lower (specifier : String) (behind : List Field) :
    ofBehind specifier (behind.map Field.lower) = (ofBehind specifier behind).lower := by
  have hsubtype : (((behind.map Field.lower).head?.map Field.asText).getD "") =
      Text.lower ((behind.head?.map Field.asText).getD "") := by
    cases behind with
    | nil => exact Text.lower_empty.symm
    | cons field rest => exact field.asText_lower
  unfold ofBehind
  rw [hsubtype, ← List.map_tail, ← extend_lower]
  rfl

end Multipart

namespace Part

mutual

/-- A part with all strings in it in lower case, under the same specifiers. -/
def lower : Part → Part
  | leaf info none => leaf info.lower none
  | leaf info (some inner) => leaf info.lower (some inner.lower)
  | multipart info parts => multipart info.lower (lowerAll parts)

/-- Some parts with all strings in them in lower case. -/
def lowerAll : List Part → List Part
  | [] => []
  | part :: rest => part.lower :: lowerAll rest

end

theorem lowerAll_eq_map (parts : List Part) : lowerAll parts = parts.map lower := by
  induction parts with
  | nil => rfl
  | cons part rest ih => rw [lowerAll, ih, List.map_cons]

theorem lower_leaf (info : Leaf) (embedded : Option Part) :
    (leaf info embedded).lower = leaf info.lower (embedded.map lower) := by
  cases embedded <;> rfl

theorem lower_multipart (info : Multipart) (parts : List Part) :
    (multipart info parts).lower = multipart info.lower (parts.map lower) := by
  rw [lower, lowerAll_eq_map]

theorem specifier_lower (part : Part) : part.lower.specifier = part.specifier := by
  cases part with
  | leaf info embedded => rw [lower_leaf]; rfl
  | multipart info parts => rw [lower_multipart]; rfl

theorem leaf?_lower (part : Part) : part.lower.leaf? = part.leaf?.map Leaf.lower := by
  cases part with
  | leaf info embedded => rw [lower_leaf]; rfl
  | multipart info parts => rw [lower_multipart]; rfl

/-! ## Answers -/

/-- The parts of a multipart. -/
def parts : Part → List Part
  | leaf .. => []
  | multipart _ parts => parts

theorem parts_lower (part : Part) : part.lower.parts = part.parts.map lower := by
  cases part with
  | leaf info embedded => rw [lower_leaf]; rfl
  | multipart info parts => rw [lower_multipart]; rfl

mutual

theorem walk_lower : ∀ part : Part, part.lower.walk = part.walk.map lower
  | leaf info embedded => by rw [lower_leaf, walk, walk, List.map_singleton, lower_leaf]
  | multipart info parts => by rw [lower, walk, walk, walkAll_lowerAll parts, List.map_cons, lower]

theorem walkAll_lowerAll : ∀ parts : List Part, walkAll (lowerAll parts) = (walkAll parts).map lower
  | [] => rfl
  | part :: rest => by
    rw [lowerAll, walkAll, walkAll, walk_lower part, walkAll_lowerAll rest, List.map_append]

end

mutual

theorem nodes_lower : ∀ part : Part, part.lower.nodes = part.nodes.map lower
  | leaf info none => rfl
  | leaf info (some inner) => by
    rw [lower, nodes, nodes, nodes_lower inner, List.map_cons, lower]
  | multipart info parts => by
    rw [lower, nodes, nodes, nodesAll_lowerAll parts, List.map_cons, lower]

theorem nodesAll_lowerAll :
    ∀ parts : List Part, nodesAll (lowerAll parts) = (nodesAll parts).map lower
  | [] => rfl
  | part :: rest => by
    rw [lowerAll, nodesAll, nodesAll, nodes_lower part, nodesAll_lowerAll rest, List.map_append]

end

/-- The nodes of a part begin with the part. -/
theorem nodes_eq_cons (part : Part) : ∃ rest, part.nodes = part :: rest := by
  cases part with
  | leaf info embedded => cases embedded <;> exact ⟨_, rfl⟩
  | multipart info parts => exact ⟨_, rfl⟩

mutual

theorem savedIn_lower (recurse : Bool) :
    ∀ part : Part, savedIn recurse part.lower = (savedIn recurse part).map lower
  | leaf info embedded => by
    rw [lower_leaf, savedIn, savedIn, info.isAttachment_lower]
    split
    · rw [List.map_singleton, lower_leaf]
    · rfl
  | multipart info parts => by
    rw [lower, savedIn, savedIn]
    split
    · exact saved_lowerAll recurse parts
    · rfl

theorem saved_lowerAll (recurse : Bool) :
    ∀ parts : List Part, saved recurse (lowerAll parts) = (saved recurse parts).map lower
  | [] => rfl
  | part :: rest => by
    rw [lowerAll, saved, saved, savedIn_lower recurse part, saved_lowerAll recurse rest,
      List.map_append]

end

theorem map_specifier_walk_lower (part : Part) :
    part.lower.walk.map specifier = part.walk.map specifier := by
  rw [walk_lower, List.map_map]
  exact List.map_congr_left fun inner _ => inner.specifier_lower

theorem position?_lower (part : Part) (name : String) :
    part.lower.position? name = part.position? name := by
  simp only [position?, walk_lower, List.findIdx?_map, Function.comp_def, specifier_lower]

theorem find?_lower (part : Part) (name : String) :
    part.lower.find? name = (part.find? name).map lower := by
  simp only [find?, walk_lower, List.find?_map, Function.comp_def, specifier_lower]

theorem map_specifier_saved_lower (recurse : Bool) (part : Part) :
    ((saved recurse part.lower.parts).filterMap leaf?).map Leaf.specifier =
      ((saved recurse part.parts).filterMap leaf?).map Leaf.specifier := by
  rw [parts_lower, ← lowerAll_eq_map, saved_lowerAll, List.filterMap_map, List.map_filterMap,
    List.map_filterMap]
  refine congrArg (fun f => List.filterMap f _) (funext fun inner => ?_)
  rw [Function.comp_apply, leaf?_lower, Option.map_map]
  rfl

theorem map_leaf?_lower {α : Type} {f : Leaf → α} (h : ∀ leaf, f leaf.lower = f leaf)
    (part : Part) : part.lower.leaf?.map f = part.leaf?.map f := by
  rw [leaf?_lower, Option.map_map]
  exact congrArg (Option.map · part.leaf?) (funext h)

theorem bind_filename?_lower (part : Part) :
    (part.lower.leaf?.bind Leaf.filename?) =
      (part.leaf?.bind Leaf.filename?).map Text.lower := by
  rw [leaf?_lower]
  cases part.leaf? with
  | none => rfl
  | some leaf => exact leaf.filename?_lower

/-- Two parts answer alike to what is asked of a structure and of a body. -/
structure SameAnswers (part other : Part) : Prop where
  /-- The specifiers of the walk are the same. -/
  walk : part.walk.map specifier = other.walk.map specifier
  /-- A specifier finds the parts at one place of the walk. -/
  position? : ∀ name, part.position? name = other.position? name
  /-- It finds the same part, up to case. -/
  find? : ∀ name, (part.find? name).map lower = (other.find? name).map lower
  /-- The same bodies are attachments. -/
  attachments : (attachments part.parts).map Leaf.specifier =
    (attachments other.parts).map Leaf.specifier
  /-- The same bodies are attachments among the parts alone. -/
  directAttachments : (directAttachments part.parts).map Leaf.specifier =
    (directAttachments other.parts).map Leaf.specifier
  /-- A body has the same type. -/
  mimeType : part.leaf?.map Leaf.mimeType = other.leaf?.map Leaf.mimeType
  /-- A body is to be saved, or is not. -/
  isAttachment : part.leaf?.map Leaf.isAttachment = other.leaf?.map Leaf.isAttachment
  /-- A body has the same file name, up to case. -/
  filename? : (part.leaf?.bind Leaf.filename?).map Text.lower =
    (other.leaf?.bind Leaf.filename?).map Text.lower

/-- **Parts with one lower form answer alike.** -/
theorem sameAnswers_of_lower_eq {part other : Part} (h : part.lower = other.lower) :
    part.SameAnswers other where
  walk := by rw [← map_specifier_walk_lower, h, map_specifier_walk_lower]
  position? name := by rw [← position?_lower, h, position?_lower]
  find? name := by rw [← find?_lower, h, find?_lower]
  attachments := by
    rw [Part.attachments, Part.attachments, ← map_specifier_saved_lower, h,
      map_specifier_saved_lower]
  directAttachments := by
    rw [Part.directAttachments, Part.directAttachments, ← map_specifier_saved_lower, h,
      map_specifier_saved_lower]
  mimeType := by
    rw [← map_leaf?_lower Leaf.mimeType_lower, h, map_leaf?_lower Leaf.mimeType_lower]
  isAttachment := by
    rw [← map_leaf?_lower Leaf.isAttachment_lower, h, map_leaf?_lower Leaf.isAttachment_lower]
  filename? := by rw [← bind_filename?_lower, h, bind_filename?_lower]

end Part

/-! ## Structures -/

namespace Decoder

variable {embedded : Field → Traced (Option Part)}

theorem value_leafTail_lower
    (h : ∀ field, (embedded field.lower).value = (embedded field).value.map Part.lower)
    (leaf : Leaf) (tail : List Field) :
    (leafTail embedded leaf.lower (tail.map Field.lower)).value =
      (leafTail embedded leaf tail).value.lower := by
  unfold leafTail
  rw [leaf.isText_lower, leaf.isMessage_lower]
  match leaf.isText, leaf.isMessage, tail with
  | true, _, lines :: tail =>
    simp only [List.map_cons, Traced.value_bind, Traced.value_pure, Leaf.value_readAll_extensions,
      Part.lower_leaf, Field.asNumber_lower, ← Leaf.extend_lower]
    rfl
  | false, true, envelope :: inner :: lines :: tail =>
    simp only [List.map_cons, Traced.value_bind, Traced.value_pure, Leaf.value_readAll_extensions,
      Part.lower_leaf, Field.asNumber_lower, Envelope.value_ofField?_lower, h, ← Leaf.extend_lower]
    rfl
  | true, _, [] | false, true, [] | false, true, [_] | false, true, [_, _] | false, false, _ =>
    simp only [List.map_cons, List.map_nil, Traced.value_bind, Traced.value_pure,
      Leaf.value_readAll_extensions, Part.lower_leaf, ← Leaf.extend_lower]
    rfl

theorem value_leaf?_lower
    (h : ∀ field, (embedded field.lower).value = (embedded field).value.map Part.lower)
    (specifier : String) (items : List Field) :
    (leaf? embedded specifier (items.map Field.lower)).value =
      (leaf? embedded specifier items).value.map Part.lower := by
  by_cases hlen : items.length < 7
  · rw [value_leaf?_of_length_lt hlen, value_leaf?_of_length_lt (by rwa [List.length_map])]
    rfl
  · match items, hlen with
    | mediaType :: subtype :: params :: id :: description :: encoding :: size :: tail, _ =>
      simp only [List.map_cons, value_leaf?_cons, Option.map_some, ← value_leafTail_lower h,
        Field.asText_lower, Field.asNumber_lower, Params.ofPairs_pairsOf_lower]
      rfl
    | [], h | [_], h | [_, _], h | [_, _, _], h | [_, _, _, _], h | [_, _, _, _, _], h
    | [_, _, _, _, _, _], h => exact absurd (by simp) h

theorem isMultipart_lower (items : List Field) :
    isMultipart (items.map Field.lower) = isMultipart items := by
  cases items with
  | nil => rfl
  | cons first rest => exact first.isList_lower

theorem value_inside_lower {structure? : List Field → Traced (Option Part)}
    (h : ∀ items, (structure? (items.map Field.lower)).value =
      (structure? items).value.map Part.lower) (field : Field) :
    (inside structure? field.lower).value = (inside structure? field).value.map Part.lower := by
  rw [value_inside, value_inside, Field.asList_lower, h]
  simp only [List.map_eq_nil_iff]
  split <;> rfl

variable {maxDepth levels : Nat}

theorem value_child?_lower
    (h : ∀ stem items, (structure? maxDepth levels stem (items.map Field.lower)).value =
      (structure? maxDepth levels stem items).value.map Part.lower)
    (specifier : String) (child : List Field) :
    (child? maxDepth levels specifier (child.map Field.lower)).value =
      (child? maxDepth levels specifier child).value.map Part.lower := by
  unfold child?
  rw [isMultipart_lower]
  split
  · exact h _ _
  · exact value_leaf?_lower (value_inside_lower (h "")) _ _

/-- **A structure is decoded without regard to case.** -/
theorem value_structure?_lower (stem : String) (items : List Field) :
    (structure? maxDepth levels stem (items.map Field.lower)).value =
      (structure? maxDepth levels stem items).value.map Part.lower := by
  induction levels generalizing stem items with
  | zero => rfl
  | succ levels ih =>
    cases hm : isMultipart items with
    | true =>
      have hml := (isMultipart_lower items).trans hm
      rw [value_structure?_multipart hm, value_structure?_multipart hml, Option.map_some,
        Part.lower_multipart, List.takeWhile_map, List.dropWhile_map, Field.isList_comp_lower,
        Multipart.ofBehind_lower, List.zipIdx_map, List.filterMap_map, List.map_filterMap]
      simp only [Function.comp_def, Prod.map, Field.asList_lower, value_child?_lower ih, id]
    | false =>
      have hml := (isMultipart_lower items).trans hm
      rw [value_structure?_leaf hm, value_structure?_leaf hml,
        value_leaf?_lower (value_inside_lower (ih ""))]

/-! ## Variants -/

theorem value_part?_lower (decoder : Decoder) (field : Field) :
    (decoder.part? field.lower).value = (decoder.part? field).value.map Part.lower := by
  rw [value_part?, value_part?, Field.asList_lower, value_structure?_lower]
  simp only [List.map_eq_nil_iff]
  split <;> rfl

/-- **Letter case has no influence.** Two variants of a field are both structures or both not, and
then they decode to parts that differ in the case of their strings alone: with the same shape,
specifiers, sizes, line counts and dates, the same attributes present and the same values under the
same keys. So any two parts at the same place answer alike. Envelopes and addresses are decoded in
the same way. -/
theorem part?_variant {field other : Field} (h : field.Variant other) (maxDepth : Nat) :
    ((Decoder.mk maxDepth).part? field).value.map Part.lower =
        ((Decoder.mk maxDepth).part? other).value.map Part.lower ∧
      (Envelope.ofField? field).value.map Envelope.lower =
        (Envelope.ofField? other).value.map Envelope.lower ∧
      (Address.ofField field).value.lower = (Address.ofField other).value.lower ∧
      ∀ part, ((Decoder.mk maxDepth).part? field).value = some part →
        ∃ twin, ((Decoder.mk maxDepth).part? other).value = some twin ∧
          part.nodes.length = twin.nodes.length ∧
            ∀ pair ∈ part.nodes.zip twin.nodes, pair.1.SameAnswers pair.2 := by
  have hparts : ((Decoder.mk maxDepth).part? field).value.map Part.lower =
      ((Decoder.mk maxDepth).part? other).value.map Part.lower := by
    rw [← value_part?_lower, h.lower_eq, value_part?_lower]
  refine ⟨hparts, ?_, ?_, ?_⟩
  · rw [← Envelope.value_ofField?_lower, h.lower_eq, Envelope.value_ofField?_lower]
  · rw [← Address.value_ofField_lower, h.lower_eq, Address.value_ofField_lower]
  · intro part hpart
    rw [hpart, Option.map_some] at hparts
    obtain ⟨twin, htwin, hlower⟩ := Option.map_eq_some_iff.1 hparts.symm
    have hnodes : part.nodes.map Part.lower = twin.nodes.map Part.lower := by
      rw [← Part.nodes_lower, ← hlower, Part.nodes_lower]
    refine ⟨twin, htwin, ?_, fun pair hpair => ?_⟩
    · simpa only [List.length_map] using congrArg List.length hnodes
    · obtain ⟨i, hi, rfl⟩ := List.getElem_of_mem hpair
      rw [List.length_zip, Nat.lt_min] at hi
      have hat : (part.nodes.map Part.lower)[i]? = (twin.nodes.map Part.lower)[i]? := by
        rw [hnodes]
      rw [List.getElem?_map, List.getElem?_map, List.getElem?_eq_getElem hi.1,
        List.getElem?_eq_getElem hi.2] at hat
      rw [List.getElem_zip]
      exact Part.sameAnswers_of_lower_eq (Option.some.inj hat)

/-- The note with its type in capitals. -/
def loudFields : List Field :=
  [.atom "TEXT", .atom "Plain", .nil, .nil, .nil, .atom "7BIT", .number 4, .number 1]

/-- The two spellings of the note are variants, and the structure of either is its part `1`. -/
theorem part?_variant_note :
    (Field.list noteFields).Variant (.list loudFields) ∧
      ∃ twin, ((Decoder.mk 0).part? (.list loudFields)).value = some twin ∧
        twin.walk.map Part.specifier = ["1"] ∧ twin.position? "1" = some 0 := by
  have htype : Text.sameLetters "text" "TEXT" = true := Text.sameLetters_iff_toList.2 (by decide)
  have hplain : Text.sameLetters "plain" "Plain" = true :=
    Text.sameLetters_iff_toList.2 (by decide)
  have hcoding : Text.sameLetters "7bit" "7BIT" = true := Text.sameLetters_iff_toList.2 (by decide)
  have hvariant : (Field.list noteFields).Variant (.list loudFields) :=
    .list (.cons (.atom htype) (.cons (.atom hplain) (.cons .nil (.cons .nil (.cons .nil
      (.cons (.atom hcoding) (.cons (.number 4) (.cons (.number 1) .nil))))))))
  obtain ⟨note, hnote⟩ : ∃ note, ((Decoder.mk 0).part? (.list noteFields)).value = some note :=
    ⟨_, rfl⟩
  obtain ⟨info, inner, rfl, hname⟩ := eq_leaf_of_value_part? rfl hnote
  obtain ⟨twin, htwin, -, hpairs⟩ := (part?_variant hvariant 0).2.2.2 _ hnote
  obtain ⟨rest, hrest⟩ := (Part.leaf info inner).nodes_eq_cons
  obtain ⟨others, hothers⟩ := twin.nodes_eq_cons
  have hanswers : (Part.leaf info inner).SameAnswers twin :=
    hpairs (.leaf info inner, twin) (by rw [hrest, hothers]; exact List.mem_cons_self)
  have hwalk : ["1"] = twin.walk.map Part.specifier := hname ▸ hanswers.walk
  have hposition : (if info.specifier == "1" then some 0 else none) = twin.position? "1" :=
    hanswers.position? "1"
  rw [hname] at hposition
  exact ⟨hvariant, twin, htwin, hwalk.symm, hposition.symm⟩

end Decoder

end MailOutline
