import MailOutline.Part.Decoder

/-!
# What decoding gives, events aside

One equation for the value of each step of `Decoder.part?`. What is proved about decoded parts
rests on these, and none of it opens the steps again.

* `Leaf.extend`, `Multipart.extend`: extension data by position.
* `Decoder.leafTail_text`, `Decoder.leafTail_message`, `Decoder.leafTail_short`: the three layouts
  of a body behind its seventh element, and `Decoder.value_leafTail_text` and so on, their values.
* `Decoder.value_leaf?_relabel`: the specifier of a body has no influence on the rest of it.
* `Decoder.value_parts`: the parts of a multipart, each under the number of its list.
* `Decoder.value_structure?_multipart`, `Decoder.value_structure?_leaf`: one level of decoding.
* `Decoder.value_structureAt?_congr`: the limit counts only through the levels that are left.
-/

namespace MailOutline

/-! ## Extension data -/

namespace Leaf

/-- The body with the attributes that stand at the positions of a tail. Positions behind its end
leave the body as it is. -/
def extend (leaf : Leaf) (tail : List Field) : Leaf :=
  { leaf with
    md5 := (tail[0]?.map Field.asText?).getD leaf.md5
    disposition :=
      (tail[1]?.map fun field => (Disposition.ofFields? field.asList).value).getD leaf.disposition
    language := (tail[2]?.map languagesOf?).getD leaf.language
    location := (tail[3]?.map Field.asText?).getD leaf.location }

/-- No body is both a message and a text. -/
theorem isText_of_isMessage {leaf : Leaf} (h : leaf.isMessage = true) : leaf.isText = false := by
  unfold isMessage at h
  rw [Bool.and_eq_true, Text.sameLetters_iff_toList] at h
  rw [isText, Bool.eq_false_iff, ne_eq, Text.sameLetters_iff_toList, h.1]
  decide

theorem value_readAll_extensions (leaf : Leaf) (tail : List Field) :
    (Extension.readAll extensions tail leaf).value = leaf.extend tail := by
  match tail with
  | [] => rfl
  | [_] => rfl
  | [_, _] => rfl
  | [_, _, _] => rfl
  | [_, _, _, _] => rfl
  | _ :: _ :: _ :: _ :: _ :: _ => rfl

end Leaf

namespace Multipart

/-- The parameters that a field denotes, which has to be a list. -/
def paramsOf? (field : Field) : Option Params :=
  if field.isList then some (Params.ofPairs (Params.pairsOf field.asList)) else none

theorem value_readParams? (field : Field) : (readParams? field).value = paramsOf? field := by
  unfold readParams? paramsOf?
  split
  · rw [Traced.value_map, Params.value_ofFields]
  · rfl

/-- The multipart with the attributes that stand at the positions of a tail. Positions behind its
end leave the multipart as it is. -/
def extend (multipart : Multipart) (tail : List Field) : Multipart :=
  { multipart with
    params := (tail[0]?.map paramsOf?).getD multipart.params
    disposition := (tail[1]?.map fun field =>
      (Disposition.ofFields? field.asList).value).getD multipart.disposition
    language := (tail[2]?.map languagesOf?).getD multipart.language }

theorem value_readAll_extensions (multipart : Multipart) (tail : List Field) :
    (Extension.readAll extensions tail multipart).value = multipart.extend tail := by
  match tail with
  | [] => rfl
  | [first] =>
    rw [extend, List.getElem?_cons_zero, Option.map_some, ← value_readParams?]
    rfl
  | [first, _] =>
    rw [extend, List.getElem?_cons_zero, Option.map_some, ← value_readParams?]
    rfl
  | [first, _, _] =>
    rw [extend, List.getElem?_cons_zero, Option.map_some, ← value_readParams?]
    rfl
  | first :: _ :: _ :: _ :: _ =>
    rw [extend, List.getElem?_cons_zero, Option.map_some, ← value_readParams?]
    rfl

/-- The multipart that the elements behind its parts describe: the subtype, then the tail. -/
def ofBehind (specifier : String) (behind : List Field) : Multipart :=
  extend
    { subtype := (behind.head?.map Field.asText).getD ""
      params := none
      disposition := none
      language := none
      location := none
      specifier }
    behind.tail

end Multipart

namespace Part

/-- The part under another specifier. -/
def relabel (specifier : String) : Part → Part
  | leaf info embedded => leaf { info with specifier } embedded
  | multipart info parts => multipart { info with specifier } parts

end Part

namespace Decoder

variable {embedded other : Field → Traced (Option Part)} {leaf : Leaf}

/-! ## Bodies -/

theorem leafTail_text (h : leaf.isText = true) (lines : Field) (tail : List Field) :
    leafTail embedded leaf (lines :: tail) = do
      let leaf ← Extension.readAll Leaf.extensions tail { leaf with lineCount := lines.asNumber }
      return .leaf leaf none := by
  unfold leafTail
  simp only [h]

theorem leafTail_message (h : leaf.isMessage = true) (envelope inner lines : Field)
    (tail : List Field) :
    leafTail embedded leaf (envelope :: inner :: lines :: tail) = do
      let envelope ← Envelope.ofField? envelope
      let inner ← embedded inner
      let leaf ← Extension.readAll Leaf.extensions tail
        { leaf with envelope, lineCount := lines.asNumber }
      return .leaf leaf inner := by
  unfold leafTail
  simp only [Leaf.isText_of_isMessage h, h]

/-- What is neither a text with lines nor a message of ten elements has nothing but extension
data. -/
theorem leafTail_short {tail : List Field} (ht : ¬(leaf.isText = true ∧ 8 ≤ tail.length + 7))
    (hm : ¬(leaf.isMessage = true ∧ 10 ≤ tail.length + 7)) :
    leafTail embedded leaf tail = do
      let leaf ← Extension.readAll Leaf.extensions tail leaf
      return .leaf leaf none := by
  unfold leafTail
  split
  next hcase => exact absurd ⟨hcase, by simp only [List.length_cons]; omega⟩ ht
  next hcase => exact absurd ⟨hcase, by simp only [List.length_cons]; omega⟩ hm
  next => rfl

theorem value_leafTail_text (h : leaf.isText = true) (lines : Field) (tail : List Field) :
    (leafTail embedded leaf (lines :: tail)).value =
      .leaf ({ leaf with lineCount := lines.asNumber }.extend tail) none := by
  rw [leafTail_text h]
  simp only [Traced.value_bind, Traced.value_pure, Leaf.value_readAll_extensions]

theorem value_leafTail_message (h : leaf.isMessage = true) (envelope inner lines : Field)
    (tail : List Field) :
    (leafTail embedded leaf (envelope :: inner :: lines :: tail)).value =
      .leaf ({ leaf with
        envelope := (Envelope.ofField? envelope).value
        lineCount := lines.asNumber }.extend tail) (embedded inner).value := by
  rw [leafTail_message h]
  simp only [Traced.value_bind, Traced.value_pure, Leaf.value_readAll_extensions]

/-- A text without lines, and a message that is too short, have nothing but extension data, like a
body of any other type. -/
theorem value_leafTail_short {tail : List Field} (ht : ¬(leaf.isText = true ∧ 8 ≤ tail.length + 7))
    (hm : ¬(leaf.isMessage = true ∧ 10 ≤ tail.length + 7)) :
    (leafTail embedded leaf tail).value = .leaf (leaf.extend tail) none := by
  rw [leafTail_short ht hm]
  simp only [Traced.value_bind, Traced.value_pure, Leaf.value_readAll_extensions]

/-- A body that is no text, and no message of ten elements, has nothing but extension data. -/
theorem value_leafTail_plain (ht : leaf.isText = false) {tail : List Field}
    (hm : ¬(leaf.isMessage = true ∧ 10 ≤ tail.length + 7)) :
    (leafTail embedded leaf tail).value = .leaf (leaf.extend tail) none :=
  value_leafTail_short (fun h => Bool.false_ne_true (ht.symm.trans h.1)) hm

theorem value_leafTail_basic (ht : leaf.isText = false) (hm : leaf.isMessage = false)
    (tail : List Field) :
    (leafTail embedded leaf tail).value = .leaf (leaf.extend tail) none :=
  value_leafTail_plain ht fun hmessage => Bool.false_ne_true (hm.symm.trans hmessage.1)

theorem value_leafTail_relabel (specifier : String) (tail : List Field) :
    (leafTail embedded { leaf with specifier } tail).value =
      (leafTail embedded leaf tail).value.relabel specifier := by
  unfold leafTail
  rw [show Leaf.isText { leaf with specifier } = leaf.isText from rfl,
    show Leaf.isMessage { leaf with specifier } = leaf.isMessage from rfl]
  split
  all_goals
    simp only [Traced.value_bind, Traced.value_pure, Leaf.value_readAll_extensions]
    rfl

/-- What stands behind the seventh element leaves the type as it is. -/
theorem value_leafTail_eq_leaf (embedded : Field → Traced (Option Part)) (leaf : Leaf)
    (tail : List Field) :
    ∃ info inner, (leafTail embedded leaf tail).value = .leaf info inner ∧
      info.isText = leaf.isText ∧ info.isMessage = leaf.isMessage := by
  unfold leafTail
  split
  all_goals
    simp only [Traced.value_bind, Traced.value_pure, Leaf.value_readAll_extensions]
    exact ⟨_, _, rfl, rfl, rfl⟩

/-- A body takes nothing from the decoder of embedded structures but the values. -/
theorem value_leafTail_congr (h : ∀ field, (embedded field).value = (other field).value)
    (tail : List Field) :
    (leafTail embedded leaf tail).value = (leafTail other leaf tail).value := by
  unfold leafTail
  split
  · rfl
  · simp only [Traced.value_bind, Traced.value_pure, h]
  · rfl

theorem value_leaf?_of_length_lt {specifier : String} {items : List Field}
    (h : items.length < 7) : (leaf? embedded specifier items).value = none := by
  unfold leaf?
  split
  · simp only [List.length_cons] at h
    omega
  · rfl

theorem value_leaf?_cons (specifier : String)
    (mediaType subtype params id description encoding size : Field) (tail : List Field) :
    (leaf? embedded specifier (mediaType :: subtype :: params :: id :: description :: encoding ::
      size :: tail)).value =
      some (leafTail embedded (Leaf.ofFixed specifier mediaType.asText subtype.asText
        (Params.ofPairs (Params.pairsOf params.asList)) id.asText description.asText
        encoding.asText size.asNumber) tail).value := by
  simp only [leaf?, Traced.value_bind, Traced.value_map, Params.value_ofFields]

theorem value_leaf?_eq_none_iff {specifier : String} {items : List Field} :
    (leaf? embedded specifier items).value = none ↔ items.length < 7 := by
  refine ⟨fun h => ?_, value_leaf?_of_length_lt⟩
  unfold leaf? at h
  split at h
  · simp at h
  next hshort =>
    refine Nat.lt_of_not_le fun hlen => ?_
    match items, hlen with
    | a :: b :: c :: d :: e :: f :: g :: tail, _ => exact hshort _ _ _ _ _ _ _ _ rfl

/-- The specifier of a body has no influence on the rest of it. -/
theorem value_leaf?_relabel (specifier before : String) (items : List Field) :
    (leaf? embedded specifier items).value =
      (leaf? embedded before items).value.map (Part.relabel specifier) := by
  by_cases h : items.length < 7
  · rw [value_leaf?_of_length_lt h, value_leaf?_of_length_lt h]
    rfl
  · match items, h with
    | _ :: _ :: _ :: _ :: _ :: _ :: _ :: tail, _ =>
      rw [value_leaf?_cons, value_leaf?_cons, Option.map_some, ← value_leafTail_relabel]
      rfl
    | [], h | [_], h | [_, _], h | [_, _, _], h | [_, _, _, _], h | [_, _, _, _, _], h
    | [_, _, _, _, _, _], h => exact absurd (by simp) h

/-- What decodes as a body is a body, under the specifier that it is decoded for. -/
theorem eq_leaf_of_value_leaf? {specifier : String} {items : List Field} {part : Part}
    (h : (leaf? embedded specifier items).value = some part) :
    ∃ info inner, part = .leaf info inner ∧ info.specifier = specifier := by
  have hlabel : (leaf? embedded specifier items).value = _ :=
    value_leaf?_relabel specifier specifier items
  rw [h, Option.map_some, Option.some.injEq] at hlabel
  unfold leaf? at h
  split at h
  next mediaType subtype params id description encoding size tail =>
    simp only [Traced.value_bind, Traced.value_map, Option.some.injEq] at h
    obtain ⟨info, inner, hleaf, -⟩ := value_leafTail_eq_leaf embedded
      (Leaf.ofFixed specifier mediaType.asText subtype.asText (Params.ofFields params.asList).value
        id.asText description.asText encoding.asText size.asNumber) tail
    rw [hleaf] at h
    subst h
    exact ⟨info, inner, rfl, congrArg Part.specifier hlabel⟩
  · simp at h

theorem value_leaf?_congr (h : ∀ field, (embedded field).value = (other field).value)
    (specifier : String) (items : List Field) :
    (leaf? embedded specifier items).value = (leaf? other specifier items).value := by
  unfold leaf?
  split
  · simp only [Traced.value_bind, Traced.value_map, value_leafTail_congr h]
  · rfl

/-! ## Multiparts -/

/-- The parts of a multipart, in order, each under the number of its list. -/
theorem value_parts (one : String → List Field → Traced (Option Part)) (stem : String)
    (first : Nat) (children : List Field) :
    (parts one stem first children).value = (children.zipIdx first).filterMap fun child =>
      (one (stem ++ Nat.repr child.2) child.1.asList).value := by
  induction children generalizing first with
  | nil => rfl
  | cons child rest ih =>
    rw [List.zipIdx_cons, List.filterMap_cons, ← ih]
    simp only [parts, Traced.value_bind]
    cases (one (stem ++ Nat.repr first) child.asList).value <;> rfl

theorem value_multipart (one : String → List Field → Traced (Option Part)) (stem : String)
    (items : List Field) :
    (multipart one stem items).value =
      .multipart (Multipart.ofBehind (stem ++ "TEXT") (items.dropWhile Field.isList))
        (((items.takeWhile Field.isList).zipIdx 1).filterMap fun child =>
          (one (stem ++ Nat.repr child.2) child.1.asList).value) := by
  rw [← value_parts]
  simp only [multipart, Traced.value_bind, Traced.value_pure, Multipart.value_readAll_extensions]
  rfl

/-! ## Structures -/

theorem value_inside (structure? : List Field → Traced (Option Part)) (field : Field) :
    (inside structure? field).value =
      if field.asList = [] then none else (structure? field.asList).value := by
  unfold inside
  split
  next h => rw [if_pos h]; rfl
  next h => rw [if_neg h]

/-- The part of a multipart that a list denotes, with `levels` levels left below the multipart. -/
def child? (maxDepth levels : Nat) (specifier : String) (child : List Field) :
    Traced (Option Part) :=
  if isMultipart child then structure? maxDepth levels (specifier ++ ".") child
  else leaf? (inside (structure? maxDepth levels "")) specifier child

variable {maxDepth levels : Nat} {stem : String} {items : List Field}

theorem value_inside_congr {one two : List Field → Traced (Option Part)}
    (h : ∀ items, (one items).value = (two items).value) (field : Field) :
    (inside one field).value = (inside two field).value := by
  rw [value_inside, value_inside, h]

/-- A part takes nothing from the decoder of what lies deeper but the values. -/
theorem value_childWith?_congr {below other : String → List Field → Traced (Option Part)}
    (h : ∀ stem items, (below stem items).value = (other stem items).value) (specifier : String)
    (child : List Field) :
    (childWith? below specifier child).value = (childWith? other specifier child).value := by
  unfold childWith?
  split
  · exact h _ _
  · exact value_leaf?_congr (value_inside_congr (h "")) specifier child

/-- **The limit counts only through the levels that are left**: apart from them it appears in
events, and so does the depth, but neither appears in a part. -/
theorem value_structureAt?_congr (limit depth other : Nat) :
    (structureAt? maxDepth levels depth stem items).value =
      (structureAt? limit levels other stem items).value := by
  induction levels generalizing depth other stem items with
  | zero => rfl
  | succ levels ih =>
    have hbelow : ∀ stem items, (structureAt? maxDepth levels (depth + 1) stem items).value =
        (structureAt? limit levels (other + 1) stem items).value := fun stem items => ih _ _
    rw [structureAt?, structureAt?]
    split
    · simp only [Traced.value_map, value_multipart, value_childWith?_congr hbelow]
    · exact value_leaf?_congr (value_inside_congr (hbelow "")) _ _

theorem value_structure?_multipart (h : isMultipart items = true) :
    (structure? maxDepth (levels + 1) stem items).value = some (.multipart
      (Multipart.ofBehind (stem ++ "TEXT") (items.dropWhile Field.isList))
      (((items.takeWhile Field.isList).zipIdx 1).filterMap fun child =>
        (child? maxDepth levels (stem ++ Nat.repr child.2) child.1.asList).value)) := by
  have hchild : ∀ specifier child, (childWith? (structureAt? maxDepth levels
      (maxDepth + 1 - (levels + 1) + 1)) specifier child).value =
        (child? maxDepth levels specifier child).value :=
    value_childWith?_congr fun stem items => value_structureAt?_congr _ _ _
  rw [structure?, structureAt?]
  simp only [h, if_true, Traced.value_map, value_multipart, hchild]

theorem value_structure?_leaf (h : isMultipart items = false) :
    (structure? maxDepth (levels + 1) stem items).value =
      (leaf? (inside (structure? maxDepth levels "")) (stem ++ "1") items).value := by
  rw [structure?, structureAt?]
  simp only [h, Bool.false_eq_true, if_false]
  exact value_leaf?_congr (value_inside_congr fun items => value_structureAt?_congr _ _ _) _ _

theorem value_structure?_limit (limit : Nat) :
    (structure? maxDepth levels stem items).value = (structure? limit levels stem items).value :=
  value_structureAt?_congr limit _ _

theorem value_part? (decoder : Decoder) (field : Field) :
    (decoder.part? field).value = if field.asList = [] then none else
      (structure? decoder.maxDepth (decoder.maxDepth + 1) "" field.asList).value :=
  value_inside _ field

end Decoder

end MailOutline
