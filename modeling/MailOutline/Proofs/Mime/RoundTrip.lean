import MailOutline.Proofs.Mime.Entity

/-!
# Decoding undoes the encoding

The field of a MIME entity decodes to the part of this entity, whatever it is made of, as long as it
does not nest too deep.

* `Entity.value_decodeAt`: an entity at a path decodes to its part at this path. By recursion over
  the tree, for all levels that are enough.
* `Entity.value_part?_field`: the same for the root.
-/

namespace MailOutline.Mime.Entity

open Decoder (child? inside leaf? structure?)

/-- The part that the list at a path denotes, with `levels` levels left below it. -/
def decodeAt (maxDepth levels : Nat) (path : List Nat) (items : List Field) :
    Traced (Option Part) :=
  if Decoder.isMultipart items then structure? maxDepth (levels + 1) (Specifier.stem path) items
  else leaf? (inside (structure? maxDepth levels "")) (Specifier.dotted path) items

/-- The parts that the lists inside the multipart at a path denote, numbered from `number`. -/
def decodeAll (maxDepth levels : Nat) (path : List Nat) (number : Nat) (children : List Field) :
    List Part :=
  (children.zipIdx number).filterMap fun child =>
    (child? maxDepth levels (Specifier.stem path ++ Nat.repr child.2) child.1.asList).value

theorem value_decodeAt_body {entity : Entity} (h : entity.isMultipart = false)
    (maxDepth levels : Nat) (path : List Nat) :
    decodeAt maxDepth levels path entity.items =
      leaf? (inside (structure? maxDepth levels "")) (Specifier.dotted path) entity.items := by
  rw [decodeAt, isMultipart_items, h, if_neg Bool.false_ne_true]

/-- A part of a multipart is decoded at the path of the multipart and its own number. -/
theorem value_child? {maxDepth levels : Nat} {path : List Nat} {number : Nat} {entity : Entity}
    {part : Part} (hlevels : entity.nesting + entity.level ≤ levels)
    (h : ∀ levels, entity.nesting ≤ levels →
      (decodeAt maxDepth levels (path ++ [number]) entity.items).value = some part) :
    (child? maxDepth levels (Specifier.stem path ++ Nat.repr number) entity.items).value =
      some part := by
  unfold child?
  unfold decodeAt at h
  rw [isMultipart_items] at h ⊢
  cases hm : entity.isMultipart with
  | false =>
    have hbody := h levels (Nat.le_trans (Nat.le_add_right _ _) hlevels)
    rw [hm, if_neg Bool.false_ne_true, Specifier.dotted_concat] at hbody
    rw [if_neg Bool.false_ne_true, hbody]
  | true =>
    rw [level, hm, if_pos rfl] at hlevels
    obtain ⟨below, rfl⟩ := Nat.exists_eq_add_of_le' (Nat.le_trans (Nat.le_add_left 1 _) hlevels)
    have hmultipart := h below (Nat.le_of_succ_le_succ hlevels)
    rw [hm, if_pos rfl, Specifier.stem_concat] at hmultipart
    rw [if_pos rfl, hmultipart]

theorem decodeAll_cons {maxDepth levels : Nat} {path : List Nat} {number : Nat} {entity : Entity}
    {part : Part} {rest : List Field} {parts : List Part}
    (hlevels : entity.nesting + entity.level ≤ levels)
    (hfirst : ∀ levels, entity.nesting ≤ levels →
      (decodeAt maxDepth levels (path ++ [number]) entity.items).value = some part)
    (hrest : decodeAll maxDepth levels path (number + 1) rest = parts) :
    decodeAll maxDepth levels path number (.list entity.items :: rest) = part :: parts := by
  rw [decodeAll, List.zipIdx_cons, List.filterMap_cons, Field.asList, value_child? hlevels hfirst]
  exact congrArg _ hrest

/-- A structure is decoded at the path of the root. -/
theorem value_structure?_root (maxDepth levels : Nat) (entity : Entity) :
    (structure? maxDepth (levels + 1) "" entity.items).value =
      (decodeAt maxDepth levels entity.rootPath entity.items).value := by
  rw [decodeAt, isMultipart_items, rootPath]
  cases hm : entity.isMultipart with
  | true => rfl
  | false =>
    rw [Decoder.value_structure?_leaf (by rw [isMultipart_items, hm]), String.empty_append]
    rfl

theorem takeWhile_fields (entities : List Entity) (subtype : String) (tail : List Field) :
    (fields entities ++ .atom subtype :: tail).takeWhile Field.isList = fields entities := by
  induction entities with
  | nil => rfl
  | cons entity rest ih => rw [fields, List.cons_append, List.takeWhile_cons_of_pos rfl, ih]

theorem dropWhile_fields (entities : List Entity) (subtype : String) (tail : List Field) :
    (fields entities ++ .atom subtype :: tail).dropWhile Field.isList = .atom subtype :: tail := by
  induction entities with
  | nil => rfl
  | cons entity rest ih => rw [fields, List.cons_append, List.dropWhile_cons_of_pos rfl, ih]

mutual

/-- **Decoding at a path.** Where the levels are enough, an entity decodes to its part. -/
theorem value_decodeAt (maxDepth : Nat) : ∀ (entity : Entity) (levels : Nat) (path : List Nat),
    entity.nesting ≤ levels →
      (decodeAt maxDepth levels path entity.items).value = some (entity.partAt path)
  | basic content notText notMessage tail, levels, path, _ => by
    have ht : (content.leaf (Specifier.dotted path)).isText = false := notText
    have hm : (content.leaf (Specifier.dotted path)).isMessage = false := notMessage
    rw [value_decodeAt_body rfl, items, Content.value_leaf?_fields,
      Decoder.value_leafTail_basic ht hm, tail.extend_fields rfl rfl rfl rfl, partAt]
  | text content isText lines tail, levels, path, _ => by
    have ht : (content.leaf (Specifier.dotted path)).isText = true := isText
    rw [value_decodeAt_body rfl, items, Content.value_leaf?_fields,
      Decoder.value_leafTail_text ht, tail.extend_fields rfl rfl rfl rfl, partAt]
    rfl
  | message content isMessage header inner lines tail, levels, path, hlevels => by
    have hm : (content.leaf (Specifier.dotted path)).isMessage = true := isMessage
    rw [nesting] at hlevels
    obtain ⟨below, rfl⟩ := Nat.exists_eq_add_of_le' (Nat.le_trans (Nat.le_add_left 1 _) hlevels)
    -- The entity inside takes a level, and its parts are numbered anew.
    have hinner := value_decodeAt maxDepth inner below inner.rootPath
      (Nat.le_of_succ_le_succ hlevels)
    rw [← value_structure?_root] at hinner
    rw [value_decodeAt_body rfl, items, Content.value_leaf?_fields,
      Decoder.value_leafTail_message hm, Decoder.value_inside, Field.asList,
      if_neg inner.items_ne_nil, hinner, Header.value_ofField?,
      tail.extend_fields rfl rfl rfl rfl, partAt]
    rfl
  | multipart first rest subtype tail, levels, path, hlevels => by
    rw [nesting] at hlevels
    have hparts := decodeAll_cons (Nat.le_trans (Nat.le_max_left _ _) hlevels)
      (fun levels hl => value_decodeAt maxDepth first levels (path ++ [1]) hl)
      (decodeAll_fields maxDepth rest levels path 2 (Nat.le_trans (Nat.le_max_right _ _) hlevels))
    rw [decodeAt, isMultipart_items, isMultipart, if_pos rfl,
      Decoder.value_structure?_multipart (isMultipart_items _), items,
      List.takeWhile_cons_of_pos rfl, List.dropWhile_cons_of_pos rfl, takeWhile_fields,
      dropWhile_fields, MultipartTail.ofBehind_fields, ← Specifier.ofText_eq_stem, partAt]
    exact congrArg _ (congrArg _ hparts)

/-- The parts of a multipart decode in order, each at its number. -/
theorem decodeAll_fields (maxDepth : Nat) : ∀ (entities : List Entity) (levels : Nat)
    (path : List Nat) (number : Nat), nestingAll entities ≤ levels →
      decodeAll maxDepth levels path number (fields entities) = partsAt entities path number
  | [], _, _, _, _ => rfl
  | entity :: rest, levels, path, number, hlevels => by
    rw [nestingAll] at hlevels
    rw [fields, partsAt]
    exact decodeAll_cons (Nat.le_trans (Nat.le_max_left _ _) hlevels)
      (fun levels hl => value_decodeAt maxDepth entity levels (path ++ [number]) hl)
      (decodeAll_fields maxDepth rest levels path (number + 1)
        (Nat.le_trans (Nat.le_max_right _ _) hlevels))

end

/-- **Decoding undoes the encoding.** An entity that nests no deeper than the limit decodes to its
part: every part of the tree under its path, every attribute at its place. -/
theorem value_part?_field (maxDepth : Nat) (entity : Entity) (h : entity.nesting ≤ maxDepth) :
    ((Decoder.mk maxDepth).part? entity.field).value = some entity.part := by
  rw [Decoder.value_part?, field, Field.asList, if_neg entity.items_ne_nil, value_structure?_root,
    value_decodeAt maxDepth entity maxDepth entity.rootPath h, part]

/-! ## A forwarded report -/

/-- What the bodies of the report have in common. -/
def reportContent (mediaType subtype : String) : Content where
  mediaType := mediaType
  subtype := subtype
  params := some [("charset", "utf-8"), ("x-note", "a"), ("X-NOTE", "b")]
  id := none
  description := some "report"
  encoding := "7bit"
  size := 7

theorem isText_reportContent : (reportContent "TEXT" "html").isText = true :=
  Text.sameLetters_iff_toList.2 (by decide)

theorem isMessage_reportContent : (reportContent "message" "RFC822").isMessage = true := by
  rw [Content.isMessage, Bool.and_eq_true]
  exact ⟨Text.sameLetters_refl _, Text.sameLetters_iff_toList.2 (by decide)⟩

theorem isText_reportContent_image : (reportContent "image" "png").isText = false := by
  rw [Content.isText, Bool.eq_false_iff, ne_eq, Text.sameLetters_iff_toList]
  decide

theorem isMessage_reportContent_image : (reportContent "image" "png").isMessage = false := by
  rw [Content.isMessage, Bool.and_eq_false_iff, Bool.eq_false_iff, ne_eq,
    Text.sameLetters_iff_toList]
  exact .inl (by decide)

/-- A text whose extension data ends after the disposition. -/
def reportText : Entity :=
  .text (reportContent "TEXT" "html") isText_reportContent 2
    { md5 := none
      disposition := some ⟨"inline", none⟩
      language := none
      location := none
      kept := 2 }

/-- A picture with all its extension data. -/
def reportImage : Entity :=
  .basic (reportContent "image" "png") isText_reportContent_image isMessage_reportContent_image
    { md5 := some "d41d"
      disposition := none
      language := some (.many ["en", "de"])
      location := some "here"
      kept := 4 }

/-- A message from nobody. -/
def reportHeader : Header where
  date := none
  subject := some "report"
  authors := some [⟨none, none, some "info", some "example.org"⟩]
  sender := none
  replyTo := none
  recipients := none
  cc := none
  bcc := none
  inReplyTo := none
  messageId := none

/-- A multipart with a picture, and a message that holds a multipart of one text. -/
def report : Entity :=
  .multipart reportImage
    [.message (reportContent "message" "RFC822") isMessage_reportContent reportHeader
      (.multipart reportText [] "alternative" ⟨none, none, none, 0⟩) 9 ⟨none, none, none, none, 0⟩]
    "mixed" ⟨some [("boundary", "x")], none, none, 1⟩

/-- The report nests one level, and is decoded with a limit of one. -/
theorem value_part?_field_report :
    report.nesting ≤ 1 ∧ ((Decoder.mk 1).part? report.field).value = some report.part :=
  ⟨by decide, value_part?_field 1 report (by decide)⟩

end MailOutline.Mime.Entity
