import MailOutline.Part.Walk
import MailOutline.Proofs.Decoding

/-!
# Nested structures decode as they would on their own

A structure inside another one decodes to the part that it denotes by itself, with one level less
and with the specifier of its place in front of every specifier of its walk.

* `Part.relocate`: the part with something in front of the specifiers of its walk
  (`Part.walk_relocate`). It leaves embedded structures alone (`Part.embedded?_relocate`).
* `Decoder.value_structure?_stem`: a structure is decoded for a place by decoding it for the root
  and relocating the result.
* `Decoder.standalone?`: the part of a multipart, told from its own list.
* `Decoder.part?_compositional`: the parts of a multipart, and the structure inside a message, are
  decodings on their own.
-/

namespace MailOutline

namespace Part

/-! ## Relocation -/

/-- The structure of the message that a body holds. -/
def embedded? : Part → Option Part
  | leaf _ embedded => embedded
  | multipart .. => none

mutual

/-- The part with `stem` in front of its specifier and of those inside it. The structure of an
embedded message is numbered anew, so it stays. -/
def relocate (stem : String) : Part → Part
  | leaf info embedded => leaf { info with specifier := stem ++ info.specifier } embedded
  | multipart info parts =>
    multipart { info with specifier := stem ++ info.specifier } (relocateAll stem parts)

/-- Some parts with `stem` in front of their specifiers. -/
def relocateAll (stem : String) : List Part → List Part
  | [] => []
  | part :: rest => relocate stem part :: relocateAll stem rest

end

theorem relocateAll_eq_map (stem : String) (parts : List Part) :
    relocateAll stem parts = parts.map (relocate stem) := by
  induction parts with
  | nil => rfl
  | cons part rest ih => rw [relocateAll, ih, List.map_cons]

@[simp] theorem specifier_relocate (stem : String) (part : Part) :
    (part.relocate stem).specifier = stem ++ part.specifier := by
  cases part <;> rfl

@[simp] theorem embedded?_relocate (stem : String) (part : Part) :
    (part.relocate stem).embedded? = part.embedded? := by
  cases part <;> rfl

@[simp] theorem embedded?_relabel (specifier : String) (part : Part) :
    (part.relabel specifier).embedded? = part.embedded? := by
  cases part <;> rfl

mutual

theorem relocate_empty : ∀ part : Part, part.relocate "" = part
  | leaf info embedded => by
    simp only [relocate, String.empty_append]
  | multipart info parts => by
    simp only [relocate, String.empty_append, relocateAll_empty parts]

theorem relocateAll_empty : ∀ parts : List Part, relocateAll "" parts = parts
  | [] => rfl
  | part :: rest => by
    rw [relocateAll, relocate_empty part, relocateAll_empty rest]

end

mutual

theorem relocate_relocate (outer inner : String) :
    ∀ part : Part, (part.relocate inner).relocate outer = part.relocate (outer ++ inner)
  | leaf info embedded => by
    simp only [relocate, String.append_assoc]
  | multipart info parts => by
    simp only [relocate, String.append_assoc, relocateAll_relocateAll outer inner parts]

theorem relocateAll_relocateAll (outer inner : String) : ∀ parts : List Part,
    relocateAll outer (relocateAll inner parts) = relocateAll (outer ++ inner) parts
  | [] => rfl
  | part :: rest => by
    simp only [relocateAll, relocate_relocate outer inner part,
      relocateAll_relocateAll outer inner rest]

end

mutual

/-- **The walk of a relocated part** is the walk of the part, element by element relocated. -/
theorem walk_relocate (stem : String) :
    ∀ part : Part, (part.relocate stem).walk = part.walk.map (relocate stem)
  | leaf info embedded => rfl
  | multipart info parts => by
    rw [relocate, walk, walk, walkAll_relocateAll stem parts, List.map_cons, relocate]

theorem walkAll_relocateAll (stem : String) :
    ∀ parts : List Part, walkAll (relocateAll stem parts) = (walkAll parts).map (relocate stem)
  | [] => rfl
  | part :: rest => by
    rw [relocateAll, walkAll, walkAll, walk_relocate stem part, walkAll_relocateAll stem rest,
      List.map_append]

end

end Part

namespace Decoder

/-! ## Decoding for a place -/

variable {maxDepth levels : Nat}

theorem value_child?_stem
    (ih : ∀ stem items, (structure? maxDepth levels stem items).value =
      (structure? maxDepth levels "" items).value.map (Part.relocate stem))
    (stem specifier : String) (child : List Field) :
    (child? maxDepth levels (stem ++ specifier) child).value =
      (child? maxDepth levels specifier child).value.map (Part.relocate stem) := by
  unfold child?
  split
  · rw [ih (stem ++ specifier ++ "."), ih (specifier ++ "."), Option.map_map, String.append_assoc]
    refine congrArg (fun f => Option.map f _) (funext fun part => ?_)
    rw [Function.comp_apply, Part.relocate_relocate]
  · rw [value_leaf?_relabel (stem ++ specifier) specifier]
    cases h : (leaf? (inside (structure? maxDepth levels "")) specifier child).value with
    | none => rfl
    | some part =>
      obtain ⟨info, inner, rfl, rfl⟩ := eq_leaf_of_value_leaf? h
      rfl

/-- **Decoding for a place is decoding for the root, relocated.** -/
theorem value_structure?_stem (stem : String) (items : List Field) :
    (structure? maxDepth levels stem items).value =
      (structure? maxDepth levels "" items).value.map (Part.relocate stem) := by
  induction levels generalizing stem items with
  | zero => rfl
  | succ levels ih =>
    cases h : isMultipart items with
    | true =>
      rw [value_structure?_multipart h, value_structure?_multipart h, Option.map_some]
      rw [Part.relocate, Part.relocateAll_eq_map, List.map_filterMap]
      simp only [← value_child?_stem ih, String.empty_append]
      rfl
    | false =>
      rw [value_structure?_leaf h, value_structure?_leaf h, String.empty_append,
        value_leaf?_relabel (stem ++ "1") "1"]
      cases hp : (leaf? (inside (structure? maxDepth levels "")) "1" items).value with
      | none => rfl
      | some part =>
        obtain ⟨info, inner, rfl, hone⟩ := eq_leaf_of_value_leaf? hp
        rw [Option.map_some, Option.map_some, Part.relabel, Part.relocate, hone]

/-! ## Decoding alone -/

/-- The part that the list with some number in a multipart denotes, told by decoding that list on
its own. A multipart takes a level. -/
def standalone? (maxDepth number : Nat) (field : Field) : Option Part :=
  if isMultipart field.asList then
    match maxDepth with
    | 0 => none
    | below + 1 =>
      ((Decoder.mk below).part? field).value.map (Part.relocate (Nat.repr number ++ "."))
  else ((Decoder.mk maxDepth).part? field).value.map (Part.relabel (Nat.repr number))

/-- The structure that a message holds, told by decoding it on its own. It takes a level. -/
def standaloneInner? (maxDepth : Nat) (field : Field) : Option Part :=
  match maxDepth with
  | 0 => none
  | below + 1 => ((Decoder.mk below).part? field).value

theorem value_part?_list {items : List Field} (h : items ≠ []) :
    ((Decoder.mk maxDepth).part? (.list items)).value =
      (structure? maxDepth (maxDepth + 1) "" items).value := by
  rw [value_part?, Field.asList, if_neg h]

theorem ne_nil_of_isMultipart {items : List Field} (h : isMultipart items = true) :
    items ≠ [] := by
  rintro rfl
  cases h

theorem value_inside_standalone (limit : Nat) (field : Field) :
    (inside (structure? limit maxDepth "") field).value = standaloneInner? maxDepth field := by
  rw [value_inside]
  cases maxDepth with
  | zero => split <;> rfl
  | succ below => rw [standaloneInner?, value_part?, value_structure?_limit below]

/-- A part of a multipart is its list decoded alone: the two places where a multipart is told from
a body agree. -/
theorem value_child?_standalone (number : Nat) (field : Field) :
    (child? maxDepth maxDepth (Nat.repr number) field.asList).value =
      standalone? maxDepth number field := by
  unfold child? standalone?
  cases h : isMultipart field.asList with
  | true =>
    rw [if_pos rfl, if_pos rfl, value_structure?_stem]
    cases maxDepth with
    | zero => rfl
    | succ below =>
      simp only
      rw [value_part?, if_neg (ne_nil_of_isMultipart h), value_structure?_limit below]
  | false =>
    rw [if_neg Bool.false_ne_true, if_neg Bool.false_ne_true, value_part?]
    by_cases hnil : field.asList = []
    · rw [if_pos hnil, hnil]
      rfl
    · rw [if_neg hnil, value_structure?_leaf h, String.empty_append, value_leaf?_relabel _ "1"]

/-- **The parts of a multipart are its leading lists, decoded alone.** -/
theorem value_part?_multipart {items : List Field} (h : isMultipart items = true) :
    ((Decoder.mk maxDepth).part? (.list items)).value = some (.multipart
      (Multipart.ofBehind "TEXT" (items.dropWhile Field.isList))
      (((items.takeWhile Field.isList).zipIdx 1).filterMap fun child =>
        standalone? maxDepth child.2 child.1)) := by
  rw [value_part?_list (ne_nil_of_isMultipart h), value_structure?_multipart h]
  simp only [String.empty_append, value_child?_standalone]

/-- **The structure inside a message is decoded alone.** -/
theorem value_part?_message {items : List Field} (hlen : 10 ≤ items.length)
    (htype : Text.sameLetters items[0].asText "message" = true)
    (hsub : Text.sameLetters items[1].asText "rfc822" = true) :
    ∃ info, ((Decoder.mk maxDepth).part? (.list items)).value =
      some (.leaf info (standaloneInner? maxDepth items[8])) := by
  match items, hlen with
  | mediaType :: subtype :: params :: id :: description :: encoding :: size :: envelope :: inner ::
      lines :: tail, _ =>
    simp only [List.getElem_cons_zero, List.getElem_cons_succ] at htype hsub ⊢
    -- A list at the front would have no text, so the structure is no multipart.
    have hbody : isMultipart (mediaType :: subtype :: params :: id :: description :: encoding ::
        size :: envelope :: inner :: lines :: tail) = false := by
      cases mediaType with
      | list =>
        have hempty : Text.sameLetters "" "message" = true := htype
        exact absurd (Text.sameLetters_iff_toList.1 hempty) (by decide)
      | _ => rfl
    rw [value_part?_list (List.cons_ne_nil _ _), value_structure?_leaf hbody, value_leaf?_cons]
    rw [value_leafTail_message, value_inside_standalone]
    · exact ⟨_, rfl⟩
    · rw [Leaf.isMessage, Bool.and_eq_true]
      exact ⟨htype, hsub⟩

/-- A list alone that is no multipart decodes to a body, whose specifier is `1`. -/
theorem eq_leaf_of_value_part? {items : List Field} (h : isMultipart items = false) {part : Part}
    (hp : ((Decoder.mk maxDepth).part? (.list items)).value = some part) :
    ∃ info inner, part = .leaf info inner ∧ info.specifier = "1" := by
  by_cases hnil : items = []
  · rw [value_part?, Field.asList, if_pos hnil] at hp
    cases hp
  · rw [value_part?_list hnil, value_structure?_leaf h] at hp
    exact eq_leaf_of_value_leaf? hp

/-- **Decoding is compositional.** The parts of a multipart are its leading lists decoded alone,
under their numbers and without those that denote no part. The structure inside a message is
decoded alone too. A list that is no multipart decodes to a body with the specifier `1`, which
gives way to the number, and relocation puts the number in front of the specifiers of a walk. Both
leave the structures inside messages as they are. -/
theorem part?_compositional (maxDepth : Nat) :
    (∀ items, isMultipart items = true → ∃ info,
      ((Decoder.mk maxDepth).part? (.list items)).value = some (.multipart info
        (((items.takeWhile Field.isList).zipIdx 1).filterMap fun child =>
          standalone? maxDepth child.2 child.1))) ∧
    (∀ (items : List Field) (_ : 10 ≤ items.length),
      Text.sameLetters items[0].asText "message" = true →
      Text.sameLetters items[1].asText "rfc822" = true → ∃ info,
        ((Decoder.mk maxDepth).part? (.list items)).value =
          some (.leaf info (standaloneInner? maxDepth items[8]))) ∧
    (∀ items, isMultipart items = false → ∀ part,
      ((Decoder.mk maxDepth).part? (.list items)).value = some part →
        part.walk = [part] ∧ part.specifier = "1" ∧ ∀ specifier,
          (part.relabel specifier).walk.map Part.specifier = [specifier] ∧
          (part.relabel specifier).embedded? = part.embedded?) ∧
    (∀ (stem : String) (part : Part),
      (part.relocate stem).walk.map Part.specifier =
        part.walk.map (fun inner => stem ++ inner.specifier) ∧
      (part.relocate stem).walk.map Part.embedded? = part.walk.map Part.embedded?) := by
  refine ⟨fun items h => ⟨_, value_part?_multipart h⟩,
    fun items hlen htype hsub => value_part?_message hlen htype hsub,
    fun items h part hpart => ?_, fun stem part => ?_⟩
  · obtain ⟨info, inner, rfl, hone⟩ := eq_leaf_of_value_part? h hpart
    exact ⟨rfl, hone, fun specifier => ⟨rfl, Part.embedded?_relabel specifier _⟩⟩
  · rw [Part.walk_relocate, List.map_map, List.map_map]
    exact ⟨List.map_congr_left fun inner _ => Part.specifier_relocate stem inner,
      List.map_congr_left fun inner _ => Part.embedded?_relocate stem inner⟩

/-! ## A forwarded message -/

/-- A note of one line. -/
def noteFields : List Field :=
  [.atom "text", .atom "plain", .nil, .nil, .nil, .atom "7bit", .number 4, .number 1]

/-- A message that holds the note. -/
def messageFields : List Field :=
  [.atom "message", .atom "RFC822", .nil, .nil, .nil, .atom "7bit", .number 40, .nil,
    .list noteFields, .number 3]

/-- A note, a message and a digest of one note. -/
def forwardFields : List Field :=
  [.list noteFields, .list messageFields, .list [.list noteFields, .atom "digest"], .atom "mixed"]

/-- The parts of the forwarded message, the structure inside it, and the note alone. -/
theorem part?_compositional_forward :
    (∃ info, ((Decoder.mk 1).part? (.list forwardFields)).value = some (.multipart info
      ([(.list noteFields, 1), (.list messageFields, 2),
        (.list [.list noteFields, .atom "digest"], 3)].filterMap fun child =>
          standalone? 1 child.2 child.1))) ∧
    (∃ info, ((Decoder.mk 1).part? (.list messageFields)).value =
      some (.leaf info ((Decoder.mk 0).part? (.list noteFields)).value)) ∧
    ∃ note, ((Decoder.mk 0).part? (.list noteFields)).value = some note ∧
      note.walk = [note] ∧ note.specifier = "1" := by
  have hcase : Text.sameLetters "RFC822" "rfc822" = true :=
    Text.sameLetters_iff_toList.2 (by decide)
  obtain ⟨note, hnote⟩ : ∃ note, ((Decoder.mk 0).part? (.list noteFields)).value = some note :=
    ⟨_, rfl⟩
  have halone := (part?_compositional 0).2.2.1 noteFields rfl note hnote
  exact ⟨(part?_compositional 1).1 forwardFields rfl,
    (part?_compositional 1).2.1 messageFields (by decide) (Text.sameLetters_refl _) hcase,
    note, hnote, halone.1, halone.2.1⟩

end Decoder

end MailOutline
