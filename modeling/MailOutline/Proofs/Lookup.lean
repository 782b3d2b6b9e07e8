import MailOutline.Proofs.Relocation
import MailOutline.Proofs.Specifier

/-!
# Finding a part by its specifier

What `Part.find?` answers on a decoded multipart is told from the list that was decoded. A specifier
is a path of numbers, the path leads through the leading lists, and the answer is the list at its
end, decoded alone and put at that place.

* `Decoder.follow?`: the list at the end of a path.
* `Decoder.Names`: which specifier names which list, within a limit.
* `Decoder.placed`: the part at a path, from its own list.
* `Decoder.find?_ofText`, `Decoder.find?_dotted`, `Decoder.find?_shape`: what is found under a
  specifier with `TEXT`, under one without, and that there are no others.
* `Decoder.find?_decoded`: all of it, and the body at the root.
-/

namespace MailOutline

namespace Part

/-! ## Finding in parts -/

theorem find?_multipart (info : Multipart) (parts : List Part) (specifier : String) :
    (multipart info parts).find? specifier =
      if info.specifier = specifier then some (multipart info parts)
      else parts.findSome? fun part => part.find? specifier := by
  unfold find?
  rw [walk, walkAll_eq_flatMap, List.find?_cons, List.find?_flatMap]
  by_cases h : info.specifier = specifier
  · rw [if_pos h, Part.specifier, beq_iff_eq.2 h]
  · rw [if_neg h, Part.specifier, beq_false_of_ne h]

theorem find?_leaf (info : Leaf) (inner : Option Part) (specifier : String) :
    (leaf info inner).find? specifier =
      if info.specifier = specifier then some (leaf info inner) else none := by
  unfold find?
  rw [walk, List.find?_cons]
  by_cases h : info.specifier = specifier
  · rw [if_pos h, Part.specifier, beq_iff_eq.2 h]
  · rw [if_neg h, Part.specifier, beq_false_of_ne h]
    rfl

/-- **Finding in a relocated part** is finding in the part, behind what was put in front. -/
theorem find?_relocate (stem specifier : String) (part : Part) :
    (part.relocate stem).find? (stem ++ specifier) =
      (part.find? specifier).map (relocate stem) := by
  unfold find?
  rw [walk_relocate, List.find?_map]
  refine congrArg (fun p => (part.walk.find? p).map (relocate stem)) (funext fun inner => ?_)
  rw [Function.comp_apply, specifier_relocate, Bool.eq_iff_iff, beq_iff_eq, beq_iff_eq,
    String.append_right_inj]

theorem exists_of_find?_relocate {stem specifier : String} {part found : Part}
    (h : (part.relocate stem).find? specifier = some found) :
    ∃ behind, specifier = stem ++ behind := by
  unfold find? at h
  rw [walk_relocate] at h
  obtain ⟨inner, -, rfl⟩ := List.mem_map.1 (List.mem_of_find?_eq_some h)
  have hspec := List.find?_some h
  rw [specifier_relocate, beq_iff_eq] at hspec
  exact ⟨inner.specifier, hspec.symm⟩

end Part

namespace Decoder

/-! ## Paths through the leading lists -/

/-- The element with a number among the leading lists. Numbers start from one. -/
def childAt? (items : List Field) : Nat → Option Field
  | 0 => none
  | index + 1 => (items.takeWhile Field.isList)[index]?

/-- The list at the end of a path. Each number takes an element from the leading lists of the
current list, so every list on the way begins with a list. -/
def follow? (items : List Field) : List Nat → Option (List Field)
  | [] => some items
  | number :: path => (childAt? items number).bind fun child => follow? child.asList path

theorem childAt?_of_not_isMultipart {items : List Field} (h : isMultipart items = false)
    (number : Nat) : childAt? items number = none := by
  cases number with
  | zero => rfl
  | succ index =>
    cases items with
    | nil => rfl
    | cons first rest =>
      have hfirst : ¬ first.isList = true := by simpa [isMultipart] using h
      rw [childAt?, List.takeWhile_cons_of_neg hfirst]
      rfl

theorem findSome?_filterMap {α β γ : Type} (g : α → Option β) (f : β → Option γ) (xs : List α) :
    (xs.filterMap g).findSome? f = xs.findSome? fun x => (g x).bind f := by
  induction xs with
  | nil => rfl
  | cons x rest ih =>
    rw [List.filterMap_cons, List.findSome?_cons, ← ih]
    cases g x with
    | none => rfl
    | some y => exact List.findSome?_cons

/-- Where only one number can give an answer, the search through numbered elements is the look-up
of that number. -/
theorem findSome?_zipIdx_of_unique {α β : Type} {f : α × Nat → Option β} {number : Nat}
    (h : ∀ a k, k ≠ number → f (a, k) = none) (xs : List α) {first : Nat}
    (hle : first ≤ number) :
    (xs.zipIdx first).findSome? f = xs[number - first]?.bind fun a => f (a, number) := by
  induction xs generalizing first with
  | nil => rfl
  | cons x rest ih =>
    rw [List.zipIdx_cons, List.findSome?_cons]
    rcases Nat.eq_or_lt_of_le hle with rfl | hlt
    · rw [Nat.sub_self, List.getElem?_cons_zero, Option.bind_some]
      cases hx : f (x, first) with
      | some b => rfl
      | none =>
        refine List.findSome?_eq_none_iff.2 fun pair hpair => ?_
        exact h pair.1 pair.2 (Nat.ne_of_gt (List.mem_zipIdx hpair).1)
    · have hsub : number - first = number - (first + 1) + 1 := by omega
      rw [h x first (Nat.ne_of_lt hlt), ih hlt, hsub, List.getElem?_cons_succ]

/-! ## One step into a decoded multipart -/

variable {maxDepth : Nat}

/-- The part at a path, told from the list there: the list decoded alone, with the levels that are
left, and put at that place. -/
def placed (maxDepth : Nat) (path : List Nat) (items : List Field) : Option Part :=
  if isMultipart items then
    ((Decoder.mk (maxDepth - path.length)).part? (.list items)).value.map
      (Part.relocate (Specifier.stem path))
  else
    ((Decoder.mk (maxDepth + 1 - path.length)).part? (.list items)).value.map
      (Part.relabel (Specifier.dotted path))

/-- What is found in the part of a multipart that the list with some number denotes. -/
def findIn? (maxDepth : Nat) (specifier : String) (number : Nat) (field : Field) : Option Part :=
  (standalone? maxDepth number field).bind fun part => part.find? specifier

theorem value_part?_asList (field : Field) :
    ((Decoder.mk maxDepth).part? (.list field.asList)).value =
      ((Decoder.mk maxDepth).part? field).value := by
  rw [value_part?, value_part?]
  rfl

/-- In a body only its own specifier is found. -/
theorem findIn?_body {field : Field} (h : isMultipart field.asList = false) (specifier : String)
    (number : Nat) :
    findIn? maxDepth specifier number field =
      if specifier = Nat.repr number then placed maxDepth [number] field.asList else none := by
  unfold findIn? standalone? placed
  rw [h, if_neg Bool.false_ne_true, if_neg Bool.false_ne_true, Specifier.dotted_singleton,
    List.length_singleton, Nat.add_sub_cancel, value_part?_asList]
  cases hp : ((Decoder.mk maxDepth).part? field).value with
  | none => split <;> rfl
  | some part =>
    rw [← value_part?_asList] at hp
    obtain ⟨info, inner, rfl, -⟩ := eq_leaf_of_value_part? h hp
    rw [Option.map_some, Option.bind_some, Part.relabel, Part.find?_leaf]
    by_cases hs : specifier = Nat.repr number
    · rw [if_pos hs, if_pos hs.symm]
    · rw [if_neg hs, if_neg (Ne.symm hs)]

/-- In a multipart the number and a point stand in front of what is found. -/
theorem findIn?_multipart {field : Field} (h : isMultipart field.asList = true)
    (specifier : String) (number : Nat) :
    findIn? maxDepth (Nat.repr number ++ "." ++ specifier) number field =
      ((standaloneInner? maxDepth field).bind fun part => part.find? specifier).map
        (Part.relocate (Nat.repr number ++ ".")) := by
  unfold findIn? standalone? standaloneInner?
  rw [h, if_pos rfl]
  cases maxDepth with
  | zero => rfl
  | succ below =>
    simp only
    cases ((Decoder.mk below).part? field).value with
    | none => rfl
    | some part =>
      rw [Option.map_some, Option.bind_some, Option.bind_some]
      exact Part.find?_relocate _ _ _

theorem exists_of_findIn?_multipart {field : Field} (h : isMultipart field.asList = true)
    {specifier : String} {number : Nat} {found : Part}
    (hf : findIn? maxDepth specifier number field = some found) :
    ∃ behind, specifier = Nat.repr number ++ "." ++ behind := by
  unfold findIn? standalone? at hf
  rw [h, if_pos rfl] at hf
  cases maxDepth with
  | zero => cases hf
  | succ below =>
    simp only at hf
    obtain ⟨part, hpart, hfound⟩ := Option.bind_eq_some_iff.1 hf
    obtain ⟨alone, -, rfl⟩ := Option.map_eq_some_iff.1 hpart
    exact Part.exists_of_find?_relocate hfound

/-- What is found under a part's number begins with that number. -/
theorem shape_of_findIn? {specifier : String} {number : Nat} {field : Field} {found : Part}
    (hf : findIn? maxDepth specifier number field = some found) :
    specifier = Nat.repr number ∨ ∃ behind, specifier = Nat.repr number ++ "." ++ behind := by
  cases h : isMultipart field.asList with
  | true => exact .inr (exists_of_findIn?_multipart h hf)
  | false =>
    rw [findIn?_body h] at hf
    by_cases hs : specifier = Nat.repr number
    · exact .inl hs
    · rw [if_neg hs] at hf
      cases hf

/-- **One step of a search** in a decoded multipart: itself, or the first of its lists with an
answer. -/
theorem find?_step {items : List Field} (h : isMultipart items = true) {root : Part}
    (hroot : ((Decoder.mk maxDepth).part? (.list items)).value = some root) (specifier : String) :
    root.find? specifier =
      if "TEXT" = specifier then some root
      else ((items.takeWhile Field.isList).zipIdx 1).findSome? fun child =>
        findIn? maxDepth specifier child.2 child.1 := by
  rw [value_part?_multipart h, Option.some.injEq] at hroot
  subst hroot
  rw [Part.find?_multipart, findSome?_filterMap]
  rfl

/-- A specifier that begins with one number only is looked for in the list with that number. -/
theorem find?_at {items : List Field} (h : isMultipart items = true) {root : Part}
    (hroot : ((Decoder.mk maxDepth).part? (.list items)).value = some root) {specifier : String}
    {number : Nat} (htext : "TEXT" ≠ specifier)
    (hother : ∀ field k, k ≠ number → findIn? maxDepth specifier k field = none) :
    root.find? specifier =
      (childAt? items number).bind fun field => findIn? maxDepth specifier number field := by
  rw [find?_step h hroot, if_neg htext]
  cases number with
  | zero =>
    refine List.findSome?_eq_none_iff.2 fun child hchild => ?_
    have hone := (List.mem_zipIdx hchild).1
    exact hother child.1 child.2 (by omega)
  | succ index => exact findSome?_zipIdx_of_unique hother _ (Nat.succ_le_succ (Nat.zero_le index))

theorem find?_number {items : List Field} (h : isMultipart items = true) {root : Part}
    (hroot : ((Decoder.mk maxDepth).part? (.list items)).value = some root) (number : Nat) :
    root.find? (Nat.repr number) = (childAt? items number).bind fun field =>
      if isMultipart field.asList then none else placed maxDepth [number] field.asList := by
  have htext : "TEXT" ≠ Nat.repr number := fun heq =>
    Specifier.repr_append_ne_text number "" (by rw [String.append_empty, heq])
  rw [find?_at h hroot htext fun field k hk => ?_]
  · refine congrArg _ (funext fun field => ?_)
    cases hm : isMultipart field.asList with
    | true =>
      rw [if_pos rfl]
      refine Option.eq_none_iff_forall_ne_some.2 fun found hf => ?_
      obtain ⟨behind, heq⟩ := exists_of_findIn?_multipart hm hf
      exact Specifier.repr_ne_repr_point _ _ _ heq
    | false => rw [if_neg Bool.false_ne_true, findIn?_body hm, if_pos rfl]
  · refine Option.eq_none_iff_forall_ne_some.2 fun found hf => ?_
    rcases shape_of_findIn? hf with heq | ⟨behind, heq⟩
    · exact hk (Specifier.repr_inj heq).symm
    · exact Specifier.repr_ne_repr_point _ _ _ heq

theorem find?_number_point {items : List Field} (h : isMultipart items = true) {root : Part}
    (hroot : ((Decoder.mk maxDepth).part? (.list items)).value = some root) (number : Nat)
    (specifier : String) :
    root.find? (Nat.repr number ++ "." ++ specifier) = (childAt? items number).bind fun field =>
      if isMultipart field.asList then
        ((standaloneInner? maxDepth field).bind fun part => part.find? specifier).map
          (Part.relocate (Nat.repr number ++ "."))
      else none := by
  have htext : "TEXT" ≠ Nat.repr number ++ "." ++ specifier := fun heq =>
    Specifier.repr_append_ne_text number ("." ++ specifier) (by rw [← String.append_assoc, heq])
  rw [find?_at h hroot htext fun field k hk => ?_]
  · refine congrArg _ (funext fun field => ?_)
    cases hm : isMultipart field.asList with
    | true => rw [if_pos rfl, findIn?_multipart hm]
    | false =>
      rw [if_neg Bool.false_ne_true, findIn?_body hm,
        if_neg (Ne.symm (Specifier.repr_ne_repr_point _ _ _))]
  · refine Option.eq_none_iff_forall_ne_some.2 fun found hf => ?_
    rcases shape_of_findIn? hf with heq | ⟨behind, heq⟩
    · exact Specifier.repr_ne_repr_point _ _ _ heq.symm
    · exact hk (Specifier.repr_point_inj heq).1.symm

/-! ## Along a path -/

theorem placed_nil {items : List Field} (h : isMultipart items = true) :
    placed maxDepth [] items = ((Decoder.mk maxDepth).part? (.list items)).value := by
  rw [placed, h, if_pos rfl, List.length_nil, Nat.sub_zero, Specifier.stem]
  cases ((Decoder.mk maxDepth).part? (.list items)).value with
  | none => rfl
  | some part => rw [Option.map_some, Part.relocate_empty]

/-- A step more in front of a path takes a level and puts a number in front. -/
theorem placed_cons (number : Nat) {path : List Nat} {items : List Field}
    (h : isMultipart items = true ∨ path ≠ []) :
    placed (maxDepth + 1) (number :: path) items =
      (placed maxDepth path items).map (Part.relocate (Nat.repr number ++ ".")) := by
  unfold placed
  cases hm : isMultipart items with
  | true =>
    rw [if_pos rfl, if_pos rfl, List.length_cons, Nat.add_sub_add_right, Option.map_map,
      Specifier.stem_cons]
    refine congrArg (fun f => Option.map f _) (funext fun part => ?_)
    rw [Function.comp_apply, Part.relocate_relocate]
  | false =>
    have hne : path ≠ [] := h.resolve_left (by rw [hm]; exact Bool.false_ne_true)
    rw [if_neg Bool.false_ne_true, if_neg Bool.false_ne_true, List.length_cons,
      Nat.add_sub_add_right, Option.map_map, Specifier.dotted_cons number hne]
    cases hp : ((Decoder.mk (maxDepth + 1 - path.length)).part? (.list items)).value with
    | none => rfl
    | some part =>
      obtain ⟨info, inner, rfl, -⟩ := eq_leaf_of_value_part? hm hp
      rfl

/-- A path goes on only through lists that begin with a list. -/
theorem follow?_of_not_isMultipart {items : List Field} (h : isMultipart items = false)
    {path : List Nat} (hne : path ≠ []) : follow? items path = none := by
  cases path with
  | nil => exact absurd rfl hne
  | cons number path => rw [follow?, childAt?_of_not_isMultipart h, Option.bind_none]

/-- The step of both inductions along a path: `answer` is what the path gives for the list at its
end, in the levels that are left. -/
theorem find?_number_point_follow {items : List Field} (h : isMultipart items = true)
    {root : Part} (hroot : ((Decoder.mk maxDepth).part? (.list items)).value = some root)
    (number : Nat) (path : List Nat) (specifier : String)
    (answer : Nat → List Nat → List Field → Option Part)
    (ih : ∀ below field part, isMultipart field = true →
      ((Decoder.mk below).part? (.list field)).value = some part →
      part.find? specifier = (follow? field path).bind (answer below path))
    (hcons : ∀ below inner, answer (below + 1) (number :: path) inner =
      (answer below path inner).map (Part.relocate (Nat.repr number ++ ".")))
    (hzero : ∀ inner, answer 0 (number :: path) inner = none)
    (hbody : ∀ field, isMultipart field = false →
      (follow? field path).bind (answer maxDepth (number :: path)) = none) :
    root.find? (Nat.repr number ++ "." ++ specifier) =
      (follow? items (number :: path)).bind (answer maxDepth (number :: path)) := by
  rw [find?_number_point h hroot, follow?]
  cases childAt? items number with
  | none => rfl
  | some field =>
    simp only [Option.bind_some]
    cases hm : isMultipart field.asList with
    | false => rw [if_neg Bool.false_ne_true, hbody _ hm]
    | true =>
      rw [if_pos rfl]
      cases maxDepth with
      | zero =>
        rw [standaloneInner?]
        cases follow? field.asList path with
        | none => rfl
        | some inner => exact (hzero inner).symm
      | succ below =>
        have hpart : ((Decoder.mk below).part? (.list field.asList)).value = _ :=
          value_part?_multipart hm
        rw [standaloneInner?, ← value_part?_asList, hpart, Option.bind_some, ih _ _ _ hm hpart]
        cases follow? field.asList path with
        | none => rfl
        | some inner => exact (hcons below inner).symm

/-- **Under a specifier with `TEXT`** the multipart at its path is found, if there is one within
the limit. -/
theorem find?_ofText {items : List Field} (h : isMultipart items = true) {root : Part}
    (hroot : ((Decoder.mk maxDepth).part? (.list items)).value = some root) (path : List Nat) :
    root.find? (Specifier.ofText path) = (follow? items path).bind fun inner =>
      if isMultipart inner = true ∧ path.length ≤ maxDepth then placed maxDepth path inner
      else none := by
  induction path generalizing maxDepth items root with
  | nil =>
    rw [find?_step h hroot, Specifier.ofText, if_pos rfl, follow?, Option.bind_some,
      if_pos ⟨h, Nat.zero_le _⟩, placed_nil h, hroot]
  | cons number path ih =>
    rw [Specifier.ofText_cons]
    refine find?_number_point_follow h hroot number path _
      (fun depth path inner => if isMultipart inner = true ∧ path.length ≤ depth
        then placed depth path inner else none)
      (fun below field part hm hpart => ih hm hpart) (fun below inner => ?_) (fun inner => ?_)
      (fun field hm => ?_)
    · by_cases hin : isMultipart inner = true ∧ path.length ≤ below
      · rw [if_pos hin, if_pos ⟨hin.1, Nat.succ_le_succ hin.2⟩, placed_cons number (.inl hin.1)]
      · rw [if_neg hin, if_neg fun hc => hin ⟨hc.1, Nat.le_of_succ_le_succ hc.2⟩]
        rfl
    · exact if_neg fun hc => Nat.not_succ_le_zero _ hc.2
    · cases path with
      | nil => exact if_neg fun hc => Bool.false_ne_true (hm.symm.trans hc.1)
      | cons n path => rw [follow?_of_not_isMultipart hm (List.cons_ne_nil n path)]; rfl

/-- **Under a specifier without `TEXT`** the body at its path is found, if there is one within the
limit. -/
theorem find?_dotted {items : List Field} (h : isMultipart items = true) {root : Part}
    (hroot : ((Decoder.mk maxDepth).part? (.list items)).value = some root) {path : List Nat}
    (hne : path ≠ []) :
    root.find? (Specifier.dotted path) = (follow? items path).bind fun inner =>
      if isMultipart inner = false ∧ path.length - 1 ≤ maxDepth then placed maxDepth path inner
      else none := by
  induction path generalizing maxDepth items root with
  | nil => exact absurd rfl hne
  | cons number path ih =>
    by_cases hpath : path = []
    · subst hpath
      rw [Specifier.dotted_singleton, find?_number h hroot, follow?]
      cases childAt? items number with
      | none => rfl
      | some field =>
        simp only [Option.bind_some, follow?]
        cases hm : isMultipart field.asList with
        | true => rw [if_pos rfl, if_neg fun hc => Bool.false_ne_true hc.1.symm]
        | false =>
          rw [if_neg Bool.false_ne_true, if_pos ⟨rfl, Nat.zero_le _⟩]
    · rw [Specifier.dotted_cons number hpath]
      have hpos : 0 < path.length := List.length_pos_iff.2 hpath
      refine find?_number_point_follow h hroot number path _
        (fun depth path inner => if isMultipart inner = false ∧ path.length - 1 ≤ depth
          then placed depth path inner else none)
        (fun below field part hm hpart => ih hm hpart hpath) (fun below inner => ?_)
        (fun inner => ?_) (fun field hm => ?_)
      · rw [List.length_cons, Nat.add_sub_cancel]
        by_cases hin : isMultipart inner = false ∧ path.length - 1 ≤ below
        · rw [if_pos hin, if_pos ⟨hin.1, by omega⟩, placed_cons number (.inr hpath)]
        · rw [if_neg hin, if_neg fun hc => hin ⟨hc.1, by omega⟩]
          rfl
      · exact if_neg fun hc => by
          rw [List.length_cons, Nat.add_sub_cancel] at hc
          omega
      · rw [follow?_of_not_isMultipart hm hpath]
        rfl

/-- What is found is the multipart itself, a body among its parts, or found inside one of its parts
that is a multipart. -/
theorem find?_cases {items : List Field} (h : isMultipart items = true) {root : Part}
    (hroot : ((Decoder.mk maxDepth).part? (.list items)).value = some root) {specifier : String}
    {found : Part} (hf : root.find? specifier = some found) :
    specifier = "TEXT" ∨ (∃ number, specifier = Nat.repr number) ∨
      ∃ number below behind field part inner, maxDepth = below + 1 ∧
        specifier = Nat.repr number ++ "." ++ behind ∧ isMultipart field = true ∧
        ((Decoder.mk below).part? (.list field)).value = some part ∧
        part.find? behind = some inner := by
  rw [find?_step h hroot] at hf
  by_cases htext : "TEXT" = specifier
  · exact .inl htext.symm
  rw [if_neg htext] at hf
  obtain ⟨child, -, hin⟩ := List.exists_of_findSome?_eq_some hf
  cases hm : isMultipart child.1.asList with
  | false =>
    rw [findIn?_body hm] at hin
    exact .inr (.inl ⟨child.2, (Option.ite_none_right_eq_some.1 hin).1⟩)
  | true =>
    obtain ⟨behind, rfl⟩ := exists_of_findIn?_multipart hm hin
    rw [findIn?_multipart hm] at hin
    obtain ⟨inner, hbind, -⟩ := Option.map_eq_some_iff.1 hin
    obtain ⟨part, hpart, hbehind⟩ := Option.bind_eq_some_iff.1 hbind
    cases maxDepth with
    | zero => cases hpart
    | succ below =>
      rw [standaloneInner?, ← value_part?_asList] at hpart
      exact .inr (.inr ⟨child.2, below, behind, child.1.asList, part, inner, rfl, rfl, hm, hpart,
        hbehind⟩)

/-- **Only paths are found.** What is found in a decoded multipart has the specifier of a path. -/
theorem find?_shape {items : List Field} (h : isMultipart items = true) {root : Part}
    (hroot : ((Decoder.mk maxDepth).part? (.list items)).value = some root) {specifier : String}
    {found : Part} (hf : root.find? specifier = some found) :
    (∃ path, specifier = Specifier.ofText path) ∨
      ∃ path, path ≠ [] ∧ specifier = Specifier.dotted path := by
  induction maxDepth using Nat.strongRecOn generalizing items root specifier found with
  | ind maxDepth ih =>
    rcases find?_cases h hroot hf with rfl | ⟨number, rfl⟩ |
      ⟨number, below, behind, field, part, inner, rfl, rfl, hm, hpart, hbehind⟩
    · exact .inl ⟨[], rfl⟩
    · exact .inr ⟨[number], List.cons_ne_nil _ _, (Specifier.dotted_singleton number).symm⟩
    · rcases ih below (Nat.lt_succ_self below) hm hpart hbehind with ⟨path, rfl⟩ | ⟨path, hne, rfl⟩
      · exact .inl ⟨number :: path, (Specifier.ofText_cons number path).symm⟩
      · exact .inr ⟨number :: path, List.cons_ne_nil _ _, (Specifier.dotted_cons number hne).symm⟩

/-! ## The names of lists -/

/-- `Names maxDepth root specifier path items`: within the limit, the specifier of the path leads
from the list `root` to the list `items`. -/
inductive Names (maxDepth : Nat) (root : List Field) : String → List Nat → List Field → Prop
  /-- A multipart, of which `TEXT` is fetched. -/
  | text {path : List Nat} {items : List Field} (follow : follow? root path = some items)
      (multipart : isMultipart items = true) (depth : path.length ≤ maxDepth) :
      Names maxDepth root (Specifier.ofText path) path items
  /-- A body that is long enough. -/
  | body {path : List Nat} {items : List Field} (path_ne : path ≠ [])
      (follow : follow? root path = some items) (single : isMultipart items = false)
      (length : 7 ≤ items.length) (depth : path.length - 1 ≤ maxDepth) :
      Names maxDepth root (Specifier.dotted path) path items

/-- A list that has a name denotes a part. -/
theorem exists_placed {root items : List Field} {specifier : String} {path : List Nat}
    (h : Names maxDepth root specifier path items) :
    ∃ part, placed maxDepth path items = some part := by
  cases h with
  | text follow multipart depth =>
    rw [placed, multipart, if_pos rfl, value_part?_multipart multipart]
    exact ⟨_, rfl⟩
  | body path_ne follow single length depth =>
    have hne : items ≠ [] := List.ne_nil_of_length_pos (by omega)
    rw [placed, single, if_neg Bool.false_ne_true, value_part?_list hne,
      value_structure?_leaf single]
    cases hleaf : (leaf? (inside (structure? (maxDepth + 1 - path.length)
        (maxDepth + 1 - path.length) "")) ("" ++ "1") items).value with
    | none => exact absurd (value_leaf?_eq_none_iff.1 hleaf) (by omega)
    | some part => exact ⟨_, rfl⟩

/-- A specifier that names a list finds the part of that list. -/
theorem find?_of_names {items inner : List Field} (h : isMultipart items = true) {root : Part}
    (hroot : ((Decoder.mk maxDepth).part? (.list items)).value = some root) {specifier : String}
    {path : List Nat} (hn : Names maxDepth items specifier path inner) :
    root.find? specifier = placed maxDepth path inner := by
  cases hn with
  | text follow multipart depth =>
    rw [find?_ofText h hroot, follow, Option.bind_some, if_pos ⟨multipart, depth⟩]
  | body path_ne follow single length depth =>
    rw [find?_dotted h hroot path_ne, follow, Option.bind_some, if_pos ⟨single, depth⟩]

/-- Only specifiers that name a list find something. -/
theorem names_of_find? {items : List Field} (h : isMultipart items = true) {root : Part}
    (hroot : ((Decoder.mk maxDepth).part? (.list items)).value = some root) {specifier : String}
    {found : Part} (hf : root.find? specifier = some found) :
    ∃ path inner, Names maxDepth items specifier path inner := by
  rcases find?_shape h hroot hf with ⟨path, rfl⟩ | ⟨path, hne, rfl⟩
  · rw [find?_ofText h hroot] at hf
    obtain ⟨inner, hfollow, hif⟩ := Option.bind_eq_some_iff.1 hf
    obtain ⟨⟨hm, hdepth⟩, -⟩ := Option.ite_none_right_eq_some.1 hif
    exact ⟨path, inner, .text hfollow hm hdepth⟩
  · rw [find?_dotted h hroot hne] at hf
    obtain ⟨inner, hfollow, hif⟩ := Option.bind_eq_some_iff.1 hf
    obtain ⟨⟨hm, hdepth⟩, hplaced⟩ := Option.ite_none_right_eq_some.1 hif
    refine ⟨path, inner, .body hne hfollow hm (Nat.le_of_not_lt fun hshort => ?_) hdepth⟩
    rw [placed, hm, if_neg Bool.false_ne_true] at hplaced
    obtain ⟨part, hpart, -⟩ := Option.map_eq_some_iff.1 hplaced
    by_cases hnil : inner = []
    · rw [value_part?, Field.asList, if_pos hnil] at hpart
      cases hpart
    · rw [value_part?_list hnil, value_structure?_leaf hm, value_leaf?_of_length_lt hshort] at hpart
      cases hpart

/-- **Specifiers find the right part.** In a decoded multipart exactly the specifiers that name a
list of the input find a part, and it is the part of that list. In a decoded body nothing but `1`
is found. -/
theorem find?_decoded (maxDepth : Nat) (field : Field) (root : Part)
    (hroot : ((Decoder.mk maxDepth).part? field).value = some root) (specifier : String) :
    (root.kind = .multipart →
      ((root.find? specifier).isSome = true ↔
        ∃ path items, Names maxDepth field.asList specifier path items) ∧
      ∀ path items, Names maxDepth field.asList specifier path items →
        root.find? specifier = placed maxDepth path items) ∧
    (root.kind = .body → ∀ part, root.find? specifier = some part → specifier = "1") := by
  rw [← value_part?_asList] at hroot
  cases h : isMultipart field.asList with
  | true =>
    refine ⟨fun _ => ⟨⟨fun hsome => ?_, fun ⟨path, items, hn⟩ => ?_⟩,
      fun path items hn => find?_of_names h hroot hn⟩, fun hbody => ?_⟩
    · obtain ⟨found, hf⟩ := Option.isSome_iff_exists.1 hsome
      exact names_of_find? h hroot hf
    · obtain ⟨part, hpart⟩ := exists_placed hn
      rw [find?_of_names h hroot hn, hpart]
      rfl
    · rw [value_part?_multipart h, Option.some.injEq] at hroot
      subst hroot
      cases hbody
  | false =>
    obtain ⟨info, inner, rfl, hone⟩ := eq_leaf_of_value_part? h hroot
    refine ⟨fun hkind => ?_, fun _ part hf => ?_⟩
    · cases hkind
    · rw [Part.find?_leaf] at hf
      obtain ⟨hspec, -⟩ := Option.ite_none_right_eq_some.1 hf
      rw [← hspec, hone]

/-- In the forwarded message the note of the digest and the digest itself are found. In the note
alone nothing but `1` is. -/
theorem find?_decoded_forward :
    (∃ root, ((Decoder.mk 1).part? (.list forwardFields)).value = some root ∧
      root.find? "3.1" = placed 1 [3, 1] noteFields ∧
      root.find? "3.TEXT" = placed 1 [3] [.list noteFields, .atom "digest"]) ∧
    ∃ note, ((Decoder.mk 1).part? (.list noteFields)).value = some note ∧
      ∀ part, note.find? "TEXT" ≠ some part := by
  obtain ⟨root, hroot⟩ : ∃ root, ((Decoder.mk 1).part? (.list forwardFields)).value = some root :=
    ⟨_, value_part?_multipart rfl⟩
  have hkind : root.kind = .multipart := by
    rw [value_part?_multipart rfl, Option.some.injEq] at hroot
    rw [← hroot]
    rfl
  have hnote : Names 1 forwardFields "3.1" [3, 1] noteFields :=
    @Names.body 1 forwardFields [3, 1] noteFields (by decide) rfl rfl (by decide) (by decide)
  have hdigest : Names 1 forwardFields "3.TEXT" [3] [.list noteFields, .atom "digest"] :=
    @Names.text 1 forwardFields [3] _ rfl rfl (by decide)
  obtain ⟨note, hsingle⟩ : ∃ note, ((Decoder.mk 1).part? (.list noteFields)).value = some note :=
    ⟨_, rfl⟩
  have hbody : note.kind = .body := by
    obtain ⟨info, inner, rfl, -⟩ := eq_leaf_of_value_part? rfl hsingle
    rfl
  exact ⟨⟨root, hroot, ((find?_decoded 1 _ root hroot "3.1").1 hkind).2 _ _ hnote,
    ((find?_decoded 1 _ root hroot "3.TEXT").1 hkind).2 _ _ hdigest⟩, note, hsingle,
    fun part hpart => absurd ((find?_decoded 1 _ note hsingle "TEXT").2 hbody part hpart)
      (by decide)⟩

end Decoder

end MailOutline
