import MailOutline.Proofs.Relocation

/-!
# The limit only prunes

A decoder with a smaller limit gives the same part, without what lies too deep. Multiparts inside
multiparts and the structures inside messages lie one level deeper than what holds them, and a body
lies as deep as its multipart.

* `Part.prune`: the part without what lies deeper than some level (`Part.prune_leaf`,
  `Part.prune_multipart`). Nothing of it nests deeper (`Part.nesting_prune_le`).
* `Decoder.value_leaf?_prune`, `Decoder.value_child?_prune`: one step of decoding under two limits.
* `Decoder.value_structure?_prune`: all of decoding, by induction on the levels of the smaller
  limit.
* `Decoder.part?_prune`: the limit prunes, it does not decide whether there is a part, and no
  decoded part nests beyond it.
-/

namespace MailOutline

namespace Part

/-! ## Pruning -/

mutual

/-- The part without what lies more than `depth` levels below it. -/
def prune : (depth : Nat) → Part → Part
  | _, leaf info none => leaf info none
  | 0, leaf info (some _) => leaf info none
  | depth + 1, leaf info (some inner) => leaf info (some (prune depth inner))
  | depth, multipart info parts => multipart info (pruneAll depth parts)

/-- The parts of a multipart without what lies more than `depth` levels below the multipart. -/
def pruneAll : (depth : Nat) → List Part → List Part
  | _, [] => []
  | depth, leaf info embedded :: rest => prune depth (leaf info embedded) :: pruneAll depth rest
  | 0, multipart _ _ :: rest => pruneAll 0 rest
  | depth + 1, multipart info parts :: rest =>
    prune depth (multipart info parts) :: pruneAll (depth + 1) rest

end

/-- What is left of a part that lies one level deeper. -/
def pruneBelow? : (depth : Nat) → Part → Option Part
  | 0, _ => none
  | depth + 1, part => some (part.prune depth)

/-- What is left of a part of a multipart. Only multiparts lie deeper than the multipart. -/
def pruneChild? (depth : Nat) : Part → Option Part
  | leaf info embedded => some ((leaf info embedded).prune depth)
  | multipart info parts => pruneBelow? depth (multipart info parts)

theorem prune_leaf (depth : Nat) (info : Leaf) (embedded : Option Part) :
    (leaf info embedded).prune depth = leaf info (embedded.bind (pruneBelow? depth)) := by
  cases embedded with
  | none => cases depth <;> simp only [prune, Option.bind_none]
  | some inner => cases depth <;> simp only [prune, Option.bind_some, pruneBelow?]

theorem pruneAll_eq_filterMap (depth : Nat) (parts : List Part) :
    pruneAll depth parts = parts.filterMap (pruneChild? depth) := by
  induction parts with
  | nil => simp only [pruneAll, List.filterMap_nil]
  | cons part rest ih =>
    rw [List.filterMap_cons, ← ih]
    cases part with
    | leaf info embedded => simp only [pruneAll, pruneChild?]
    | multipart info parts => cases depth <;> simp only [pruneAll, pruneChild?, pruneBelow?]

theorem prune_multipart (depth : Nat) (info : Multipart) (parts : List Part) :
    (multipart info parts).prune depth =
      multipart info (parts.filterMap (pruneChild? depth)) := by
  rw [← pruneAll_eq_filterMap]
  cases depth <;> simp only [prune]

/-! ## Nesting -/

mutual

/-- How many levels a part holds below itself. -/
def nesting : Part → Nat
  | leaf _ none => 0
  | leaf _ (some inner) => inner.nesting + 1
  | multipart _ parts => nestingAll parts

/-- How many levels the parts of a multipart hold below the multipart. -/
def nestingAll : List Part → Nat
  | [] => 0
  | leaf info embedded :: rest => max (leaf info embedded).nesting (nestingAll rest)
  | multipart info parts :: rest => max ((multipart info parts).nesting + 1) (nestingAll rest)

end

mutual

/-- **Pruning bounds the nesting.** -/
theorem nesting_prune_le : ∀ (depth : Nat) (part : Part), (part.prune depth).nesting ≤ depth
  | depth, leaf info none => by
    rw [prune_leaf, Option.bind_none, nesting]
    exact Nat.zero_le depth
  | 0, leaf info (some inner) => by
    have hleaf : ((leaf info (some inner)).prune 0).nesting = 0 := by
      rw [prune_leaf, Option.bind_some, pruneBelow?, nesting]
    exact Nat.le_of_eq hleaf
  | depth + 1, leaf info (some inner) => by
    rw [prune_leaf, Option.bind_some, pruneBelow?, nesting]
    exact Nat.succ_le_succ (nesting_prune_le depth inner)
  | depth, multipart info parts => by
    rw [prune_multipart, ← pruneAll_eq_filterMap, nesting]
    exact nestingAll_pruneAll_le depth parts

theorem nestingAll_pruneAll_le :
    ∀ (depth : Nat) (parts : List Part), nestingAll (pruneAll depth parts) ≤ depth
  | depth, [] => by
    rw [pruneAll, nestingAll]
    exact Nat.zero_le depth
  | depth, leaf info embedded :: rest => by
    rw [pruneAll, prune_leaf, nestingAll, ← prune_leaf]
    exact Nat.max_le.2 ⟨nesting_prune_le depth _, nestingAll_pruneAll_le depth rest⟩
  | 0, multipart info parts :: rest => by
    rw [pruneAll]
    exact nestingAll_pruneAll_le 0 rest
  | depth + 1, multipart info parts :: rest => by
    rw [pruneAll, prune_multipart, nestingAll, ← prune_multipart]
    exact Nat.max_le.2 ⟨Nat.succ_le_succ (nesting_prune_le depth _),
      nestingAll_pruneAll_le (depth + 1) rest⟩

end

end Part

namespace Decoder

variable {near far : Field → Traced (Option Part)} {maxDepth shallow deep : Nat}

/-! ## One step under two limits -/

/-- What stands behind the seventh element of a body, if the structures inside messages are
pruned. -/
theorem value_leafTail_prune
    (h : ∀ field, (near field).value = (far field).value.bind (Part.pruneBelow? shallow))
    (leaf : Leaf) (tail : List Field) :
    (leafTail near leaf tail).value = (leafTail far leaf tail).value.prune shallow := by
  unfold leafTail
  split
  · simp only [Traced.value_bind, Traced.value_pure, Part.prune_leaf, Option.bind_none]
  · simp only [Traced.value_bind, Traced.value_pure, Part.prune_leaf, h]
  · simp only [Traced.value_bind, Traced.value_pure, Part.prune_leaf, Option.bind_none]

/-- A body, if the structures inside messages are pruned. -/
theorem value_leaf?_prune
    (h : ∀ field, (near field).value = (far field).value.bind (Part.pruneBelow? shallow))
    (specifier : String) (items : List Field) :
    (leaf? near specifier items).value =
      (leaf? far specifier items).value.map (Part.prune shallow) := by
  unfold leaf?
  split
  · simp only [Traced.value_bind, Traced.value_map, value_leafTail_prune h, Option.map_some]
  · rfl

/-- The structure inside a field, if what lies one level deeper is pruned. -/
theorem value_inside_prune
    (h : ∀ stem items, (structure? maxDepth shallow stem items).value =
      (structure? maxDepth deep stem items).value.bind (Part.pruneBelow? shallow))
    (field : Field) :
    (inside (structure? maxDepth shallow "") field).value =
      (inside (structure? maxDepth deep "") field).value.bind (Part.pruneBelow? shallow) := by
  rw [value_inside, value_inside, h]
  split <;> rfl

/-- A part of a multipart, if what lies one level deeper is pruned. -/
theorem value_child?_prune
    (h : ∀ stem items, (structure? maxDepth shallow stem items).value =
      (structure? maxDepth deep stem items).value.bind (Part.pruneBelow? shallow))
    (specifier : String) (child : List Field) :
    (child? maxDepth shallow specifier child).value =
      (child? maxDepth deep specifier child).value.bind (Part.pruneChild? shallow) := by
  unfold child?
  cases hm : isMultipart child with
  | true =>
    rw [if_pos rfl, if_pos rfl, h]
    cases deep with
    | zero => rfl
    | succ deep =>
      rw [value_structure?_multipart hm]
      rfl
  | false =>
    rw [if_neg Bool.false_ne_true, if_neg Bool.false_ne_true,
      value_leaf?_prune (value_inside_prune h)]
    cases hpart : (leaf? (inside (structure? maxDepth deep "")) specifier child).value with
    | none => rfl
    | some part =>
      obtain ⟨info, embedded, rfl, -⟩ := eq_leaf_of_value_leaf? hpart
      rfl

/-- **Fewer levels prune**, at any place in a structure. -/
theorem value_structure?_prune (h : shallow ≤ deep) (stem : String) (items : List Field) :
    (structure? maxDepth shallow stem items).value =
      (structure? maxDepth deep stem items).value.bind (Part.pruneBelow? shallow) := by
  induction shallow generalizing deep stem items with
  | zero =>
    rw [structure?]
    cases (structure? maxDepth deep stem items).value <;> rfl
  | succ shallow ih =>
    obtain ⟨deep, rfl⟩ : ∃ below, deep = below + 1 := ⟨deep - 1, by omega⟩
    have hbelow : ∀ stem items, (structure? maxDepth shallow stem items).value =
        (structure? maxDepth deep stem items).value.bind (Part.pruneBelow? shallow) :=
      fun stem items => ih (Nat.le_of_succ_le_succ h) stem items
    cases hm : isMultipart items with
    | true =>
      rw [value_structure?_multipart hm, value_structure?_multipart hm, Option.bind_some,
        Part.pruneBelow?, Part.prune_multipart, List.filterMap_filterMap]
      simp only [value_child?_prune hbelow]
    | false =>
      rw [value_structure?_leaf hm, value_structure?_leaf hm,
        value_leaf?_prune (value_inside_prune hbelow)]
      cases (leaf? (inside (structure? maxDepth deep "")) (stem ++ "1") items).value <;> rfl

/-! ## The limit -/

theorem value_part?_prune (h : shallow ≤ deep) (field : Field) :
    ((Decoder.mk shallow).part? field).value =
      ((Decoder.mk deep).part? field).value.map (Part.prune shallow) := by
  rw [value_part?, value_part?]
  split
  · rfl
  · rw [value_structure?_limit deep, value_structure?_prune (Nat.succ_le_succ h)]
    cases (structure? deep (deep + 1) "" field.asList).value <;> rfl

/-- **The limit only prunes.** With a smaller limit a field decodes to the same part, without the
multiparts and the structures of messages that lie one level deeper than the limit. So the limit
does not decide whether there is a part, and no decoded part nests beyond the limit. -/
theorem part?_prune (field : Field) {shallow deep : Nat} (h : shallow ≤ deep) :
    ((Decoder.mk shallow).part? field).value =
        ((Decoder.mk deep).part? field).value.map (Part.prune shallow) ∧
      ((Decoder.mk shallow).part? field).value.isSome =
        ((Decoder.mk deep).part? field).value.isSome ∧
      ∀ part, ((Decoder.mk shallow).part? field).value = some part → part.nesting ≤ shallow := by
  have hprune := value_part?_prune h field
  refine ⟨hprune, by rw [hprune, Option.isSome_map], fun part hpart => ?_⟩
  rw [hprune] at hpart
  obtain ⟨whole, -, rfl⟩ := Option.map_eq_some_iff.1 hpart
  exact Part.nesting_prune_le shallow whole

/-- A message that holds the forwarded message. -/
def bundleFields : List Field :=
  [.atom "MESSAGE", .atom "rfc822", .nil, .nil, .nil, .atom "7bit", .number 90, .nil,
    .list forwardFields, .number 9]

/-- With the limit one, what the forwarded message in the bundle holds is pruned, and with the limit
zero the message alone loses the note inside it. -/
theorem part?_prune_bundle :
    (∃ info mixed parts,
      ((Decoder.mk 2).part? (.list bundleFields)).value =
        some (.leaf info (some (.multipart mixed parts))) ∧
      ((Decoder.mk 1).part? (.list bundleFields)).value =
        some (.leaf info (some (.multipart mixed (parts.filterMap (Part.pruneChild? 0)))))) ∧
    ∃ info note,
      ((Decoder.mk 1).part? (.list messageFields)).value = some (.leaf info (some note)) ∧
      ((Decoder.mk 0).part? (.list messageFields)).value = some (.leaf info none) := by
  have htype : Text.sameLetters "MESSAGE" "message" = true :=
    Text.sameLetters_iff_toList.2 (by decide)
  have hcase : Text.sameLetters "RFC822" "rfc822" = true :=
    Text.sameLetters_iff_toList.2 (by decide)
  constructor
  · obtain ⟨info, hwhole⟩ := @value_part?_message 2 bundleFields
      (by decide) htype (Text.sameLetters_refl _)
    have hforward : standaloneInner? 2 (.list forwardFields) = _ :=
      @value_part?_multipart 1 forwardFields rfl
    have hprune := (part?_prune (.list bundleFields) (by decide : 1 ≤ 2)).1
    have hinner : bundleFields[8] = .list forwardFields := rfl
    rw [hinner, hforward] at hwhole
    rw [hwhole, Option.map_some, Part.prune_leaf, Option.bind_some, Part.pruneBelow?,
      Part.prune_multipart] at hprune
    exact ⟨info, _, _, hwhole, hprune⟩
  · obtain ⟨info, hwhole⟩ := @value_part?_message 1 messageFields
      (by decide) (Text.sameLetters_refl _) hcase
    obtain ⟨note, hnote⟩ : ∃ note, standaloneInner? 1 (.list noteFields) = some note := ⟨_, rfl⟩
    have hprune := (part?_prune (.list messageFields) (by decide : 0 ≤ 1)).1
    have hinner : messageFields[8] = .list noteFields := rfl
    rw [hinner, hnote] at hwhole
    rw [hwhole, Option.map_some, Part.prune_leaf, Option.bind_some, Part.pruneBelow?] at hprune
    exact ⟨info, note, hwhole, hprune⟩

end Decoder

end MailOutline
