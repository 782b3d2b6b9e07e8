import MailOutline.Part.Decoder
import MailOutline.Part.Walk

/-!
# Attachments and the walk

The bodies of a multipart that are to be saved are collected by a recursion of its own. It meets the
same bodies as the walk, in the same order.

* `Part.isAttachment`: the parts that are collected (`Part.isAttachment_iff`).
* `Part.walkAt`: the walk, each part with its depth. Without the depths it is the walk
  (`Part.map_snd_walkAt`), and at depth one stand the parts of the multipart themselves
  (`Part.filter_walkAllAt`).
* `Part.saved_true_eq_filter`, `Part.saved_false_eq_filter`: at any depth, and among the parts
  alone.
* `Part.bare`: what is left without the attributes of multiparts and the structures inside messages.
  None of them has an influence (`Part.bareAll_saved`).
* `Part.saved_eq_filter_walk`: the attachments of a multipart against its walk.
-/

namespace MailOutline

/-- The multipart without any attribute. -/
def Multipart.blank : Multipart where
  subtype := ""
  params := none
  disposition := none
  language := none
  location := none
  specifier := ""

namespace Part

/-- Whether a part is a body that is to be saved. -/
def isAttachment (part : Part) : Bool := part.leaf?.any Leaf.isAttachment

theorem isAttachment_iff {part : Part} :
    part.isAttachment = true ↔ ∃ info embedded disposition, part = leaf info embedded ∧
      info.disposition = some disposition ∧
        Text.sameLetters disposition.kind "attachment" = true := by
  cases part with
  | leaf info embedded =>
    simp [isAttachment, leaf?, Leaf.isAttachment, Disposition.isAttachment, Option.any_eq_true]
  | multipart info parts => simp [isAttachment, leaf?]

theorem savedIn_leaf (recurse : Bool) (info : Leaf) (embedded : Option Part) :
    savedIn recurse (leaf info embedded) = [leaf info embedded].filter isAttachment := by
  rw [savedIn, List.filter_cons]
  rfl

/-! ## At any depth -/

mutual

/-- The bodies inside a part that are to be saved are those of its walk. -/
theorem savedIn_true_eq_filter : ∀ part : Part, savedIn true part = part.walk.filter isAttachment
  | leaf info embedded => by
    rw [savedIn_leaf, walk]
  | multipart info parts => by
    have hroot : (multipart info parts).isAttachment = false := rfl
    rw [savedIn, if_pos rfl, walk, List.filter_cons, if_neg (by simp [hroot])]
    exact saved_true_eq_filter parts

/-- **The bodies inside some parts that are to be saved** are those of their walks. -/
theorem saved_true_eq_filter : ∀ parts : List Part,
    saved true parts = (walkAll parts).filter isAttachment
  | [] => rfl
  | part :: rest => by
    rw [saved, walkAll, List.filter_append, savedIn_true_eq_filter part, saved_true_eq_filter rest]

end

/-! ## Among the parts alone -/

/-- **The bodies among some parts that are to be saved.** -/
theorem saved_false_eq_filter (parts : List Part) :
    saved false parts = parts.filter isAttachment := by
  induction parts with
  | nil => rfl
  | cons part rest ih =>
    rw [saved, ih]
    cases part with
    | leaf info embedded =>
      rw [savedIn_leaf, ← List.filter_append, List.singleton_append]
    | multipart info parts =>
      have hroot : (multipart info parts).isAttachment = false := rfl
      rw [savedIn, if_neg Bool.false_ne_true, List.filter_cons, if_neg (by simp [hroot])]
      rfl

mutual

/-- The walk through a part that lies at a depth, each part with its depth. -/
def walkAt (depth : Nat) : Part → List (Nat × Part)
  | leaf info embedded => [(depth, leaf info embedded)]
  | multipart info parts => (depth, multipart info parts) :: walkAllAt (depth + 1) parts

/-- The walks through some parts that lie at a depth. -/
def walkAllAt (depth : Nat) : List Part → List (Nat × Part)
  | [] => []
  | part :: rest => walkAt depth part ++ walkAllAt depth rest

end

mutual

/-- Without the depths it is the walk. -/
theorem map_snd_walkAt : ∀ (depth : Nat) (part : Part),
    (walkAt depth part).map Prod.snd = part.walk
  | depth, leaf info embedded => by
    rw [walkAt, walk]
    rfl
  | depth, multipart info parts => by
    rw [walkAt, walk, List.map_cons, map_snd_walkAllAt (depth + 1) parts]

theorem map_snd_walkAllAt : ∀ (depth : Nat) (parts : List Part),
    (walkAllAt depth parts).map Prod.snd = walkAll parts
  | depth, [] => rfl
  | depth, part :: rest => by
    rw [walkAllAt, walkAll, List.map_append, map_snd_walkAt depth part,
      map_snd_walkAllAt depth rest]

end

mutual

/-- Nothing lies above the part where the walk begins. -/
theorem le_of_mem_walkAt {entry : Nat × Part} : ∀ {depth : Nat} {part : Part},
    entry ∈ walkAt depth part → depth ≤ entry.1
  | depth, leaf info embedded, h => by
    rw [walkAt, List.mem_singleton] at h
    exact Nat.le_of_eq (congrArg Prod.fst h).symm
  | depth, multipart info parts, h => by
    rw [walkAt, List.mem_cons] at h
    rcases h with rfl | h
    · exact Nat.le_refl _
    · exact Nat.le_of_succ_le (le_of_mem_walkAllAt h)

theorem le_of_mem_walkAllAt {entry : Nat × Part} : ∀ {depth : Nat} {parts : List Part},
    entry ∈ walkAllAt depth parts → depth ≤ entry.1
  | depth, [], h => by
    rw [walkAllAt] at h
    cases h
  | depth, part :: rest, h => by
    rw [walkAllAt, List.mem_append] at h
    rcases h with h | h
    · exact le_of_mem_walkAt h
    · exact le_of_mem_walkAllAt h

end

/-- What lies deeper than a depth is not at that depth. -/
theorem filter_walkAllAt_succ (depth : Nat) (parts : List Part) :
    (walkAllAt (depth + 1) parts).filter (fun entry => entry.1 == depth) = [] := by
  refine List.filter_eq_nil_iff.2 fun entry hentry => ?_
  have hdeeper := le_of_mem_walkAllAt hentry
  rw [beq_iff_eq]
  omega

/-- **At their own depth** the walks through some parts hold these parts and nothing else. -/
theorem filter_walkAllAt (depth : Nat) (parts : List Part) :
    ((walkAllAt depth parts).filter fun entry => entry.1 == depth).map Prod.snd = parts := by
  induction parts with
  | nil => rfl
  | cons part rest ih =>
    rw [walkAllAt, List.filter_append, List.map_append, ih]
    cases part with
    | leaf info embedded => simp [walkAt]
    | multipart info parts => simp [walkAt, filter_walkAllAt_succ]

/-! ## What has no influence -/

mutual

/-- The part without the attributes of multiparts and the structures inside messages. -/
def bare : Part → Part
  | leaf info _ => leaf info none
  | multipart _ parts => multipart .blank (bareAll parts)

/-- The parts without the attributes of multiparts and the structures inside messages. -/
def bareAll : List Part → List Part
  | [] => []
  | part :: rest => bare part :: bareAll rest

end

theorem bareAll_eq_map (parts : List Part) : bareAll parts = parts.map bare := by
  induction parts with
  | nil => rfl
  | cons part rest ih => rw [bareAll, ih, List.map_cons]

theorem leaf?_bare (part : Part) : part.bare.leaf? = part.leaf? := by
  cases part <;> rfl

mutual

theorem bareAll_savedIn : ∀ (recurse : Bool) (part : Part),
    bareAll (savedIn recurse part) = savedIn recurse part.bare
  | recurse, leaf info embedded => by
    rw [bare, savedIn, savedIn]
    split <;> rfl
  | recurse, multipart info parts => by
    rw [bare, savedIn, savedIn]
    split
    · exact bareAll_saved recurse parts
    · rfl

/-- **The attributes of multiparts and the structures inside messages** decide nothing about what is
to be saved. -/
theorem bareAll_saved : ∀ (recurse : Bool) (parts : List Part),
    bareAll (saved recurse parts) = saved recurse (bareAll parts)
  | recurse, [] => rfl
  | recurse, part :: rest => by
    rw [bareAll, saved, saved, ← bareAll_savedIn recurse part, ← bareAll_saved recurse rest]
    simp only [bareAll_eq_map, List.map_append]

end

theorem filterMap_leaf?_bareAll (parts : List Part) :
    (bareAll parts).filterMap leaf? = parts.filterMap leaf? := by
  rw [bareAll_eq_map, List.filterMap_map]
  exact congrArg (parts.filterMap ·) (funext leaf?_bare)

/-! ## Attachments -/

/-- **The attachments of a multipart are those of its walk.** At any depth they are the bodies of
the walk whose disposition is an attachment, in the same order. Among the parts alone they are those
of them at depth one, where the parts of the multipart stand. The attributes of the multiparts and
the structures inside messages have no influence on them. -/
theorem saved_eq_filter_walk (info : Multipart) (parts : List Part) :
    saved true parts = (multipart info parts).walk.filter isAttachment ∧
    saved true parts =
      (((multipart info parts).walkAt 0).filter fun entry => entry.2.isAttachment).map Prod.snd ∧
    saved false parts =
      ((((multipart info parts).walkAt 0).filter fun entry => entry.2.isAttachment).filter
        fun entry => entry.1 == 1).map Prod.snd ∧
    ((multipart info parts).walkAt 0).map Prod.snd = (multipart info parts).walk ∧
    (((multipart info parts).walkAt 0).filter fun entry => entry.1 == 1).map Prod.snd = parts ∧
    (∀ part : Part, part.isAttachment = true ↔ ∃ info embedded disposition,
      part = leaf info embedded ∧ info.disposition = some disposition ∧
        Text.sameLetters disposition.kind "attachment" = true) ∧
    ∀ others : List Part, others.map bare = parts.map bare →
      attachments others = attachments parts ∧
        directAttachments others = directAttachments parts := by
  have hwalk : saved true parts = (multipart info parts).walk.filter isAttachment := by
    rw [← savedIn_true_eq_filter, savedIn, if_pos rfl]
  have hchildren : (((multipart info parts).walkAt 0).filter fun entry => entry.1 == 1).map
      Prod.snd = parts := by
    rw [walkAt, List.filter_cons_of_neg (by simp), filter_walkAllAt]
  have hfilter : ∀ entries : List (Nat × Part),
      (entries.filter fun entry => entry.2.isAttachment).map Prod.snd =
        (entries.map Prod.snd).filter isAttachment := fun entries => by
    rw [List.filter_map]
    rfl
  refine ⟨hwalk, ?_, ?_, map_snd_walkAt 0 _, hchildren, fun part => isAttachment_iff,
    fun others hothers => ?_⟩
  · rw [hfilter, map_snd_walkAt, hwalk]
  · have hswap : ∀ entries : List (Nat × Part),
        (entries.filter fun entry => entry.2.isAttachment).filter (fun entry => entry.1 == 1) =
          (entries.filter fun entry => entry.1 == 1).filter fun entry => entry.2.isAttachment :=
      fun entries => by
        rw [List.filter_filter, List.filter_filter]
        exact List.filter_congr fun entry _ => Bool.and_comm _ _
    rw [hswap, hfilter, hchildren, saved_false_eq_filter]
  · rw [← bareAll_eq_map, ← bareAll_eq_map] at hothers
    have hsame : ∀ recurse, (saved recurse others).filterMap leaf? =
        (saved recurse parts).filterMap leaf? := fun recurse => by
      rw [← filterMap_leaf?_bareAll, ← filterMap_leaf?_bareAll (saved recurse parts),
        bareAll_saved, bareAll_saved, hothers]
    exact ⟨hsame true, hsame false⟩

/-- A text that is to be saved. -/
def keptLeaf (specifier : String) : Leaf :=
  { Leaf.ofFixed specifier "TEXT" "PLAIN" .empty "" "" "7BIT" 12 with
    disposition := some ⟨"Attachment", .empty⟩ }

/-- A text that is to be saved, with a structure inside it, and a multipart around another. -/
def keptParts : List Part :=
  [leaf (keptLeaf "1") (some (leaf (keptLeaf "1") none)),
    multipart .blank [leaf (keptLeaf "2.1") none]]

/-- The same texts, where the multipart is to be saved too. -/
def flaggedParts : List Part :=
  [leaf (keptLeaf "1") none,
    multipart { Multipart.blank with disposition := some ⟨"attachment", .empty⟩ }
      [leaf (keptLeaf "2.1") none]]

theorem isAttachment_keptLeaf (specifier : String) : (keptLeaf specifier).isAttachment = true := by
  rw [Leaf.isAttachment, keptLeaf, Option.any_some, Disposition.isAttachment,
    Text.sameLetters_iff_toList]
  decide

/-- Two texts are to be saved, one of them among the parts alone. The structure inside the first and
the disposition of the multipart do not count. -/
theorem saved_eq_filter_walk_kept :
    flaggedParts.map bare = keptParts.map bare ∧
      attachments flaggedParts = [keptLeaf "1", keptLeaf "2.1"] ∧
      directAttachments flaggedParts = [keptLeaf "1"] := by
  obtain ⟨hall, hdirect⟩ :=
    (saved_eq_filter_walk .blank keptParts).2.2.2.2.2.2 flaggedParts rfl
  refine ⟨rfl, hall.trans ?_, hdirect.trans ?_⟩
  · simp [attachments, keptParts, saved, savedIn, isAttachment_keptLeaf, leaf?]
  · simp [directAttachments, keptParts, saved, savedIn, isAttachment_keptLeaf, leaf?]

end Part

end MailOutline
