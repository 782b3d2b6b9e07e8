import MailOutline.Proofs.Lookup

/-!
# The specifiers of a walk

The walk through a decoded part meets every specifier once, in the order of the document.

* `Specifier.path?`: a specifier read as a path of numbers. A number in front of a specifier is one
  in front of its path (`Specifier.path?_point`).
* `Part.Walks`: the specifiers of a walk are read as paths that grow. This is kept when a number is
  put in front of them (`Part.Walks.relocate`).
* `Decoder.exists_walks`: what a decoder gives has such a walk, by induction on its levels.
* `Decoder.walk_numbered`: so the specifiers are all different, and grow in the order of the walk.
-/

namespace MailOutline

namespace Specifier

/-! ## Specifiers read as paths -/

/-- The number that decimal digits denote. -/
def number? (digits : List Char) : Option Nat :=
  if digits ≠ [] ∧ digits.all Char.isDigit then some (Nat.ofDigitChars 10 digits 0) else none

/-- The path that a specifier is read as: the numbers between its points. `TEXT` at its end stands
for the multipart at the path in front of it. -/
def path? (specifier : String) : Option (List Nat) :=
  let names := specifier.toList.splitOn '.'
  (if names.getLast? = some "TEXT".toList then names.dropLast else names).mapM number?

theorem isDigit_of_mem_toDigits {n : Nat} {c : Char} (h : c ∈ Nat.toDigits 10 n) :
    c.isDigit = true :=
  Nat.isDigit_of_mem_toDigits (by decide) (by decide) h

theorem number?_toDigits (n : Nat) : number? (Nat.toDigits 10 n) = some n := by
  have hdigits : (Nat.toDigits 10 n).all Char.isDigit = true :=
    List.all_eq_true.2 fun _ hc => isDigit_of_mem_toDigits hc
  rw [number?, if_pos ⟨Nat.toDigits_ne_nil, hdigits⟩, Nat.ofDigitChars_ten_toDigits]

theorem point_not_mem_toDigits (n : Nat) : '.' ∉ Nat.toDigits 10 n := fun hmem =>
  absurd (isDigit_of_mem_toDigits hmem) (by decide)

theorem toDigits_ne_text (n : Nat) : Nat.toDigits 10 n ≠ "TEXT".toList := by
  intro h
  have hmem : 'T' ∈ Nat.toDigits 10 n := by
    rw [h]
    decide
  exact absurd (isDigit_of_mem_toDigits hmem) (by decide)

theorem path?_text : path? "TEXT" = some [] := rfl

theorem path?_repr (n : Nat) : path? (Nat.repr n) = some [n] := by
  have htext : ¬ [Nat.toDigits 10 n].getLast? = some "TEXT".toList := by
    rw [List.getLast?_singleton, Option.some.injEq]
    exact toDigits_ne_text n
  unfold path?
  simp only [Nat.toList_repr, List.splitOn_eq_singleton (point_not_mem_toDigits n), if_neg htext,
    List.mapM_cons, number?_toDigits, List.mapM_nil]
  rfl

/-- **A number in front of a specifier** is one in front of its path. -/
theorem path?_point (n : Nat) (specifier : String) :
    path? (Nat.repr n ++ "." ++ specifier) = (path? specifier).map (n :: ·) := by
  have hnames : (Nat.repr n ++ "." ++ specifier).toList.splitOn '.' =
      Nat.toDigits 10 n :: specifier.toList.splitOn '.' := by
    have hlist : (Nat.repr n ++ "." ++ specifier).toList =
        Nat.toDigits 10 n ++ '.' :: specifier.toList := by
      rw [String.toList_append, String.toList_append, Nat.toList_repr, List.append_assoc]
      rfl
    rw [hlist, List.splitOn_append_cons_self_of_not_mem (point_not_mem_toDigits n)]
  unfold path?
  simp only [hnames]
  generalize hrest : specifier.toList.splitOn '.' = names
  have hne : names ≠ [] := hrest ▸ List.splitOn_ne_nil '.' specifier.toList
  obtain ⟨first, more, rfl⟩ := List.exists_cons_of_ne_nil hne
  rw [List.getLast?_cons_cons, List.dropLast_cons_of_ne_nil hne]
  split
  · rw [List.mapM_cons, number?_toDigits]
    cases ((first :: more).dropLast).mapM number? <;> rfl
  · rw [List.mapM_cons, number?_toDigits]
    cases (first :: more).mapM number? <;> rfl

/-- What stands in front of a specifier inside a multipart is the path of the multipart. -/
theorem path?_stem (path : List Nat) (specifier : String) :
    path? (stem path ++ specifier) = (path? specifier).map (path ++ ·) := by
  induction path with
  | nil =>
    rw [stem, String.empty_append]
    exact Option.map_id'.symm
  | cons n path ih =>
    rw [stem_cons, String.append_assoc, path?_point, ih, Option.map_map]
    rfl

theorem path?_stem_text (path : List Nat) : path? (stem path ++ "TEXT") = some path := by
  rw [path?_stem, path?_text, Option.map_some, List.append_nil]

theorem path?_stem_repr (path : List Nat) (n : Nat) :
    path? (stem path ++ Nat.repr n) = some (path ++ [n]) := by
  rw [path?_stem, path?_repr, Option.map_some]

end Specifier

namespace Part

/-! ## Walks in the order of the document -/

/-- `Walks parts paths`: the specifiers of the parts are read as the paths, and these grow. Paths
are compared from the front, and one comes in front of those that it begins. -/
structure Walks (parts : List Part) (paths : List (List Nat)) : Prop where
  read : parts.map (fun part => Specifier.path? part.specifier) = paths.map some
  grow : paths.Pairwise (· < ·)

namespace Walks

variable {parts others : List Part} {paths more : List (List Nat)}

theorem nil : Walks [] [] := ⟨rfl, .nil⟩

theorem cons {part : Part} {path : List Nat} (h : Specifier.path? part.specifier = some path)
    (hlt : ∀ later ∈ paths, path < later) (hrest : Walks parts paths) :
    Walks (part :: parts) (path :: paths) where
  read := by rw [List.map_cons, List.map_cons, h, hrest.read]
  grow := .cons hlt hrest.grow

theorem append (h : Walks parts paths) (hmore : Walks others more)
    (hlt : ∀ path ∈ paths, ∀ later ∈ more, path < later) :
    Walks (parts ++ others) (paths ++ more) where
  read := by rw [List.map_append, List.map_append, h.read, hmore.read]
  grow := List.pairwise_append.2 ⟨h.grow, hmore.grow, hlt⟩

/-- A number in front of all specifiers keeps their order. -/
theorem relocate (h : Walks parts paths) (number : Nat) :
    Walks (parts.map (Part.relocate (Nat.repr number ++ "."))) (paths.map (number :: ·)) where
  read := by
    have hread := congrArg (List.map (Option.map (number :: ·))) h.read
    rw [List.map_map, List.map_map] at hread
    rw [List.map_map, List.map_map]
    simpa [Function.comp_def, Specifier.path?_point] using hread
  grow := List.pairwise_map.2 (h.grow.imp fun hlt => List.cons_lt_cons_iff.2 (.inr ⟨rfl, hlt⟩))

/-- Paths that grow are told apart, and so are the specifiers that are read as them. -/
theorem nodup (h : Walks parts paths) : (parts.map Part.specifier).Nodup := by
  have hpaths : (paths.map some).Nodup :=
    List.pairwise_map.2 (h.grow.imp fun hlt heq => by
      rw [Option.some.injEq] at heq
      exact List.lt_irrefl _ (heq ▸ hlt))
  rw [← h.read] at hpaths
  exact List.pairwise_map.2 ((List.pairwise_map.1 hpaths).imp fun hne heq => hne (by rw [heq]))

end Walks

/-! ## Finding each part of a walk -/

/-- Where no specifier occurs twice, each place is the first with its specifier. -/
theorem position?_of_nodup {root part : Part} (h : (root.walk.map specifier).Nodup) {i : Nat}
    (hi : root.walk[i]? = some part) : root.position? part.specifier = some i := by
  obtain ⟨hlt, rfl⟩ := List.getElem?_eq_some_iff.1 hi
  refine List.findIdx?_eq_some_iff_getElem.2 ⟨hlt, beq_self_eq_true _, fun j hj heq => ?_⟩
  rw [beq_iff_eq] at heq
  have hdistinct := List.pairwise_iff_getElem.1 (List.pairwise_map.1 h)
  exact hdistinct j i (Nat.lt_trans hj hlt) hlt hj heq

end Part

namespace Decoder

open MailOutline.Part (Walks)

variable {maxDepth : Nat}

/-! ## Walks through decoded parts -/

/-- What a list among those of a multipart denotes has specifiers that begin with its number. The
multiparts among the lists have one level less. -/
theorem exists_walks_standalone
    (ih : ∀ below items root, maxDepth = below + 1 → isMultipart items = true →
      ((Decoder.mk below).part? (.list items)).value = some root →
      ∃ paths, Walks root.walk paths)
    {number : Nat} {field : Field} {part : Part}
    (h : standalone? maxDepth number field = some part) :
    ∃ paths : List (List Nat), Walks part.walk (paths.map (number :: ·)) := by
  unfold standalone? at h
  cases hm : isMultipart field.asList with
  | true =>
    rw [hm, if_pos rfl] at h
    cases maxDepth with
    | zero => cases h
    | succ below =>
      obtain ⟨alone, halone, rfl⟩ := Option.map_eq_some_iff.1 h
      obtain ⟨paths, hwalks⟩ := ih below field.asList alone rfl hm
        ((value_part?_asList field).trans halone)
      rw [Part.walk_relocate]
      exact ⟨paths, hwalks.relocate number⟩
  | false =>
    rw [hm, if_neg Bool.false_ne_true] at h
    obtain ⟨alone, halone, rfl⟩ := Option.map_eq_some_iff.1 h
    obtain ⟨info, embedded, rfl, -⟩ :=
      eq_leaf_of_value_part? hm ((value_part?_asList field).trans halone)
    exact ⟨[[]], Walks.nil.cons (Specifier.path?_repr number) (by simp)⟩

/-- The parts that the lists of a multipart denote have specifiers in the order of their numbers,
each with its number in front. -/
theorem exists_walks_children
    (hone : ∀ number field part, standalone? maxDepth number field = some part →
      ∃ paths : List (List Nat), Walks part.walk (paths.map (number :: ·)))
    (children : List Field) (first : Nat) :
    ∃ paths, Walks (Part.walkAll ((children.zipIdx first).filterMap fun child =>
      standalone? maxDepth child.2 child.1)) paths ∧
      ∀ path ∈ paths, ∃ number behind, path = number :: behind ∧ first ≤ number := by
  induction children generalizing first with
  | nil => exact ⟨[], .nil, fun path hpath => absurd hpath List.not_mem_nil⟩
  | cons child rest ih =>
    obtain ⟨paths, hwalks, hpaths⟩ := ih (first + 1)
    rw [List.zipIdx_cons, List.filterMap_cons]
    cases hpart : standalone? maxDepth first child with
    | none =>
      refine ⟨paths, hwalks, fun path hpath => ?_⟩
      obtain ⟨number, behind, rfl, hle⟩ := hpaths path hpath
      exact ⟨number, behind, rfl, Nat.le_of_succ_le hle⟩
    | some part =>
      obtain ⟨inside, hinside⟩ := hone first child part hpart
      refine ⟨inside.map (first :: ·) ++ paths,
        hinside.append hwalks fun path hpath later hlater => ?_, fun path hpath => ?_⟩
      · obtain ⟨behind, -, rfl⟩ := List.mem_map.1 hpath
        obtain ⟨number, other, rfl, hlt⟩ := hpaths later hlater
        exact List.cons_lt_cons_iff.2 (.inl hlt)
      · rcases List.mem_append.1 hpath with hpath | hpath
        · obtain ⟨behind, -, rfl⟩ := List.mem_map.1 hpath
          exact ⟨first, behind, rfl, Nat.le_refl first⟩
        · obtain ⟨number, behind, rfl, hle⟩ := hpaths path hpath
          exact ⟨number, behind, rfl, Nat.le_of_succ_le hle⟩

/-- The step of the induction on the limit: the parts of a multipart, then the multipart. -/
theorem exists_walks_multipart
    (hone : ∀ number field part, standalone? maxDepth number field = some part →
      ∃ paths : List (List Nat), Walks part.walk (paths.map (number :: ·)))
    {items : List Field} (hm : isMultipart items = true) {root : Part}
    (hroot : ((Decoder.mk maxDepth).part? (.list items)).value = some root) :
    ∃ paths, Walks root.walk paths := by
  rw [value_part?_multipart hm, Option.some.injEq] at hroot
  subst hroot
  obtain ⟨paths, hwalks, hpaths⟩ := exists_walks_children hone (items.takeWhile Field.isList) 1
  refine ⟨[] :: paths, hwalks.cons Specifier.path?_text fun later hlater => ?_⟩
  obtain ⟨number, behind, rfl, -⟩ := hpaths later hlater
  exact List.nil_lt_cons number behind

/-- **The specifiers of a decoded multipart** are read as paths that grow along its walk. -/
theorem exists_walks {items : List Field} (hm : isMultipart items = true) {root : Part}
    (hroot : ((Decoder.mk maxDepth).part? (.list items)).value = some root) :
    ∃ paths, Walks root.walk paths := by
  induction maxDepth generalizing items root with
  | zero =>
    refine exists_walks_multipart (fun number field part hpart => ?_) hm hroot
    exact exists_walks_standalone (fun below items root hbelow => by cases hbelow) hpart
  | succ depth ih =>
    refine exists_walks_multipart (fun number field part hpart => ?_) hm hroot
    refine exists_walks_standalone (fun below items root hbelow hmulti hvalue => ?_) hpart
    cases hbelow
    exact ih hmulti hvalue

/-- **Each part of a walk has a specifier of its own.** Read as paths the specifiers grow along the
walk, so none occurs twice, and each part of the walk is found under its specifier. -/
theorem walk_numbered (maxDepth : Nat) (field : Field) (root : Part)
    (hroot : ((Decoder.mk maxDepth).part? field).value = some root) :
    (root.walk.map Part.specifier).Nodup ∧
      (∃ paths : List (List Nat),
        root.walk.map (fun part => Specifier.path? part.specifier) = paths.map some ∧
          paths.Pairwise (· < ·)) ∧
      ∀ i part, root.walk[i]? = some part →
        root.position? part.specifier = some i ∧ root.find? part.specifier = some part := by
  obtain ⟨paths, hwalks⟩ : ∃ paths, Walks root.walk paths := by
    rw [← value_part?_asList] at hroot
    cases hm : isMultipart field.asList with
    | true => exact exists_walks hm hroot
    | false =>
      obtain ⟨info, embedded, rfl, hone⟩ := eq_leaf_of_value_part? hm hroot
      have hpath : Specifier.path? (Part.leaf info embedded).specifier = some [1] := by
        rw [Part.specifier, hone]
        rfl
      exact ⟨[[1]], Walks.nil.cons hpath (by simp)⟩
  refine ⟨hwalks.nodup, ⟨paths, hwalks.read, hwalks.grow⟩, fun i part hi => ?_⟩
  have hposition := Part.position?_of_nodup hwalks.nodup hi
  rw [Part.find?_eq_position?_bind, hposition]
  exact ⟨rfl, hi⟩

/-- A list that denotes nothing, a note, and a digest of one note. -/
def gapFields : List Field :=
  [.list [], .list noteFields, .list [.list noteFields, .atom "digest"], .atom "mixed"]

/-- The note has a specifier under any number. -/
theorem standalone?_note (maxDepth number : Nat) :
    ∃ info embedded, standalone? maxDepth number (.list noteFields) = some (.leaf info embedded) ∧
      info.specifier = Nat.repr number := by
  rw [← value_child?_standalone, child?, if_neg (by decide)]
  cases hpart : (leaf? (inside (structure? maxDepth maxDepth "")) (Nat.repr number)
      noteFields).value with
  | none => exact absurd (value_leaf?_eq_none_iff.1 hpart) (by decide)
  | some part =>
    obtain ⟨info, embedded, rfl, hspecifier⟩ := eq_leaf_of_value_leaf? hpart
    exact ⟨info, embedded, hpart, hspecifier⟩

/-- The list that denotes nothing keeps its number, and the other specifiers are found. -/
theorem walk_numbered_gap :
    ∃ root, ((Decoder.mk 1).part? (.list gapFields)).value = some root ∧
      root.walk.map Part.specifier = ["TEXT", "2", "3.TEXT", "3.1"] ∧
      (root.walk.map Part.specifier).Nodup ∧
      ∀ (i : Nat) (part : Part), root.walk[i]? = some part →
        root.find? part.specifier = some part := by
  obtain ⟨note, embedded, hnote, hsecond⟩ := standalone?_note 1 2
  obtain ⟨inner, held, hinner, hfirst⟩ := standalone?_note 0 1
  have hdigest : standalone? 1 3 (.list [.list noteFields, .atom "digest"]) =
      some ((Part.multipart (Multipart.ofBehind "TEXT" [.atom "digest"])
        [.leaf inner held]).relocate "3.") := by
    have halone : ((Decoder.mk 0).part? (.list [.list noteFields, .atom "digest"])).value =
        some (.multipart (Multipart.ofBehind "TEXT" [.atom "digest"])
          ([(.list noteFields, 1)].filterMap fun child => standalone? 0 child.2 child.1)) :=
      value_part?_multipart rfl
    simp only [List.filterMap_cons, List.filterMap_nil, hinner] at halone
    exact congrArg (Option.map (Part.relocate "3.")) halone
  have hroot : ((Decoder.mk 1).part? (.list gapFields)).value =
      some (.multipart (Multipart.ofBehind "TEXT" [.atom "mixed"])
        ([(.list [], 1), (.list noteFields, 2),
          (.list [.list noteFields, .atom "digest"], 3)].filterMap fun child =>
            standalone? 1 child.2 child.1)) :=
    value_part?_multipart rfl
  have hempty : standalone? 1 1 (.list []) = none := rfl
  simp only [List.filterMap_cons, List.filterMap_nil, hempty, hnote, hdigest] at hroot
  refine ⟨_, hroot, ?_, (walk_numbered 1 (.list gapFields) _ hroot).1, fun i part hi =>
    ((walk_numbered 1 (.list gapFields) _ hroot).2.2 i part hi).2⟩
  change ["TEXT", note.specifier, "3.TEXT", "3." ++ inner.specifier] = _
  rw [hsecond, hfirst]
  rfl

end Decoder

end MailOutline
