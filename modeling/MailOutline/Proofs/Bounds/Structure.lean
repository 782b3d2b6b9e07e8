import MailOutline.Part.Decoder
import MailOutline.Proofs.Bounds.Attributes

/-!
# Body structures are decoded without a stop

The three decoders of a structure call each other with a depth that grows by one inside a multipart
and inside a message. Here they are written down with that sum, with the places of the parts and
with the indexes of a body's elements.

A field that has `n` values is nested less than `n` deep, and no list in it has `n` elements. So a
field whose values can be counted by a word keeps every depth and every place in a word.

Model of `structure`, `within_limit`, `multipart` and `body_part`, operation by operation.

* `Field.count`: the number of values of a field.
* `bodyWith`, `multipartWith`, `structureWith`: one decoder each, given those it calls
  (`bodyWith_eq`, `multipartWith_eq`, `structureWith_eq`).
* `bodyStructure_eq`: the three together, by induction on the rounds, answer and report what
  `Decoder.part?` does.
-/

namespace MailOutline

namespace Field

mutual

/-- The number of values of a field, itself included. -/
def count : Field → Nat
  | .list items => 1 + countAll items
  | _ => 1

/-- The number of values in some fields. -/
def countAll : List Field → Nat
  | [] => 0
  | field :: rest => field.count + countAll rest

end

theorem count_pos (field : Field) : 0 < field.count := by
  cases field <;> simp only [count] <;> omega

theorem countAll_append (front back : List Field) :
    countAll (front ++ back) = countAll front + countAll back := by
  induction front with
  | nil => simp only [List.nil_append, countAll, Nat.zero_add]
  | cons field front ih => rw [List.cons_append, countAll, countAll, ih, Nat.add_assoc]

theorem length_le_countAll (items : List Field) : items.length ≤ countAll items := by
  induction items with
  | nil => exact Nat.zero_le _
  | cons field rest ih =>
    have := field.count_pos
    rw [List.length_cons, countAll]
    omega

theorem count_le_countAll {field : Field} {items : List Field} (h : field ∈ items) :
    field.count ≤ countAll items := by
  obtain ⟨front, back, rfl⟩ := List.append_of_mem h
  rw [countAll_append, countAll]
  omega

/-- The elements of a field are fewer values than the field. -/
theorem countAll_asList_lt (field : Field) : countAll field.asList < field.count := by
  cases field <;> simp only [asList, count, countAll] <;> omega

end Field

namespace Checked

/-! ## Bodies -/

/-- The body whose extension data starts at the element `next` of a list. -/
def bodyEnd (items : List Field) (leaf : Leaf) (inner : Option Part) (next : Nat) :
    Guarded (Option Part) := do
  let tail ← (slice? items next items.length).getM
  let leaf ← extensionData leafTable tail leaf
  return some (.leaf leaf inner)

/-- The body with what its type has behind the seventh element. The structure of an embedded message
is read with `embedded`. -/
def bodyTail (embedded : Field → (depth : Nat) → Guarded (Option Part)) (items : List Field)
    (leaf : Leaf) (depth : Nat) : Guarded (Option Part) := do
  if leaf.isText ∧ 8 ≤ items.length then do
    let lines := (← items[7]?.getM).asNumber
    bodyEnd items { leaf with lineCount := lines } none 8
  else if leaf.isMessage ∧ 10 ≤ items.length then do
    let envelope ← envelope (← items[7]?.getM)
    let inner ← embedded (← items[8]?.getM) (← (add? depth 1).getM)
    let lines := (← items[9]?.getM).asNumber
    bodyEnd items { leaf with envelope, lineCount := lines } inner 10
  else bodyEnd items leaf none 7

/-- The body that a list denotes, which has to have seven elements at least. -/
def bodyWith (embedded : Field → (depth : Nat) → Guarded (Option Part)) (items : List Field)
    (specifier : String) (depth : Nat) : Guarded (Option Part) := do
  if items.length < 7 then do
    Traced.report (.shortBody items.length specifier)
    return none
  else do
    let mediaType := (← items[0]?.getM).asText
    let subtype := (← items[1]?.getM).asText
    let params ← attributePairs (← items[2]?.getM).asList
    let id := (← items[3]?.getM).asText
    let description := (← items[4]?.getM).asText
    let encoding := (← items[5]?.getM).asText
    let size := (← items[6]?.getM).asNumber
    let leaf := Leaf.ofFixed specifier mediaType subtype params id description encoding size
    bodyTail embedded items leaf depth

theorem bodyEnd_eq {items front tail : List Field} (h : items = front ++ tail) (leaf : Leaf)
    (inner : Option Part) :
    bodyEnd items leaf inner front.length = liftM (do
      let leaf ← Extension.readAll Leaf.extensions tail leaf
      return some (.leaf leaf inner) : Traced (Option Part)) := by
  have htail : slice? items front.length items.length = some tail := by
    rw [h, slice?_to_end (by simp), List.drop_left]
  rw [bodyEnd, htail, leafTable_eq]
  simp only [Option.getM_some, pure_bind, extensionData_eq, liftM_bind, liftM_pure]

section

variable {embedded : Field → Nat → Guarded (Option Part)} {total : Field → Traced (Option Part)}
  {items : List Field} {depth : Nat}

/-- **A text** has its number of lines behind the seventh element. -/
theorem bodyTail_text {front tail : List Field} {lines : Field} {leaf : Leaf}
    (hitems : items = front ++ lines :: tail) (hfront : front.length = 7)
    (htext : leaf.isText = true) :
    bodyTail embedded items leaf depth =
      liftM (some <$> Decoder.leafTail total leaf (lines :: tail)) := by
  have hsplit : items = (front ++ [lines]) ++ tail := by simpa using hitems
  have hend := bodyEnd_eq hsplit
  have hlen : 8 ≤ items.length := by
    rw [hitems, List.length_append, hfront, List.length_cons]
    omega
  have hlines : items[7]? = some lines := by
    rw [hitems, ← hfront, List.getElem?_append_right (Nat.le_refl _), Nat.sub_self]
    rfl
  rw [List.length_append, hfront] at hend
  unfold bodyTail Decoder.leafTail
  rw [if_pos ⟨htext, hlen⟩, hlines]
  simp only [htext, Option.getM_some, pure_bind, map_bind, map_pure]
  exact hend _ none

/-- **A message** has its envelope, its structure and its number of lines there. -/
theorem bodyTail_message {front tail : List Field} {envelope inner lines : Field} {leaf : Leaf}
    (hitems : items = front ++ envelope :: inner :: lines :: tail) (hfront : front.length = 7)
    (htext : leaf.isText = false) (hmessage : leaf.isMessage = true)
    (hdepth : depth + 1 < UInt64.size)
    (hembedded : embedded inner (depth + 1) = liftM (total inner)) :
    bodyTail embedded items leaf depth =
      liftM (some <$> Decoder.leafTail total leaf (envelope :: inner :: lines :: tail)) := by
  have hsplit : items = (front ++ [envelope, inner, lines]) ++ tail := by simpa using hitems
  have hend := bodyEnd_eq hsplit
  have hlen : 10 ≤ items.length := by
    rw [hitems, List.length_append, hfront]
    simp only [List.length_cons]
    omega
  have helement : ∀ place, items[7 + place]? = (envelope :: inner :: lines :: tail)[place]? := by
    intro place
    rw [hitems, List.getElem?_append_right (by omega), hfront, Nat.add_sub_cancel_left]
  rw [List.length_append, hfront] at hend
  unfold bodyTail Decoder.leafTail
  rw [if_neg fun h => Bool.false_ne_true (htext.symm.trans h.1), if_pos ⟨hmessage, hlen⟩,
    show items[7]? = some envelope from helement 0, show items[8]? = some inner from helement 1,
    show items[9]? = some lines from helement 2, add?_of_lt hdepth]
  simp only [htext, hmessage, Option.getM_some, pure_bind, envelope_eq, hembedded, map_bind,
    map_pure, liftM_bind] at hend ⊢
  refine bind_congr fun envelope => bind_congr fun inner => ?_
  exact hend _ inner

/-- **Any other body** has nothing but extension data there. -/
theorem bodyTail_plain {front tail : List Field} {leaf : Leaf} (hitems : items = front ++ tail)
    (hfront : front.length = 7) (htext : ¬(leaf.isText = true ∧ tail ≠ []))
    (hmessage : ¬(leaf.isMessage = true ∧ 3 ≤ tail.length)) :
    bodyTail embedded items leaf depth = liftM (some <$> Decoder.leafTail total leaf tail) := by
  have hend := bodyEnd_eq hitems leaf none
  have hlen : items.length = 7 + tail.length := by rw [hitems, List.length_append, hfront]
  have hnoText : ¬(leaf.isText = true ∧ 8 ≤ items.length) := fun h =>
    htext ⟨h.1, List.ne_nil_of_length_pos (by omega)⟩
  have hnoMessage : ¬(leaf.isMessage = true ∧ 10 ≤ items.length) := fun h =>
    hmessage ⟨h.1, by omega⟩
  rw [hfront] at hend
  rw [bodyTail, if_neg hnoText, if_neg hnoMessage, hend]
  unfold Decoder.leafTail
  split
  next hcase => exact absurd ⟨hcase, List.cons_ne_nil _ _⟩ htext
  next hcase => exact absurd ⟨hcase, by simp⟩ hmessage
  next => rw [map_bind]; simp only [map_pure]

/-- Behind the seventh element of a body. -/
theorem bodyTail_eq {front tail : List Field} (hitems : items = front ++ tail)
    (hfront : front.length = 7) (leaf : Leaf) (hdepth : depth + 1 < UInt64.size)
    (hembedded : ∀ field ∈ items, embedded field (depth + 1) = liftM (total field)) :
    bodyTail embedded items leaf depth = liftM (some <$> Decoder.leafTail total leaf tail) := by
  by_cases htext : leaf.isText = true ∧ tail ≠ []
  · obtain ⟨lines, rest, rfl⟩ := List.exists_cons_of_ne_nil htext.2
    exact bodyTail_text hitems hfront htext.1
  by_cases hmessage : leaf.isMessage = true ∧ 3 ≤ tail.length
  · obtain ⟨hmessage, hmany⟩ := hmessage
    match tail, hmany with
    | envelope :: inner :: lines :: rest, _ =>
      have hnoText : leaf.isText = false :=
        Bool.eq_false_iff.2 fun h => htext ⟨h, List.cons_ne_nil _ _⟩
      exact bodyTail_message hitems hfront hnoText hmessage hdepth
        (hembedded inner (by rw [hitems]; simp))
  · exact bodyTail_plain hitems hfront htext hmessage

/-- **A body** answers and reports what the total decoder does. -/
theorem bodyWith_eq (specifier : String) (hdepth : depth + items.length < UInt64.size)
    (hembedded : ∀ field ∈ items, embedded field (depth + 1) = liftM (total field)) :
    bodyWith embedded items specifier depth = liftM (Decoder.leaf? total specifier items) := by
  unfold bodyWith Decoder.leaf?
  split
  next hshort =>
    split
    next => simp only [List.length_cons] at hshort; omega
    next => simp only [liftM_bind, liftM_pure]
  next hlong =>
    split
    next mediaType subtype params id description encoding size tail =>
      have hsum : depth + 1 < UInt64.size := by
        simp only [List.length_cons] at hdepth
        omega
      have hsplit :
          mediaType :: subtype :: params :: id :: description :: encoding :: size :: tail =
            [mediaType, subtype, params, id, description, encoding, size] ++ tail := rfl
      have htail := fun leaf => bodyTail_eq hsplit rfl leaf hsum hembedded
      simp only [List.getElem?_cons_zero, List.getElem?_cons_succ, Option.getM_some, pure_bind,
        attributePairs_eq, liftM_bind]
      exact bind_congr fun params => htail _
    next hno =>
      match items, hlong with
      | mediaType :: subtype :: params :: id :: description :: encoding :: size :: tail, _ =>
        exact absurd rfl (hno _ _ _ _ _ _ _ _)
      | [], h | [_], h | [_, _], h | [_, _, _], h | [_, _, _, _], h | [_, _, _, _, _], h
      | [_, _, _, _, _, _], h => exact absurd (by simp) h

end

/-! ## Multiparts -/

/-- Whether a depth is within the limit. One that is not is reported. -/
def withinLimit (maxDepth depth : Nat) : Guarded Bool := do
  if maxDepth < depth then do
    Traced.report (.tooDeep depth maxDepth)
    return false
  else return true

/-- The parts that some lists denote, of which the first stands at `place`. Each is numbered by the
place behind it. -/
def childParts (one : List Field → String → Guarded (Option Part)) (stem : String) :
    (place : Nat) → List Field → Guarded (List Part)
  | _, [] => return []
  | place, child :: rest => do
    let number ← (add? place 1).getM
    let specifier := stem ++ Nat.repr number
    match ← one child.asList specifier with
    | some part => do
      let others ← childParts one stem number rest
      return part :: others
    | none => do
      Traced.report (.droppedPart specifier)
      childParts one stem number rest

/-- The part that a list inside a multipart denotes. One that is a multipart is read with `nested`,
a level deeper, any other with `body`. -/
def childPart (nested body : List Field → String → (depth : Nat) → Guarded (Option Part))
    (depth : Nat) (child : List Field) (specifier : String) : Guarded (Option Part) := do
  if Decoder.isMultipart child then nested child (specifier ++ ".") (← (add? depth 1).getM)
  else body child specifier depth

/-- The multipart that a list denotes. The lists in front of it are its parts. -/
def multipartWith (nested body : List Field → String → (depth : Nat) → Guarded (Option Part))
    (maxDepth : Nat) (items : List Field) (stem : String) (depth : Nat) :
    Guarded (Option Part) := do
  if ← withinLimit maxDepth depth then do
    let stop := (items.findIdx? fun field => !field.isList).getD items.length
    let halves ← (splitAt? items stop).getM
    let parts ← childParts (childPart nested body depth) stem 0 halves.1
    let info ← extensionData multipartTable halves.2.tail
      { subtype := (halves.2.head?.map Field.asText).getD ""
        params := none
        disposition := none
        language := none
        location := none
        specifier := stem ++ "TEXT" }
    return some (.multipart info parts)
  else return none

/-- **The place behind the leading lists** is a place of the list. -/
theorem splitAt?_children (items : List Field) :
    splitAt? items ((items.findIdx? fun field => !field.isList).getD items.length) =
      some (items.takeWhile Field.isList, items.dropWhile Field.isList) := by
  have hstop : (items.findIdx? fun field => !field.isList).getD items.length =
      (items.takeWhile Field.isList).length := by
    induction items with
    | nil => rfl
    | cons field rest ih =>
      rw [List.findIdx?_cons]
      by_cases hlist : field.isList = true
      · rw [List.takeWhile_cons_of_pos hlist, List.length_cons, List.length_cons, ← ih, hlist]
        cases rest.findIdx? fun field => !field.isList <;> rfl
      · rw [List.takeWhile_cons_of_neg hlist, Bool.eq_false_iff.2 hlist]
        rfl
  have hparts := splitAt?_append (items.takeWhile Field.isList) (items.dropWhile Field.isList)
  rw [List.takeWhile_append_dropWhile] at hparts
  rw [hstop, hparts]

/-- **The parts of a multipart** are no more than its elements, so that their numbers are words. -/
theorem childParts_eq {one : List Field → String → Guarded (Option Part)}
    {total : String → List Field → Traced (Option Part)} (stem : String) {place : Nat}
    {children : List Field} (hplace : place + children.length < UInt64.size)
    (hone : ∀ child ∈ children, ∀ specifier,
      one child.asList specifier = liftM (total specifier child.asList)) :
    childParts one stem place children =
      liftM (Decoder.parts total stem (place + 1) children) := by
  induction children generalizing place with
  | nil => rfl
  | cons child rest ih =>
    obtain ⟨hfirst, hrest⟩ := List.forall_mem_cons.1 hone
    rw [List.length_cons] at hplace
    rw [childParts, Decoder.parts, add?_of_lt (by omega), liftM_bind]
    have hothers : childParts one stem (place + 1) rest =
        liftM (Decoder.parts total stem (place + 1 + 1) rest) := ih (by omega) hrest
    simp only [Option.getM_some, pure_bind, hfirst]
    refine bind_congr fun found => ?_
    cases found with
    | some part => simp only [hothers, liftM_bind, liftM_pure]
    | none => simp only [hothers, liftM_bind]

section

variable {nested body : List Field → String → Nat → Guarded (Option Part)} {maxDepth depth : Nat}
  {items : List Field}

theorem withinLimit_of_le (h : depth ≤ maxDepth) : withinLimit maxDepth depth = pure true :=
  if_neg (Nat.not_lt.2 h)

/-- Behind the limit nothing is read. -/
theorem multipartWith_tooDeep (stem : String) (h : maxDepth < depth) :
    multipartWith nested body maxDepth items stem depth =
      liftM (Decoder.structureAt? maxDepth 0 depth stem items) := by
  rw [multipartWith, withinLimit, if_pos h, Decoder.structureAt?]
  simp only [bind_assoc, pure_bind, liftM_bind, liftM_pure]
  rfl

/-- **A multipart** within the limit answers and reports what the total decoder does. -/
theorem multipartWith_eq {levels : Nat} (stem : String) (hlimit : depth ≤ maxDepth)
    (hmultipart : Decoder.isMultipart items = true)
    (hdepth : depth + items.length < UInt64.size)
    (hnested : ∀ child ∈ items, Decoder.isMultipart child.asList = true → ∀ stem,
      nested child.asList stem (depth + 1) =
        liftM (Decoder.structureAt? maxDepth levels (depth + 1) stem child.asList))
    (hbody : ∀ child ∈ items, ∀ specifier, body child.asList specifier depth =
      liftM (Decoder.leaf? (Decoder.inside (Decoder.structureAt? maxDepth levels (depth + 1) ""))
        specifier child.asList)) :
    multipartWith nested body maxDepth items stem depth =
      liftM (Decoder.structureAt? maxDepth (levels + 1) depth stem items) := by
  have hchildren : (items.takeWhile Field.isList).length ≤ items.length :=
    (List.takeWhile_sublist Field.isList).length_le
  have hone : ∀ child ∈ items.takeWhile Field.isList, ∀ specifier,
      childPart nested body depth child.asList specifier =
        liftM (Decoder.childWith? (Decoder.structureAt? maxDepth levels (depth + 1)) specifier
          child.asList) := by
    intro child hchild specifier
    have hmem : child ∈ items := (List.takeWhile_sublist Field.isList).subset hchild
    have hpos := List.length_pos_of_mem hmem
    rw [childPart, Decoder.childWith?, add?_of_lt (by omega), Option.getM_some]
    simp only [pure_bind]
    by_cases h : Decoder.isMultipart child.asList = true
    · rw [if_pos h, if_pos h, hnested child hmem h]
    · rw [if_neg h, if_neg h, hbody child hmem]
  have hparts := childParts_eq stem (show 0 + _ < UInt64.size by omega) hone
  rw [multipartWith, withinLimit_of_le hlimit, multipartTable_eq, Decoder.structureAt?]
  simp only [pure_bind, if_true, splitAt?_children, Option.getM_some, hparts, extensionData_eq,
    hmultipart, Decoder.multipart, map_bind, map_pure, liftM_bind, liftM_pure]

end

/-! ## Structures -/

/-- The structure inside a field, which has to be a list that is not empty. -/
def structureWith (nested body : List Field → String → (depth : Nat) → Guarded (Option Part))
    (maxDepth : Nat) (field : Field) (depth : Nat) : Guarded (Option Part) := do
  let items := field.asList
  match items.head? with
  | none => do
    Traced.report (@Event.notAStructure field)
    return none
  | some first =>
    if first.isList then nested items "" depth
    else if ← withinLimit maxDepth depth then body items "1" depth
    else return none

mutual

/-- The structure inside a field at some depth. -/
def structure? (maxDepth : Nat) : (rounds : Nat) → Field → (depth : Nat) → Guarded (Option Part)
  | 0, _, _ => failure
  | rounds + 1, field, depth =>
    structureWith (multipart? maxDepth rounds) (body? maxDepth rounds) maxDepth field depth

/-- The multipart that a list at some depth denotes. -/
def multipart? (maxDepth : Nat) :
    (rounds : Nat) → List Field → String → (depth : Nat) → Guarded (Option Part)
  | 0, _, _, _ => failure
  | rounds + 1, items, stem, depth =>
    multipartWith (multipart? maxDepth rounds) (body? maxDepth rounds) maxDepth items stem depth

/-- The body that a list at some depth denotes. -/
def body? (maxDepth : Nat) :
    (rounds : Nat) → List Field → String → (depth : Nat) → Guarded (Option Part)
  | 0, _, _, _ => failure
  | rounds + 1, items, specifier, depth =>
    bodyWith (structure? maxDepth rounds) items specifier depth

end

/-- The structure of a field. From one list to the next inside it, three decoders are called. -/
def bodyStructure (maxDepth : Nat) (field : Field) : Guarded (Option Part) :=
  structure? maxDepth (3 * (maxDepth + 2)) field 0

/-- `rounds` rounds are enough for structures, and do what the total decoder does. -/
def StructuresDone (maxDepth rounds : Nat) : Prop :=
  ∀ {field : Field} {depth levels : Nat}, depth + levels = maxDepth + 1 →
    depth + Field.countAll field.asList < UInt64.size → 3 * levels + 3 ≤ rounds →
      structure? maxDepth rounds field depth =
        liftM (Decoder.inside (Decoder.structureAt? maxDepth levels depth "") field)

/-- `rounds` rounds are enough for multiparts, and do what the total decoder does. -/
def MultipartsDone (maxDepth rounds : Nat) : Prop :=
  ∀ {items : List Field} {depth levels : Nat} (stem : String),
    Decoder.isMultipart items = true → depth + levels = maxDepth + 1 →
      depth + Field.countAll items < UInt64.size → 3 * levels + 2 ≤ rounds →
        multipart? maxDepth rounds items stem depth =
          liftM (Decoder.structureAt? maxDepth levels depth stem items)

/-- `rounds` rounds are enough for bodies, and do what the total decoder does. -/
def BodiesDone (maxDepth rounds : Nat) : Prop :=
  ∀ {items : List Field} {depth levels : Nat} (specifier : String), depth + levels = maxDepth →
    depth + Field.countAll items < UInt64.size → 3 * levels + 4 ≤ rounds →
      body? maxDepth rounds items specifier depth =
        liftM (Decoder.leaf? (Decoder.inside (Decoder.structureAt? maxDepth levels (depth + 1) ""))
          specifier items)

section

variable {maxDepth rounds : Nat}

theorem StructuresDone.succ (hmultiparts : MultipartsDone maxDepth rounds)
    (hbodies : BodiesDone maxDepth rounds) : StructuresDone maxDepth (rounds + 1) := by
  intro field depth levels hlevels hcount hrounds
  rw [structure?, structureWith, Decoder.inside]
  cases hitems : field.asList with
  | nil => simp only [List.head?_nil, liftM_bind, liftM_pure]
  | cons first rest =>
    rw [hitems] at hcount
    simp only [List.head?_cons]
    by_cases hlist : first.isList = true
    · rw [if_pos hlist]
      exact hmultiparts "" hlist hlevels hcount (by omega)
    · have hsingle : ¬Decoder.isMultipart (first :: rest) = true := hlist
      rw [if_neg hlist]
      cases levels with
      | zero =>
        rw [withinLimit, if_pos (by omega), Decoder.structureAt?]
        simp only [bind_assoc, pure_bind, liftM_bind, liftM_pure]
        rfl
      | succ levels =>
        rw [withinLimit_of_le (by omega), Decoder.structureAt?]
        simp only [pure_bind, if_true, if_neg hsingle]
        exact hbodies "1" (by omega) hcount (by omega)

theorem MultipartsDone.succ (hmultiparts : MultipartsDone maxDepth rounds)
    (hbodies : BodiesDone maxDepth rounds) : MultipartsDone maxDepth (rounds + 1) := by
  intro items depth levels stem hmultipart hlevels hcount hrounds
  rw [multipart?]
  cases levels with
  | zero => exact multipartWith_tooDeep stem (by omega)
  | succ levels =>
    have hlen := Field.length_le_countAll items
    refine multipartWith_eq stem (by omega) hmultipart (by omega) ?_ ?_
    · intro child hchild hnested stem
      have hle := Field.count_le_countAll hchild
      have hlt := child.countAll_asList_lt
      exact hmultiparts stem hnested (by omega) (by omega) (by omega)
    · intro child hchild specifier
      have hle := Field.count_le_countAll hchild
      have hlt := child.countAll_asList_lt
      exact hbodies specifier (by omega) (by omega) (by omega)

theorem BodiesDone.succ (hstructures : StructuresDone maxDepth rounds) :
    BodiesDone maxDepth (rounds + 1) := by
  intro items depth levels specifier hlevels hcount hrounds
  have hlen := Field.length_le_countAll items
  rw [body?]
  refine bodyWith_eq specifier (by omega) fun field hfield => ?_
  have hle := Field.count_le_countAll hfield
  have hlt := field.countAll_asList_lt
  exact hstructures (by omega) (by omega) (by omega)

/-- **Structures, multiparts and bodies never stop the decoder**, with as many rounds as there are
levels left. -/
theorem decodersDone (maxDepth rounds : Nat) :
    StructuresDone maxDepth rounds ∧ MultipartsDone maxDepth rounds ∧
      BodiesDone maxDepth rounds := by
  induction rounds with
  | zero =>
    exact ⟨fun _ _ h => absurd h (by omega), fun _ _ _ _ h => absurd h (by omega),
      fun _ _ _ h => absurd h (by omega)⟩
  | succ rounds ih =>
    obtain ⟨hstructures, hmultiparts, hbodies⟩ := ih
    exact ⟨StructuresDone.succ hmultiparts hbodies, MultipartsDone.succ hmultiparts hbodies,
      BodiesDone.succ hstructures⟩

end

/-- **No field stops the decoder**, whatever the limit, and each is decoded and reported as the
total decoder does. -/
theorem bodyStructure_eq (maxDepth : Nat) {field : Field} (h : field.count < UInt64.size) :
    bodyStructure maxDepth field = liftM (Decoder.part? ⟨maxDepth⟩ field) := by
  have hlt := field.countAll_asList_lt
  have hroot : 0 + (maxDepth + 1) = maxDepth + 1 := Nat.zero_add _
  have hdone := (decodersDone maxDepth (3 * (maxDepth + 2))).1 hroot
    (show 0 + Field.countAll field.asList < _ by omega) (by omega)
  rw [bodyStructure, hdone, Decoder.part?, Decoder.structure?]
  simp only [Nat.sub_self]

end Checked

end MailOutline
