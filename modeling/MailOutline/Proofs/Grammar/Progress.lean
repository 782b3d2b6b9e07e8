import MailOutline.Proofs.Grammar.Calls
import MailOutline.Proofs.Grammar.Nesting

/-!
# The reader makes progress

A value takes at least one byte, so the loop over the elements of a list ends, and no value is read
inside more lists than the limit allows, so the nested calls end too. Here values and lists are read
with both numbers bounded, and the bounds are never met.

* `itemsWithin`: the loop over the elements of a list, for so many rounds. One for each byte that is
  left is enough (`itemsWithin_eq`, by induction on the rounds).
* `listWithin`, `valueWithin`: a list and a value, with so many calls inside one another, and with
  the number of the open lists. As many calls are enough as there are levels left, and one more
  (`valueWithin_eq`, by induction on the calls).
* `exists_later_of_value`: a value that is read ends further on in the text.
* `progress`: both bounds, in front of any place of a text.
-/

namespace MailOutline.Field

open Reading (toStep)

variable {input rest : List UInt8} {limit : Nat}

/-! ## Bounded loops and calls -/

/-- The elements of a list, read up to its closing parenthesis by means of `one`. Nothing is
answered if this takes more rounds. -/
def itemsWithin (one : List UInt8 → Option (Step Field)) :
    (rounds : Nat) → (input : List UInt8) → Option (Step (List Field))
  | 0, _ => none
  | rounds + 1, input =>
    match skipSpace input with
    | [] => some (fail .endInList [])
    | byte :: rest =>
      if byte = 0x29 then some (.ok ([], rest)) -- closing parenthesis
      else do
        match ← one (byte :: rest) with
        | .error failure => return .error failure
        | .ok (first, left) =>
          let more ← itemsWithin one rounds left
          return more.map fun (fields, left) => (first :: fields, left)

/-- The list in front of the text, as the `depth`-th of the lists around it, with a round for each
byte of the text. Above the limit it is refused, and `one` is not asked. -/
def listWithin (one : List UInt8 → Option (Step Field)) (limit depth : Nat)
    (input : List UInt8) : Option (Step Field) :=
  if limit < depth then some (.error ⟨.tooDeep limit, input⟩)
  else do
    let fields ← itemsWithin one input.length input.tail
    return fields.map fun (fields, left) => (.list fields, left)

/-- The value in front of the text, inside `depth` lists. Nothing is answered if more than `calls`
values have to be read inside one another. -/
def valueWithin (limit : Nat) : (calls depth : Nat) → (input : List UInt8) → Option (Step Field)
  | 0, _, _ => none
  | calls + 1, depth, input =>
    match input with
    | [] => some (fail .endOfInput [])
    | byte :: rest =>
      if byte = 0x28 then -- opening parenthesis
        listWithin (valueWithin limit calls (depth + 1)) limit (depth + 1) (byte :: rest)
      else some (toStep (value limit 0 (byte :: rest)))

/-- The field that a text denotes, with at most `calls` values inside one another. -/
def wholeWithin (limit calls : Nat) (input : List UInt8) : Option (Except Failure Field) := do
  match ← valueWithin limit calls 0 (skipSpace input) with
  | .error failure => return .error failure
  | .ok (field, rest) =>
    match skipSpace rest with
    | [] => return .ok field
    | byte :: rest => return fail .trailingData (byte :: rest)

/-! ## The bounds are never met -/

variable {one : (input : List UInt8) → Except Failure (Reading Field input)}
  {bounded : List UInt8 → Option (Step Field)}

/-- **A round for each byte is enough**, and one in which the end of the list is found. -/
theorem itemsWithin_eq (h : ∀ input, bounded input = some (toStep (one input))) {rounds : Nat}
    (hrounds : input.length < rounds) :
    itemsWithin bounded rounds input = some (toStep (items one input)) := by
  induction rounds generalizing input with
  | zero => exact absurd hrounds (Nat.not_lt_zero _)
  | succ rounds ih =>
    rw [itemsWithin, toStep_items]
    cases hskip : skipSpace input with
    | nil => rfl
    | cons byte rest =>
      simp only
      by_cases hclose : byte = 0x29
      · rw [if_pos hclose, if_pos hclose]
      rw [if_neg hclose, if_neg hclose, h]
      cases hread : toStep (one (byte :: rest)) with
      | error failure => rfl
      | ok found =>
        obtain ⟨first, left⟩ := found
        have hshorter : left.length < input.length := length_lt_of_first hskip hread
        have hmore := ih (Nat.lt_of_lt_of_le hshorter (Nat.le_of_lt_succ hrounds))
        simp only [Option.bind_eq_bind, Option.bind_some, hmore]
        cases toStep (items one left) <;> rfl

/-- A list that the limit allows is read as its elements are. -/
theorem listWithin_eq (h : ∀ input, bounded input = some (toStep (one input))) {depth : Nat}
    (hdepth : depth ≤ limit) (rest : List UInt8) :
    listWithin bounded limit depth (0x28 :: rest) =
      some ((toStep (items one rest)).map fun (fields, left) => (.list fields, left)) := by
  have hitems := itemsWithin_eq h (Nat.lt_succ_self rest.length)
  rw [listWithin, if_neg (Nat.not_lt.2 hdepth), List.tail_cons, List.length_cons, hitems]
  rfl

/-- **One call for each level that is left is enough**, and one more. -/
theorem valueWithin_eq {calls depth : Nat} (h : limit - depth < calls) (input : List UInt8) :
    valueWithin limit calls depth input = some (toStep (value limit (limit - depth) input)) := by
  induction calls generalizing depth input with
  | zero => exact absurd h (Nat.not_lt_zero _)
  | succ calls ih =>
    cases input with
    | nil => rw [valueWithin, toStep_value_nil]
    | cons byte rest =>
      rw [valueWithin]
      by_cases hopen : byte = 0x28
      · subst hopen
        rw [if_pos rfl]
        by_cases hdeep : limit < depth + 1
        · rw [listWithin, if_pos hdeep, Nat.sub_eq_zero_of_le (Nat.le_of_lt_succ hdeep)]
          rfl
        · obtain ⟨below, hbelow⟩ : ∃ below, limit - depth = below + 1 :=
            ⟨limit - depth - 1, by omega⟩
          have hinner : limit - (depth + 1) = below := by omega
          rw [listWithin_eq (ih (by omega)) (Nat.le_of_not_lt hdeep), hinner, hbelow,
            toStep_value_list]
      · rw [if_neg hopen, toStep_value_congr hopen limit 0 limit (limit - depth)]

theorem wholeWithin_eq (limit : Nat) (input : List UInt8) :
    wholeWithin limit (limit + 1) input = some (whole limit input) := by
  rw [wholeWithin, valueWithin_eq (Nat.lt_succ_of_le (Nat.sub_le _ _)), whole_eq, Nat.sub_zero]
  simp only [Option.bind_eq_bind, Option.bind_some]
  cases toStep (value limit limit (skipSpace input)) with
  | error failure => rfl
  | ok found =>
    simp only
    cases skipSpace found.2 <;> rfl

/-! ## Places -/

/-- **A value that is read ends further on** in the text. -/
theorem exists_later_of_value {levels position : Nat} {field : Field}
    (h : toStep (value limit levels (input.drop position)) = .ok (field, rest)) :
    ∃ later, position < later ∧ later ≤ input.length ∧ rest = input.drop later := by
  have hshorter := Reading.length_lt_of_toStep h
  have hsuffix := left_value_isSuffix limit levels (input.drop position)
  rw [h] at hsuffix
  have hrest : rest <:+ input := hsuffix.trans (List.drop_suffix position input)
  have hlength := hrest.length_le
  rw [List.length_drop] at hshorter
  exact ⟨input.length - rest.length, by omega, Nat.sub_le _ _, List.suffix_iff_eq_drop.1 hrest⟩

/-- **The reader makes progress.** In front of any place of a text, inside any number of lists:

* `limit - depth + 1` calls inside one another are enough for a value. One that is read ends further
  on in the text.
* As many rounds as there are bytes left, from its opening parenthesis, are enough for the elements
  of a list.
* A list above the limit is refused, and no value is read in it.

So `limit + 1` calls inside one another are enough for a field, whatever the text. -/
theorem progress (limit : Nat) (input : List UInt8) :
    (∀ position depth calls, limit - depth < calls →
      valueWithin limit calls depth (input.drop position) =
          some (toStep (value limit (limit - depth) (input.drop position))) ∧
        ∀ field rest,
          valueWithin limit calls depth (input.drop position) = some (.ok (field, rest)) →
            ∃ later, position < later ∧ later ≤ input.length ∧ rest = input.drop later) ∧
    (∀ position depth calls, position < input.length → limit - depth < calls →
      itemsWithin (valueWithin limit calls depth) (input.length - position)
          (input.drop (position + 1)) =
        some (toStep (items (value limit (limit - depth)) (input.drop (position + 1))))) ∧
    (∀ one position depth, limit < depth →
      listWithin one limit depth (input.drop position) =
        some (.error ⟨.tooDeep limit, input.drop position⟩)) ∧
    ∀ position, wholeWithin limit (limit + 1) (input.drop position) =
      some (whole limit (input.drop position)) := by
  refine ⟨fun position depth calls hcalls => ?_, fun position depth calls hposition hcalls => ?_,
    fun one position depth hdepth => if_pos hdepth, fun position => wholeWithin_eq limit _⟩
  · have hvalue := valueWithin_eq hcalls (input.drop position)
    refine ⟨hvalue, fun field rest h => ?_⟩
    exact exists_later_of_value (Option.some.inj (hvalue.symm.trans h))
  · refine itemsWithin_eq (valueWithin_eq hcalls) ?_
    rw [List.length_drop]
    omega

/-- The text `(()(`, in which two lists are not closed. -/
def unclosedText : List UInt8 := [0x28, 0x28, 0x29, 0x28]

/-- Three calls inside one another are enough for two levels: the end of the text is found in the
last list. The empty list ends further on, and inside two others it would be refused. -/
theorem progress_unclosed :
    (valueWithin 2 2 1 (unclosedText.drop 1) = some (.ok (.list [], [0x28])) ∧
      ∃ later, 1 < later ∧ later ≤ unclosedText.length ∧ [0x28] = unclosedText.drop later) ∧
    itemsWithin (valueWithin 2 2 1) 4 (unclosedText.drop 1) =
      some (toStep (items (value 2 1) (unclosedText.drop 1))) ∧
    listWithin (fun _ => none) 2 3 (unclosedText.drop 3) = some (.error ⟨.tooDeep 2, [0x28]⟩) ∧
    wholeWithin 2 3 unclosedText = some (fail .endInList []) ∧
    whole 2 unclosedText = fail .endInList [] := by
  obtain ⟨hvalue, hitems, hlist, hwhole⟩ := progress 2 unclosedText
  have hempty : valueWithin 2 2 1 (unclosedText.drop 1) = some (.ok (.list [], [0x28])) := rfl
  have hunclosed : wholeWithin 2 3 unclosedText = some (fail .endInList []) := rfl
  exact ⟨⟨hempty, (hvalue 1 1 2 (by decide)).2 _ _ hempty⟩, hitems 0 1 2 (by decide) (by decide),
    hlist _ 3 3 (by decide), hunclosed, Option.some.inj ((hwhole 0).symm.trans hunclosed)⟩

end MailOutline.Field
