import MailOutline.Proofs.Grammar.Refusal

/-!
# How deep lists may nest

The limit of a reader decides one thing only: whether the text is refused at the first parenthesis
that opens a list too many. Up to there a reader with a larger limit does the same.

* `Extends`: a way to read that goes on where another one meets its limit, and agrees with it
  everywhere else.
* `extends_items`, `extends_value`: with more levels, the elements of a list and a value are read
  so. By induction on the length of the text, and on the levels.
* `Unclosed`: the text in front of a place inside so many lists that are open there.
* `whole_eq_tooDeep_iff`: the limit is met exactly at an opening parenthesis inside as many lists as
  it allows.
* `ofBytes_limit`: a text under two limits.
-/

namespace MailOutline.Field

open Reading (toStep)

variable {input rest behind front : List UInt8} {limit levels lists : Nat}
  {one other : (input : List UInt8) → Except Failure (Reading Field input)}

/-! ## More levels -/

/-- Where `one` does not meet its limit, `other` answers the same. -/
def Extends (one other : (input : List UInt8) → Except Failure (Reading Field input)) : Prop :=
  ∀ input, toStep (other input) = toStep (one input) ∨
    ∃ limit rest, toStep (one input) = .error ⟨.tooDeep limit, rest⟩

theorem extends_items (h : Extends one other) (input : List UInt8) :
    toStep (items other input) = toStep (items one input) ∨
      ∃ limit rest, toStep (items one input) = .error ⟨.tooDeep limit, rest⟩ := by
  induction hlen : input.length using Nat.strongRecOn generalizing input with
  | ind n ih =>
    rw [toStep_items one, toStep_items other]
    cases hskip : skipSpace input with
    | nil => exact .inl rfl
    | cons byte behind =>
      by_cases hclose : byte = 0x29
      · simp only [if_pos hclose]
        exact .inl trivial
      simp only [if_neg hclose]
      rcases h (byte :: behind) with hsame | ⟨limit, rest, hdeep⟩
      · rw [hsame]
        cases hfirst : toStep (one (byte :: behind)) with
        | error failure => exact .inl rfl
        | ok found =>
          obtain ⟨first, left⟩ := found
          have hshorter : left.length < n := hlen ▸ length_lt_of_first hskip hfirst
          rcases ih _ hshorter left rfl with hmore | ⟨limit, rest, hdeep⟩
          · simp only [hmore]
            exact .inl trivial
          · simp only [hdeep]
            exact .inr ⟨limit, rest, rfl⟩
      · simp only [hdeep]
        exact .inr ⟨limit, rest, rfl⟩

/-- A value that is no list is read without regard to limits. -/
theorem toStep_value_congr {byte : UInt8} (hopen : byte ≠ 0x28) (limit levels other more : Nat)
    (rest : List UInt8) :
    toStep (value limit levels (byte :: rest)) = toStep (value other more (byte :: rest)) := by
  unfold value
  simp only [if_neg hopen]

/-- **More levels extend** what is read. -/
theorem extends_value (limit larger : Nat) {levels more : Nat} (h : levels ≤ more) :
    Extends (value limit levels) (value larger more) := by
  induction levels generalizing more with
  | zero =>
    intro input
    cases input with
    | nil => exact .inl (by rw [toStep_value_nil, toStep_value_nil])
    | cons byte rest =>
      by_cases hopen : byte = 0x28
      · subst hopen
        exact .inr ⟨limit, 0x28 :: rest, rfl⟩
      · exact .inl (toStep_value_congr hopen _ _ _ _ rest)
  | succ levels ih =>
    intro input
    obtain ⟨below, rfl⟩ : ∃ below, more = below + 1 := ⟨more - 1, by omega⟩
    cases input with
    | nil => exact .inl (by rw [toStep_value_nil, toStep_value_nil])
    | cons byte rest =>
      by_cases hopen : byte = 0x28
      · subst hopen
        rw [toStep_value_list, toStep_value_list]
        rcases extends_items (ih (Nat.le_of_succ_le_succ h)) rest with hsame | ⟨deep, left, hdeep⟩
        · exact .inl (by rw [hsame])
        · rw [hdeep]
          exact .inr ⟨deep, left, rfl⟩
      · exact .inl (toStep_value_congr hopen _ _ _ _ rest)

theorem extends_whole (input : List UInt8) {limit larger : Nat} (h : limit ≤ larger) :
    whole larger input = whole limit input ∨
      ∃ deep rest, whole limit input = .error ⟨.tooDeep deep, rest⟩ := by
  rw [whole_eq, whole_eq]
  rcases extends_value limit larger h (skipSpace input) with hsame | ⟨deep, rest, hdeep⟩
  · exact .inl (by rw [hsame])
  · rw [hdeep]
    exact .inr ⟨deep, rest, rfl⟩

/-! ## Where the limit is met -/

/-- `Unclosed behind lists front`: behind `front` and in front of `behind`, so many lists are open.
The values that stand in them so far nest less deep than a list at `behind` would. -/
inductive Unclosed (behind : List UInt8) : (lists : Nat) → (front : List UInt8) → Prop
  /-- Behind white space alone, no list is open. -/
  | none {space : List UInt8} (blank : space.all isSpace = true) : Unclosed behind 0 space
  /-- A list that is open, some values in it, and the lists that are open inside it. -/
  | list {space body front : List UInt8} {fields : List Field} {lists : Nat}
      (blank : space.all isSpace = true) (elements : DenoteAll Word body (front ++ behind) fields)
      (shallow : depthAll fields ≤ lists) (inner : Unclosed behind lists front) :
      Unclosed behind (lists + 1) (space ++ 0x28 :: (body ++ front))

/-- An open list at `behind` has no level left. -/
theorem unclosed_iff_inside : Unclosed behind lists front ↔ Inside behind 0 lists front := by
  constructor
  · intro h
    induction h with
    | none blank => exact .none blank
    | list blank elements shallow _ ih =>
      exact .list blank elements (by rwa [Nat.zero_add]) ih
  · intro h
    induction h with
    | none blank => exact .none blank
    | list blank elements shallow _ ih =>
      exact .list blank elements (by rwa [Nat.zero_add] at shallow) ih

/-- A limit is met only at an opening parenthesis that has no level left. -/
theorem Refused.of_tooDeep {left deep : Nat}
    (h : Refused limit left lists input ⟨.tooDeep deep, rest⟩) :
    left = 0 ∧ deep = limit ∧ input = rest ∧ ∃ behind, rest = 0x28 :: behind := by
  cases h with
  | @tooDeep behind no_level => exact ⟨no_level, rfl, rfl, behind, rfl⟩
  | quoted h =>
    obtain ⟨fault, left, hfault, -⟩ := exists_fault_of_quoted h
    cases hfault
  | literal h =>
    obtain ⟨fault, left, hfault, -⟩ := exists_fault_of_literal h
    cases hfault

/-! ## Whole texts -/

/-- The limit is met inside as many open lists as it allows. -/
theorem whole_eq_tooDeep_iff {deep : Nat} :
    whole limit input = .error ⟨.tooDeep deep, rest⟩ ↔
      deep = limit ∧ ∃ behind front, rest = 0x28 :: behind ∧ input = front ++ 0x28 :: behind ∧
        Unclosed (0x28 :: behind) limit front := by
  rw [whole_eq_error_iff]
  constructor
  · rintro ⟨lists, ⟨left, front, behind, hlevels, rfl, hinside, hrefused⟩⟩
    obtain ⟨rfl, rfl, rfl, more, rfl⟩ := hrefused.of_tooDeep
    rw [Nat.zero_add] at hlevels
    exact ⟨rfl, more, front, rfl, rfl, hlevels ▸ unclosed_iff_inside.2 hinside⟩
  · rintro ⟨rfl, behind, front, rfl, rfl, hopen⟩
    exact ⟨deep, .value ⟨0, front, _, Nat.zero_add deep, rfl, unclosed_iff_inside.1 hopen,
      .tooDeep rfl⟩⟩

/-- **A fresh reader meets its limit** at the opening parenthesis of a list inside as many open
lists as the limit allows, and stops there. -/
theorem read_eq_tooDeep_iff {deep : Nat} {after : Reader} :
    (Reader.ofBytes limit input).read = (.error (.tooDeep deep), after) ↔
      deep = limit ∧ ∃ front behind, input = front ++ 0x28 :: behind ∧
        Unclosed (0x28 :: behind) limit front ∧
        after = ⟨front.length, 0x28 :: behind, limit⟩ := by
  rw [read_ofBytes]
  constructor
  · intro h
    split at h
    · cases h
    · cases h
    next found rest hwhole =>
      cases h
      obtain ⟨rfl, behind, front, rfl, rfl, hopen⟩ := whole_eq_tooDeep_iff.1 hwhole
      refine ⟨rfl, front, behind, rfl, hopen, ?_⟩
      rw [List.length_append, Nat.add_sub_cancel]
  · rintro ⟨rfl, front, behind, rfl, hopen, rfl⟩
    rw [whole_eq_tooDeep_iff.2 ⟨rfl, behind, front, rfl, rfl, hopen⟩]
    simp only [List.length_append, Nat.add_sub_cancel]

theorem ofBytes_extends (input : List UInt8) {limit larger : Nat} (h : limit ≤ larger) :
    ofBytes larger input = ofBytes limit input ∨
      ofBytes limit input = .error (.tooDeep limit) := by
  unfold ofBytes
  rw [read_ofBytes, read_ofBytes]
  rcases extends_whole input h with hsame | ⟨deep, rest, hdeep⟩
  · rw [hsame]
    left
    cases whole limit input with
    | ok field => rfl
    | error failure =>
      obtain ⟨cause, rest⟩ := failure
      cases cause <;> rfl
  · right
    obtain ⟨rfl, -⟩ := whole_eq_tooDeep_iff.1 hdeep
    rw [hdeep]

/-- **The limit decides one thing only.** A text that is read within a limit nests no deeper, and a
larger limit changes neither the field nor, if the text is malformed, the fault and its place. What
a larger limit reads, a smaller one reads too, unless the field nests too deep: then that limit is
reported. It is reported exactly at the opening parenthesis of a list inside as many open lists as
the limit allows, whatever stands beside them or follows, and the reader stops in front of that
parenthesis. -/
theorem ofBytes_limit (input : List UInt8) {limit larger : Nat} (h : limit ≤ larger) :
    (∀ field, ofBytes limit input = .ok field →
      field.depth ≤ limit ∧ ofBytes larger input = .ok field) ∧
    (∀ position fault, ofBytes limit input = .error (.malformed position fault) →
      ofBytes larger input = .error (.malformed position fault)) ∧
    (∀ field, ofBytes larger input = .ok field →
      ofBytes limit input =
        if field.depth ≤ limit then .ok field else .error (.tooDeep limit)) ∧
    ∀ deep after, (Reader.ofBytes limit input).read = (.error (.tooDeep deep), after) ↔
      deep = limit ∧ ∃ front behind, input = front ++ 0x28 :: behind ∧
        Unclosed (0x28 :: behind) limit front ∧
        after = ⟨front.length, 0x28 :: behind, limit⟩ := by
  refine ⟨fun field hread => ?_, fun position fault hread => ?_, fun field hread => ?_,
    fun deep after => read_eq_tooDeep_iff⟩
  · obtain ⟨hwhole, hdepth⟩ := whole_eq_ok_iff.1 (ofBytes_eq_ok_iff_whole.1 hread)
    exact ⟨hdepth, ofBytes_eq_ok_iff_whole.2 (whole_eq_ok_iff.2 ⟨hwhole, Nat.le_trans hdepth h⟩)⟩
  · rcases ofBytes_extends input h with hsame | hdeep
    · rw [hsame, hread]
    · rw [hread] at hdeep
      cases hdeep
  · obtain ⟨hwhole, -⟩ := whole_eq_ok_iff.1 (ofBytes_eq_ok_iff_whole.1 hread)
    by_cases hdepth : field.depth ≤ limit
    · rw [if_pos hdepth]
      exact ofBytes_eq_ok_iff_whole.2 (whole_eq_ok_iff.2 ⟨hwhole, hdepth⟩)
    · rw [if_neg hdepth]
      rcases ofBytes_extends input h with hsame | hdeep
      · rw [hsame, ofBytes_eq_ok_iff_whole, whole_eq_ok_iff] at hread
        exact absurd hread.2 hdepth
      · exact hdeep

/-- The text `("(" (7))`. -/
def nestedText : List UInt8 := [0x28, 0x22, 0x28, 0x22, 0x20, 0x28, 0x37, 0x29, 0x29]

/-- A parenthesis in quotes, and a list. -/
def nestedField : Field := .list [.atom (Text.spelled [0x28]), .list [.number 7]]

theorem escaped_parenthesis : Escaped [0x28] (Text.bytes (Text.spelled [0x28])) := by
  rw [Text.bytes_spelled (by simp)]
  exact .plain (by decide) (by decide) .nil

theorem denotes_nestedText : Denotes Word nestedText [] nestedField := by
  have hnumber : Denotes Word [0x37] [0x29, 0x29] (.number 7) :=
    .word (by decide) rfl rfl (.number rfl (by decide))
  have hinner : Denotes Word [0x28, 0x37, 0x29] [0x29] (.list [.number 7]) :=
    .list (@DenoteAll.cons Word [] [0x37] [] _ _ _ rfl hnumber (.nil rfl))
  have hmore : DenoteAll Word [0x20, 0x28, 0x37, 0x29] [0x29] [.list [.number 7]] :=
    @DenoteAll.cons Word [0x20] _ [] _ _ _ rfl hinner (.nil rfl)
  exact .list (@DenoteAll.cons Word [] _ _ _ _ _ rfl (.quoted escaped_parenthesis) hmore)

/-- With the limit one, the reader stops behind five bytes: the parenthesis in quotes opens no
list. -/
theorem ofBytes_limit_nested :
    ofBytes 2 nestedText = .ok nestedField ∧ ofBytes 1 nestedText = .error (.tooDeep 1) ∧
      (Reader.ofBytes 1 nestedText).read =
        (.error (.tooDeep 1), ⟨5, [0x28, 0x37, 0x29, 0x29], 1⟩) := by
  have hwhole : Whole Word nestedText nestedField :=
    ⟨[], nestedText, [], rfl, rfl, rfl, denotes_nestedText⟩
  have hread : ofBytes 2 nestedText = .ok nestedField :=
    ofBytes_eq_ok_iff_whole.2 (whole_eq_ok_iff.2 ⟨hwhole, by decide⟩)
  have hlimit := ofBytes_limit nestedText (by decide : 1 ≤ 2)
  have hdeep := hlimit.2.2.1 nestedField hread
  rw [if_neg (by decide)] at hdeep
  have hopen : Unclosed [0x28, 0x37, 0x29, 0x29] 1 [0x28, 0x22, 0x28, 0x22, 0x20] :=
    @Unclosed.list _ [] [0x22, 0x28, 0x22] [0x20] _ _ rfl
      (@DenoteAll.cons Word [] _ [] _ _ _ rfl (.quoted escaped_parenthesis) (.nil rfl)) (by decide)
      (.none rfl)
  exact ⟨hread, hdeep, (hlimit.2.2.2 1 _).2 ⟨rfl, _, _, rfl, hopen, rfl⟩⟩

end MailOutline.Field
