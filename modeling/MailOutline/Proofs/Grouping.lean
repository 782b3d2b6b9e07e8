import MailOutline.Attribute.Params

/-!
# Parameters grouped by key

What a list of pairs becomes: one entry for each key, under its first spelling and in the order in
which the keys first come, with all values given under any spelling of the key, in order.

* `Params.valuesUnder`, `Params.grouped`: the entries, told from the list of pairs.
* `Params.grouped_concat`: one more pair at the end is added as `Params.add` adds it.
* `Params.ofPairs_eq_grouped`: adding pair by pair groups them.
-/

namespace MailOutline.Params

open Text (sameLetters sameLetters_comm sameLetters_trans)

/-- The values that a list of pairs gives under any spelling of a key. -/
def valuesUnder (key : String) (pairs : List (String × String)) : List String :=
  (pairs.filter fun pair => sameLetters key pair.1).map Prod.snd

/-- The pairs grouped by key. -/
def grouped : List (String × String) → List (String × List String)
  | [] => []
  | (key, value) :: rest =>
    (key, value :: valuesUnder key rest) ::
      (grouped rest).filter fun entry => !sameLetters key entry.1

variable {key other : String}

/-- Two spellings of one key are told apart from a third by neither. -/
theorem sameLetters_congr (h : sameLetters key other = true) (third : String) :
    sameLetters key third = sameLetters other third := by
  rw [Bool.eq_iff_iff]
  constructor
  · exact sameLetters_trans (sameLetters_comm key other ▸ h)
  · exact sameLetters_trans h

theorem addTo_filter_same (h : sameLetters key other = true) (value : String)
    (entries : List (String × List String)) :
    (addTo other value entries).filter (fun entry => !sameLetters key entry.1) =
      entries.filter fun entry => !sameLetters key entry.1 := by
  induction entries with
  | nil => simp [addTo, h]
  | cons entry rest ih =>
    rw [addTo]
    by_cases hentry : sameLetters entry.1 other = true
    · have hkey : sameLetters key entry.1 = true := by
        rw [sameLetters_congr h, sameLetters_comm, hentry]
      rw [if_pos hentry]
      simp [hkey]
    · rw [if_neg hentry, List.filter_cons, List.filter_cons, ih]

theorem addTo_filter_other (h : sameLetters key other = false) (value : String)
    (entries : List (String × List String)) :
    (addTo other value entries).filter (fun entry => !sameLetters key entry.1) =
      addTo other value (entries.filter fun entry => !sameLetters key entry.1) := by
  induction entries with
  | nil => simp [addTo, h]
  | cons entry rest ih =>
    rw [addTo]
    by_cases hentry : sameLetters entry.1 other = true
    · have hkey : sameLetters key entry.1 = false := by
        rw [sameLetters_comm, sameLetters_congr hentry, sameLetters_comm, h]
      rw [if_pos hentry]
      simp [hkey, addTo, hentry]
    · rw [if_neg hentry, List.filter_cons, List.filter_cons, ih]
      cases hkey : sameLetters key entry.1 with
      | true => rfl
      | false => simp [addTo, hentry]

theorem valuesUnder_concat (key other value : String) (pairs : List (String × String)) :
    valuesUnder key (pairs ++ [(other, value)]) =
      valuesUnder key pairs ++ if sameLetters key other then [value] else [] := by
  unfold valuesUnder
  rw [List.filter_append, List.map_append, List.filter_cons, List.filter_nil]
  cases sameLetters key other <;> rfl

/-- **A pair at the end** goes where `addTo` puts it. -/
theorem grouped_concat (pairs : List (String × String)) (key value : String) :
    grouped (pairs ++ [(key, value)]) = addTo key value (grouped pairs) := by
  induction pairs with
  | nil => rfl
  | cons pair rest ih =>
    obtain ⟨first, held⟩ := pair
    rw [List.cons_append, grouped, grouped, ih, addTo, valuesUnder_concat]
    cases h : sameLetters first key with
    | true => rw [if_pos rfl, if_pos rfl, addTo_filter_same h, List.cons_append]
    | false =>
      rw [if_neg Bool.false_ne_true, if_neg Bool.false_ne_true, addTo_filter_other h,
        List.append_nil]

/-- **Adding pair by pair groups the pairs.** -/
theorem ofPairs_eq_grouped (pairs : List (String × String)) : ofPairs pairs = ⟨grouped pairs⟩ := by
  have hfold : ∀ (pairs before : List (String × String)),
      pairs.foldl (fun params pair => params.add pair.1 pair.2) ⟨grouped before⟩ =
        (⟨grouped (before ++ pairs)⟩ : Params) := by
    intro pairs
    induction pairs with
    | nil => intro before; rw [List.append_nil]; rfl
    | cons pair rest ih =>
      intro before
      rw [List.foldl_cons, add, ← grouped_concat, ih, List.append_assoc]
      rfl
  exact hfold pairs []

end MailOutline.Params
