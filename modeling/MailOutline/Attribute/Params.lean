import MailOutline.Text.Basic
import MailOutline.Trace

/-!
# Parameters

Content types and dispositions carry parameters: keys with values. A key may come several times, in
any case; its values are kept together under its first spelling, in the order in which they came.

Model of `Params` with `add`, `get`, `get_all`, `contains_key`, `len`, `is_empty` and `from_iter`,
and of `decode_attribute_pairs`.

* `Params.add`: adds a value under a key. `Params.valuesOf_add` says how its values change.
* `Params.get?`, `Params.valuesOf`, `Params.contains`: look-ups, all of which ignore ASCII case.
* `Params.ofFields`: the parameters of a list that alternates keys and values.
-/

namespace MailOutline

/-- Keys with their values, in the order in which the keys first came. -/
structure Params where
  /-- Each key with its values. -/
  entries : List (String × List String)
deriving DecidableEq, Repr, Inhabited

namespace Params

/-! ## Look-up and insertion -/

/-- No parameters. -/
def empty : Params := ⟨[]⟩

/-- The entries with one more value under `key`: behind the others of the first entry with that key,
or in an entry of its own at the end. -/
def addTo (key value : String) : List (String × List String) → List (String × List String)
  | [] => [(key, [value])]
  | entry :: rest =>
    if Text.sameLetters entry.1 key then (entry.1, entry.2 ++ [value]) :: rest
    else entry :: addTo key value rest

/-- The parameters with one more value under `key`. -/
def add (params : Params) (key value : String) : Params := ⟨addTo key value params.entries⟩

/-- All values under `key`, in the order in which they were added. -/
def valuesOf (params : Params) (key : String) : List String :=
  match params.entries.find? fun entry => Text.sameLetters entry.1 key with
  | some entry => entry.2
  | none => []

/-- The first value under `key`. -/
def get? (params : Params) (key : String) : Option String := (params.valuesOf key).head?

/-- Whether there is an entry for `key`. -/
def contains (params : Params) (key : String) : Bool :=
  params.entries.any fun entry => Text.sameLetters entry.1 key

/-- The number of keys. -/
def size (params : Params) : Nat := params.entries.length

/-- Whether there are no parameters. -/
def isEmpty (params : Params) : Bool := params.entries.isEmpty

/-- The parameters that adding the pairs one by one gives. -/
def ofPairs (pairs : List (String × String)) : Params :=
  pairs.foldl (fun params pair => params.add pair.1 pair.2) empty

/-! ## What adding does to the look-ups -/

theorem valuesOf_add (params : Params) (key value other : String) :
    (params.add key value).valuesOf other =
      if Text.sameLetters key other then params.valuesOf other ++ [value]
      else params.valuesOf other := by
  obtain ⟨entries⟩ := params
  simp only [valuesOf, add]
  induction entries with
  | nil => by_cases h : Text.sameLetters key other <;> simp [addTo, h]
  | cons entry rest ih =>
    rw [addTo]
    by_cases hk : Text.sameLetters entry.1 key
    · have hko : Text.sameLetters entry.1 other = Text.sameLetters key other := by
        rw [Text.sameLetters_iff] at hk
        simp [Text.sameLetters, hk]
      by_cases ho : Text.sameLetters key other <;> simp [hk, hko, ho]
    · rw [if_neg hk]
      by_cases heo : Text.sameLetters entry.1 other
      · have hne : Text.sameLetters key other = false := by
          rw [Text.sameLetters_iff] at heo hk
          simp only [Text.sameLetters, ← heo, beq_eq_false_iff_ne]
          exact fun h => hk h.symm
        simp [heo, hne]
      · simpa [heo] using ih

/-! ## Decoding -/

/-- The texts of a list that alternates keys and values. A last key without a value is left out. -/
def pairsOf : List Field → List (String × String)
  | key :: value :: rest => (key.asText, value.asText) :: pairsOf rest
  | _ => []

/-- The parameters of a list that alternates keys and values. A last key without a value is left out
and reported. -/
def ofFields (items : List Field) : Traced Params := do
  if items.length % 2 ≠ 0 then .report (.oddAttributes items.length)
  return ofPairs (pairsOf items)

@[simp] theorem value_ofFields (items : List Field) :
    (ofFields items).value = ofPairs (pairsOf items) := by
  unfold ofFields
  split <;> rfl

end Params

end MailOutline
