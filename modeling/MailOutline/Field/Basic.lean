/-!
# Fields

A field is one value of a parenthesized mail response: `NIL`, a string, a number of 32 bits, or a
list of fields. The views below are total: asked for a shape that the field does not have, they
answer with the empty value of that shape, which is what makes decoding lenient.

Model of `Field` with its views `as_str`, `as_nstring`, `as_number`, `as_list`, `is_list` and
`is_nil`.

* `asText`, `asText?`, `asNumber`, `asList`: the views.
* `isList`, `isNil`: whether the field is a list, or the absent value.
* `depth`: how many lists are open around the deepest value of a field.
-/

namespace MailOutline

/-- One value of a parenthesized response. -/
inductive Field where
  /-- The absent value. -/
  | nil
  /-- A string, however it was written. -/
  | atom (text : String)
  /-- A number of 32 bits. -/
  | number (value : UInt32)
  /-- A parenthesized list. -/
  | list (items : List Field)
deriving Repr, Inhabited

namespace Field

/-! ## Equality -/

mutual

/-- Decides whether two fields are equal. -/
def decEq : (a b : Field) → Decidable (a = b)
  | .nil, .nil => isTrue rfl
  | .atom a, .atom b => decidable_of_iff (a = b) (by simp)
  | .number a, .number b => decidable_of_iff (a = b) (by simp)
  | .list as, .list bs =>
    match decEqAll as bs with
    | isTrue h => isTrue (by rw [h])
    | isFalse h => isFalse (by simp [h])
  | .nil, .atom _ | .nil, .number _ | .nil, .list _ => isFalse (by simp)
  | .atom _, .nil | .atom _, .number _ | .atom _, .list _ => isFalse (by simp)
  | .number _, .nil | .number _, .atom _ | .number _, .list _ => isFalse (by simp)
  | .list _, .nil | .list _, .atom _ | .list _, .number _ => isFalse (by simp)

/-- Decides whether two lists of fields are equal. -/
def decEqAll : (as bs : List Field) → Decidable (as = bs)
  | [], [] => isTrue rfl
  | [], _ :: _ => isFalse (by simp)
  | _ :: _, [] => isFalse (by simp)
  | a :: as, b :: bs =>
    match decEq a b, decEqAll as bs with
    | isTrue h, isTrue hs => isTrue (by rw [h, hs])
    | isFalse h, _ => isFalse (by simp [h])
    | _, isFalse hs => isFalse (by simp [hs])

end

instance : DecidableEq Field := decEq

/-! ## Views -/

/-- The text of a string, and the empty text otherwise. -/
def asText : Field → String
  | .atom text => text
  | _ => ""

/-- The text of a string. It keeps the absent value apart from the empty string. -/
def asText? : Field → Option String
  | .atom text => some text
  | _ => none

/-- The value of a number, and zero otherwise. -/
def asNumber : Field → UInt32
  | .number value => value
  | _ => 0

/-- The elements of a list, and no elements otherwise. -/
def asList : Field → List Field
  | .list items => items
  | _ => []

/-- Whether the field is a list. -/
def isList : Field → Bool
  | .list _ => true
  | _ => false

/-- Whether the field is the absent value. -/
def isNil : Field → Bool
  | .nil => true
  | _ => false

/-! ## Depth -/

mutual

/-- The number of lists around the deepest value of a field. -/
def depth : Field → Nat
  | .list items => 1 + depthAll items
  | _ => 0

/-- The depth of the deepest field of a list. -/
def depthAll : List Field → Nat
  | [] => 0
  | field :: rest => max field.depth (depthAll rest)

end

end Field

end MailOutline
