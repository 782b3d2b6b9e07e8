/-!
# JSON values

Decoded values are exchanged with other programs as JSON. A number is kept as it was written, a
whole number over a power of ten, so that an integer can be told from a fraction.

Model of the rules by which records and alternatives are serialized and read back.

* `Json`: the values.
* `Json.text?`, `Json.word?`, `Json.listOf?`, `Json.optional?`: readers of one shape each.
* `Json.members?`: the members of a record, by name, or by place if the record is an array.
* `Json.variant?`: which alternative a value is, with what belongs to it.
* `Json.depth`: how deep arrays and objects nest.
-/

namespace MailOutline

/-- A JSON value. -/
inductive Json where
  /-- The absent value. -/
  | null
  /-- A truth value. -/
  | bool (value : Bool)
  /-- The number `mantissa` over ten to the power of `decimals`. -/
  | number (mantissa : Int) (decimals : Nat)
  /-- A text. -/
  | text (value : String)
  /-- An array. -/
  | array (items : List Json)
  /-- An object: names with values. -/
  | object (members : List (String × Json))
deriving Inhabited

namespace Json

variable {α : Type}

/-! ## Writing -/

/-- An integer that is not negative. -/
def ofNat (n : Nat) : Json := number n 0

/-- A number of 32 bits. -/
def ofWord (word : UInt32) : Json := ofNat word.toNat

/-- An array of values that are written with `write`. -/
def ofList (write : α → Json) (values : List α) : Json := array (values.map write)

/-- A value that may be absent. -/
def ofOption (write : α → Json) : Option α → Json
  | none => null
  | some value => write value

/-- An alternative with what belongs to it. -/
def ofVariant (name : String) (held : Json) : Json := object [(name, held)]

/-! ## Reading -/

/-- The text that a value is. -/
def text? : Json → Option String
  | text value => some value
  | _ => none

/-- The number of 32 bits that a value is. -/
def word? : Json → Option UInt32
  | number n 0 => if 0 ≤ n ∧ n < 4294967296 then some (.ofNat n.toNat) else none
  | _ => none

/-- The values that the elements of an array denote, if `read` reads them all. -/
def listOf? (read : Json → Option α) : Json → Option (List α)
  | array items => items.mapM read
  | _ => none

/-- A member that has to be there. -/
def required? (read : Json → Option α) (member : Option Json) : Option α := member.bind read

/-- A member that may be missing or absent. -/
def optional? (read : Json → Option α) : Option Json → Option (Option α)
  | none | some null => some none
  | some json => (read json).map some

/-- The members of a record with these names. An array holds them in the order of the names. -/
def members? (names : List String) : Json → Option (List (Option Json))
  | object members => some (names.map fun name => members.lookup name)
  | array items => if items.length = names.length then some (items.map some) else none
  | _ => none

/-- The name of an alternative, and what belongs to it. -/
def variant? : Json → Option (String × Option Json)
  | text name => some (name, none)
  | object [(name, held)] => some (name, some held)
  | _ => none

/-- Whether an alternative comes without anything that belongs to it. -/
def isUnit : Option Json → Bool
  | none | some null => true
  | _ => false

theorem text?_text (value : String) : text? (text value) = some value := rfl

theorem word?_ofWord (word : UInt32) : word? (ofWord word) = some word := by
  have := word.toNat_lt
  have h : (0 : Int) ≤ word.toNat ∧ (word.toNat : Int) < 4294967296 := by omega
  rw [ofWord, ofNat, word?, if_pos h, Int.toNat_natCast, UInt32.ofNat_toNat]

theorem listOf?_ofList {read : Json → Option α} {write : α → Json} {values : List α}
    (h : ∀ value ∈ values, read (write value) = some value) :
    listOf? read (ofList write values) = some values := by
  simp only [listOf?, ofList]
  induction values with
  | nil => rfl
  | cons first rest ih =>
    rw [List.map_cons, List.mapM_cons, h first List.mem_cons_self,
      ih fun value hv => h value (List.mem_cons_of_mem _ hv)]
    rfl

theorem optional?_ofOption {read : Json → Option α} {write : α → Json} {value : Option α}
    (hread : ∀ a ∈ value, read (write a) = some a) (hnull : ∀ a ∈ value, write a ≠ null) :
    optional? read (some (ofOption write value)) = some value := by
  cases value with
  | none => rfl
  | some a =>
    have hr := hread a rfl
    have hn := hnull a rfl
    simp only [ofOption]
    generalize write a = json at hr hn
    cases json <;> simp_all [optional?]

/-! ## Depth -/

mutual

/-- The number of arrays and objects around the deepest value. -/
def depth : Json → Nat
  | array items => 1 + depthItems items
  | object members => 1 + depthMembers members
  | _ => 0

/-- The depth of the deepest element of an array. -/
def depthItems : List Json → Nat
  | [] => 0
  | item :: rest => max item.depth (depthItems rest)

/-- The depth of the deepest member of an object. -/
def depthMembers : List (String × Json) → Nat
  | [] => 0
  | (_, value) :: rest => max value.depth (depthMembers rest)

end

end Json

end MailOutline
