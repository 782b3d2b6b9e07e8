import MailOutline.Field.Step

/-!
# Reading a field

A value is a string, a word or a list in parentheses, with optional white space around the elements.
Each value takes at least one byte (`Reading.advances`), so the loop over the elements of a list
ends. How deep lists may nest is a number of levels, one of which each opening parenthesis takes.

Model of `Reader` with `skip_whitespace`, `read_field`, `read_value`, `read_list` and `error`, and
of `parse`.

* `value`, `items`: a value in front of the text, and the elements of a list up to its closing
  parenthesis.
* `whole`: a text that is one value and white space.
* `Field.ofBytes`: the field that a text denotes, or what is wrong with it.
* `Reader`: a place in a text. `Reader.read` reads one field there and refuses anything but white
  space behind it.
-/

namespace MailOutline.Field

/-- What was read from the front of `input`, and the bytes behind it. -/
structure Reading (α : Type) (input : List UInt8) where
  /-- The value that was read. -/
  value : α
  /-- The bytes behind it. -/
  rest : List UInt8
  /-- At least one byte was read. -/
  advances : rest.length < input.length

namespace Reading

variable {α β : Type} {input : List UInt8}

/-- The outcome without the evidence that it advances. -/
def toStep : Except Failure (Reading α input) → Step α
  | .error failure => .error failure
  | .ok reading => .ok (reading.value, reading.rest)

theorem toStep_eq_ok_iff {outcome : Except Failure (Reading α input)} {a : α}
    {rest : List UInt8} :
    toStep outcome = .ok (a, rest) ↔
      ∃ reading, outcome = .ok reading ∧ reading.value = a ∧ reading.rest = rest := by
  cases outcome <;> simp [toStep]

theorem length_lt_of_toStep {outcome : Except Failure (Reading α input)} {a : α}
    {rest : List UInt8} (h : toStep outcome = .ok (a, rest)) : rest.length < input.length := by
  obtain ⟨reading, -, -, rfl⟩ := toStep_eq_ok_iff.1 h
  exact reading.advances

/-- The reading that took the first byte and then a step on the others. -/
def ofStep (byte : UInt8) {rest : List UInt8} (step : Step α) (f : α → β)
    (h : ∀ {a left}, step = .ok (a, left) → left.length ≤ rest.length) :
    Except Failure (Reading β (byte :: rest)) :=
  match step, @h with
  | .error failure, _ => .error failure
  | .ok (a, left), h => .ok ⟨f a, left, Nat.lt_succ_of_le (h rfl)⟩

theorem toStep_ofStep (byte : UInt8) {rest : List UInt8} (step : Step α) (f : α → β)
    (h : ∀ {a left}, step = .ok (a, left) → left.length ≤ rest.length) :
    toStep (ofStep byte step f h) = step.map fun (a, left) => (f a, left) := by
  cases step <;> rfl

end Reading

/-- The elements of a list, read up to its closing parenthesis by means of `one`. -/
def items (one : (input : List UInt8) → Except Failure (Reading Field input))
    (input : List UInt8) : Except Failure (Reading (List Field) input) :=
  match h : skipSpace input with
  | [] => fail .endInList []
  | byte :: rest =>
    have shorter : (byte :: rest).length ≤ input.length := h ▸ length_dropWhile_le isSpace input
    if byte = 0x29 then .ok ⟨[], rest, shorter⟩ -- closing parenthesis
    else
      match one (byte :: rest) with
      | .error failure => .error failure
      | .ok first =>
        match items one first.rest with
        | .error failure => .error failure
        | .ok more =>
          .ok ⟨first.value :: more.value, more.rest, Nat.lt_of_lt_of_le more.advances
            (Nat.le_trans (Nat.le_of_lt first.advances) shorter)⟩
termination_by input.length
decreasing_by exact Nat.lt_of_lt_of_le first.advances shorter

theorem toStep_items (one : (input : List UInt8) → Except Failure (Reading Field input))
    (input : List UInt8) :
    Reading.toStep (items one input) =
      match skipSpace input with
      | [] => fail .endInList []
      | byte :: rest =>
        if byte = 0x29 then .ok ([], rest)
        else
          match Reading.toStep (one (byte :: rest)) with
          | .error failure => .error failure
          | .ok (first, left) =>
            match Reading.toStep (items one left) with
            | .error failure => .error failure
            | .ok (more, left) => .ok (first :: more, left) := by
  rw [items]
  split
  next h =>
    conv => rhs; rw [h]
    rfl
  next byte rest h =>
    conv => rhs; rw [h]
    by_cases hclose : byte = 0x29
    · simp only [if_pos hclose, Reading.toStep]
    · simp only [if_neg hclose]
      cases one (byte :: rest) with
      | error failure => rfl
      | ok first =>
        simp only [Reading.toStep]
        cases items one first.rest <;> rfl

/-- The field that a run of atom bytes in front of `rest` denotes. -/
def word (run rest : List UInt8) : Step Field :=
  match wordField run with
  | .error fault => fail fault rest
  | .ok field => .ok (field, rest)

/-- The value in front of the text, with lists at most `levels` deep. An opening parenthesis too
many is refused in front of it, with `limit` as the limit. -/
def value (limit levels : Nat) (input : List UInt8) : Except Failure (Reading Field input) :=
  match input with
  | [] => fail .endOfInput []
  | byte :: rest =>
    if byte = 0x28 then -- opening parenthesis
      match levels with
      | 0 => .error ⟨.tooDeep limit, byte :: rest⟩
      | below + 1 =>
        match items (value limit below) rest with
        | .error failure => .error failure
        | .ok reading =>
          .ok ⟨.list reading.value, reading.rest, Nat.lt_succ_of_lt reading.advances⟩
    -- closing parenthesis
    else if byte = 0x29 then fail .closingParenthesis (byte :: rest)
    -- a quote or a brace
    else if byte = 0x22 then Reading.ofStep byte (quoted rest) .atom length_le_of_quoted
    else if byte = 0x7B then Reading.ofStep byte (literal rest) .atom length_le_of_literal
    else if isAtomByte byte then
      Reading.ofStep byte (word (byte :: rest.takeWhile isAtomByte) (rest.dropWhile isAtomByte)) id
        fun {a left} h => by
          simp only [word] at h
          split at h <;> cases h
          exact length_dropWhile_le isAtomByte rest
    else fail (.unexpectedByte byte) (byte :: rest)

theorem toStep_value_list (limit below : Nat) (rest : List UInt8) :
    Reading.toStep (value limit (below + 1) (0x28 :: rest)) =
      (Reading.toStep (items (value limit below) rest)).map fun (fields, left) =>
        (.list fields, left) := by
  rw [value]
  simp only [if_true]
  cases items (value limit below) rest <;> rfl

/-- The field that a text denotes: one value with white space around it. -/
def whole (limit : Nat) (input : List UInt8) : Except Failure Field :=
  match value limit limit (skipSpace input) with
  | .error failure => .error failure
  | .ok reading =>
    match skipSpace reading.rest with
    | [] => .ok reading.value
    | byte :: rest => fail .trailingData (byte :: rest)

end MailOutline.Field

namespace MailOutline

/-! ## Readers -/

/-- A place in a text that fields are read from. -/
structure Reader where
  /-- How many bytes have been read. -/
  position : Nat
  /-- The bytes that have not been read. -/
  rest : List UInt8
  /-- How deep lists may nest. -/
  maxDepth : Nat
deriving DecidableEq, Repr

namespace Reader

/-- How deep lists may nest unless another limit is asked for. -/
def defaultMaxDepth : Nat := 64

/-- The reader in front of a text. -/
def ofBytes (maxDepth : Nat) (input : List UInt8) : Reader := ⟨0, input, maxDepth⟩

/-- Whether the whole text has been read. -/
def atEnd (reader : Reader) : Bool := reader.rest.isEmpty

/-- The reader in front of the bytes `rest` that end its text. -/
def moveTo (reader : Reader) (rest : List UInt8) : Reader :=
  { reader with position := reader.position + (reader.rest.length - rest.length), rest := rest }

/-- Reads one field, and refuses anything but white space behind it. After a failure the reader
stays where the fault was found. -/
def read (reader : Reader) : Except ReadError Field × Reader :=
  match Field.whole reader.maxDepth reader.rest with
  | .ok field => (.ok field, reader.moveTo [])
  | .error ⟨.fault fault, rest⟩ =>
    let reader := reader.moveTo rest
    (.error (.malformed reader.position fault), reader)
  | .error ⟨.tooDeep limit, rest⟩ => (.error (.tooDeep limit), reader.moveTo rest)

/-- What a number of calls of `read` answer, and the reader after each of them. -/
def readMany : Nat → Reader → List (Except ReadError Field × Reader)
  | 0, _ => []
  | n + 1, reader => reader.read :: readMany n reader.read.2

end Reader

namespace Field

/-- The field that a text denotes, with lists at most `maxDepth` deep. -/
def ofBytes (maxDepth : Nat) (input : List UInt8) : Except ReadError Field :=
  (Reader.ofBytes maxDepth input).read.1

end Field

end MailOutline
