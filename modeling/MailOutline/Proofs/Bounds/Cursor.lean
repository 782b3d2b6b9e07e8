import MailOutline.Field.Reader
import MailOutline.Proofs.Bounds.Checked

/-!
# A reader that counts places

A reader holds its whole text and the place where it stands. Here its motions are written down as a
machine carries them out: a byte is read by its index, a run of bytes is a slice between two places,
and each motion is a sum of words. The steps of `MailOutline.Field` take the bytes that are left
instead; `Does` says that a run does what such a step says.

Model of `peek`, `peek_at`, `advance`, `skip` and `skip_whitespace`, operation by operation.

* `Cursor`: a run from a place. It answers with a value or an error and the place behind it, or with
  nothing if one of its operations cannot be carried out.
* `before`: how many bytes stand in front of an end of the text.
* `Does`: a run, in front of an end of the text, answers what a step does. It holds of what runs one
  after the other if it holds of each (`Does.bind`, `Does.bind_error`), and of each motion
  (`does_peek`, `does_advance`, `does_advanceWhile`, `does_slice`).
-/

namespace MailOutline.Checked

open MailOutline.Field (Step Failure)

variable {α β : Type} {input rest : List UInt8}

/-! ## Runs -/

/-- A run from a place of the text. -/
def Cursor (α : Type) : Type := Nat → Option (Except ReadError α × Nat)

namespace Cursor

instance : Monad Cursor where
  pure a := fun place => some (.ok a, place)
  bind run next := fun place =>
    match run place with
    | none => none
    | some (.error error, stop) => some (.error error, stop)
    | some (.ok a, stop) => next a stop

/-- The place where the reader stands. -/
def here : Cursor Nat := fun place => some (.ok place, place)

/-- Moves the reader. -/
def moveTo (place : Nat) : Cursor Unit := fun _ => some (.ok (), place)

/-- Uses the result of an operation that may stop the program. -/
def need (result : Option α) : Cursor α := fun place => result.map fun a => (.ok a, place)

/-- Ends with an error. -/
def refuse (error : ReadError) : Cursor α := fun place => some (.error error, place)

/-- Ends with a fault at the place where the reader stands. -/
def fail (fault : Fault) : Cursor α := fun place => some (.error (.malformed place fault), place)

/-! ## Motions -/

/-- The byte where the reader stands, if it is not at the end. -/
def peek (input : List UInt8) : Cursor (Option UInt8) := do return input[← here]?

/-- The byte `offset` bytes further on. -/
def peekAt (input : List UInt8) (offset : Nat) : Cursor (Option UInt8) := do
  let place ← need (add? (← here) offset)
  return input[place]?

/-- Reads the byte where the reader stands, and moves behind it. -/
def advance (input : List UInt8) : Cursor (Option UInt8) := do
  match ← peek input with
  | none => return none
  | some byte => do
    moveTo (← need (add? (← here) 1))
    return some byte

/-- Moves so many bytes on, at most up to the end. -/
def skip (input : List UInt8) (count : Nat) : Cursor Unit := do
  let place ← need (add? (← here) count)
  moveTo (min place input.length)

/-- Moves behind all bytes with a property. A run of more than `rounds` rounds stops the program, so
that a run which answers is one that ends. -/
def advanceWhile (input : List UInt8) (p : UInt8 → Bool) : (rounds : Nat) → Cursor Unit
  | 0 => need none
  | rounds + 1 => do
    match ← peek input with
    | none => return ()
    | some byte =>
      if p byte then do
        let _ ← advance input
        advanceWhile input p rounds
      else return ()

/-- The bytes from a place up to where the reader stands. -/
def sliceFrom (input : List UInt8) (start : Nat) : Cursor (List UInt8) := do
  need (slice? input start (← here))

end Cursor

/-! ## Places -/

/-- The number of bytes in front of an end of the text. -/
def before (input rest : List UInt8) : Nat := input.length - rest.length

theorem before_append (front rest : List UInt8) : before (front ++ rest) rest = front.length := by
  rw [before, List.length_append, Nat.add_sub_cancel]

theorem before_le (input rest : List UInt8) : before input rest ≤ input.length := Nat.sub_le _ _

theorem before_add_length (h : rest <:+ input) : before input rest + rest.length = input.length :=
  Nat.sub_add_cancel h.length_le

theorem before_cons {byte : UInt8} (h : byte :: rest <:+ input) :
    before input (byte :: rest) + 1 = before input rest := by
  have hlen := before_add_length h
  rw [List.length_cons] at hlen
  unfold before at hlen ⊢
  omega

theorem getElem?_before_add (h : rest <:+ input) (offset : Nat) :
    input[before input rest + offset]? = rest[offset]? := by
  obtain ⟨front, rfl⟩ := h
  rw [before_append, List.getElem?_append_right (Nat.le_add_right _ _), Nat.add_sub_cancel_left]

theorem slice?_before {run : List UInt8} (h : run ++ rest <:+ input) :
    slice? input (before input (run ++ rest)) (before input rest) = some run := by
  obtain ⟨front, rfl⟩ := h
  have hstop : before (front ++ (run ++ rest)) rest = front.length + run.length := by
    rw [← List.append_assoc, before_append, List.length_append]
  rw [before_append, hstop]
  exact slice?_append front run rest

theorem before_drop (h : rest <:+ input) {count : Nat} (hcount : count ≤ rest.length) :
    before input (rest.drop count) = before input rest + count := by
  have hlen := before_add_length h
  rw [before, List.length_drop]
  omega

/-! ## What a run does -/

/-- The outcome of a step, told with places of the text. -/
def placed (input : List UInt8) : Step α → Except ReadError α × Nat
  | .ok (a, rest) => (.ok a, before input rest)
  | .error ⟨.fault fault, rest⟩ =>
    (.error (.malformed (before input rest) fault), before input rest)
  | .error ⟨.tooDeep limit, rest⟩ => (.error (.tooDeep limit), before input rest)

/-- **The run, in front of the end `rest` of the text, answers what the step says**; no operation
stops it. -/
def Does (input : List UInt8) (run : Cursor α) (rest : List UInt8) (step : Step α) : Prop :=
  run (before input rest) = some (placed input step)

namespace Does

variable {run : Cursor α} {next : α → Cursor β} {a : α} {middle : List UInt8}

theorem of_pure (a : α) : Does input (pure a) rest (.ok (a, rest)) := rfl

theorem of_fail (fault : Fault) : Does (α := α) input (.fail fault) rest (Field.fail fault rest) :=
  rfl

theorem of_refuse (limit : Nat) :
    Does (α := α) input (.refuse (.tooDeep limit)) rest (.error ⟨.tooDeep limit, rest⟩) := rfl

theorem of_here : Does input .here rest (.ok (before input rest, rest)) := rfl

theorem of_need {result : Option α} (h : result = some a) :
    Does input (.need result) rest (.ok (a, rest)) := by
  subst h
  rfl

theorem of_moveTo : Does input (.moveTo (before input middle)) rest (.ok ((), middle)) := rfl

/-- After a run that succeeds comes the next one, behind what it read. -/
theorem bind {step : Step β} (hrun : Does input run rest (.ok (a, middle)))
    (hnext : Does input (next a) middle step) : Does input (run >>= next) rest step := by
  simp only [Does, Bind.bind] at hrun hnext ⊢
  rw [hrun]
  exact hnext

/-- After a run that fails comes no other. -/
theorem bind_error {failure : Failure} (hrun : Does input run rest (.error failure)) :
    Does input (run >>= next) rest (.error failure) := by
  simp only [Does, Bind.bind] at hrun ⊢
  rw [hrun]
  obtain ⟨cause, left⟩ := failure
  cases cause <;> rfl

theorem map {step : Step α} (hrun : Does input run rest step) (f : α → β) :
    Does input (f <$> run) rest (step.map fun (a, left) => (f a, left)) := by
  cases step with
  | error failure => exact bind_error hrun
  | ok found => exact bind hrun (of_pure (f found.1))

end Does

/-! ## What the motions do -/

open Cursor

theorem does_peek (h : rest <:+ input) : Does input (peek input) rest (.ok (rest.head?, rest)) := by
  have hbyte : input[before input rest]? = rest.head? := by
    rw [List.head?_eq_getElem?]
    exact getElem?_before_add h 0
  rw [← hbyte]
  rfl

theorem does_peekAt (h : rest <:+ input) {offset : Nat} (hoffset : offset ≤ rest.length)
    (hword : input.length < UInt64.size) :
    Does input (peekAt input offset) rest (.ok (rest[offset]?, rest)) := by
  have hlen := before_add_length h
  rw [← getElem?_before_add h offset]
  exact .bind .of_here (.bind (.of_need (add?_of_lt (by omega))) (.of_pure _))

theorem does_advance_nil : Does input (advance input) [] (.ok (none, [])) :=
  .bind (does_peek List.nil_suffix) (.of_pure none)

theorem does_advance {byte : UInt8} (h : byte :: rest <:+ input)
    (hword : input.length < UInt64.size) :
    Does input (advance input) (byte :: rest) (.ok (some byte, rest)) := by
  have hsum : add? (before input (byte :: rest)) 1 = some (before input rest) := by
    have hle := before_le input rest
    rw [← before_cons h]
    exact add?_of_lt (by rw [before_cons h]; omega)
  exact .bind (does_peek h) (.bind .of_here (.bind (.of_need hsum) (.bind .of_moveTo (.of_pure _))))

theorem does_skip (h : rest <:+ input) {count : Nat} (hcount : count ≤ rest.length)
    (hword : input.length < UInt64.size) :
    Does input (skip input count) rest (.ok ((), rest.drop count)) := by
  have hle := before_le input (rest.drop count)
  rw [before_drop h hcount] at hle
  have hstop : min (before input rest + count) input.length = before input (rest.drop count) := by
    rw [before_drop h hcount, Nat.min_eq_left hle]
  refine .bind .of_here (.bind (.of_need (add?_of_lt (by omega))) ?_)
  rw [hstop]
  exact .of_moveTo

/-- **A loop over bytes stops** in front of the first byte without the property. -/
theorem does_advanceWhile (p : UInt8 → Bool) {rounds : Nat} (h : rest <:+ input)
    (hword : input.length < UInt64.size) (hrounds : rest.length < rounds) :
    Does input (advanceWhile input p rounds) rest (.ok ((), rest.dropWhile p)) := by
  induction rounds generalizing rest with
  | zero => exact absurd hrounds (Nat.not_lt_zero _)
  | succ rounds ih =>
    cases rest with
    | nil => exact .bind (does_peek h) (.of_pure ())
    | cons byte rest =>
      have hrest : rest <:+ input := (List.suffix_cons byte rest).trans h
      refine .bind (does_peek h) ?_
      simp only [List.head?_cons]
      by_cases hp : p byte = true
      · rw [if_pos hp, List.dropWhile_cons_of_pos hp]
        exact .bind (does_advance h hword) (ih hrest (Nat.lt_of_succ_lt_succ hrounds))
      · rw [if_neg hp, List.dropWhile_cons_of_neg hp]
        exact .of_pure ()

/-- **A slice is in bounds** between a place and a later one. -/
theorem does_sliceFrom {run : List UInt8} (h : run ++ rest <:+ input) :
    Does input (sliceFrom input (before input (run ++ rest))) rest (.ok (run, rest)) :=
  .bind .of_here (.of_need (slice?_before h))

end MailOutline.Checked
