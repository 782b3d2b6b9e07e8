/-!
# Operations that can stop a program

On a machine, a sum may leave the range of its type, a slice may leave its list and an index may
point behind the end. A program stops there. The operations below are such operations; they answer
with nothing where the program would stop.

The modules beside this one write the reader, the decoders and the dates down with them, place by
place and index by index as a machine carries them out, and prove that nothing ever stops them: each
answers what the total function answers.

* `add?`, `sub?`: sums and differences of words of 64 bits.
* `int32?`: the numbers of 32 bits with a sign.
* `slice?`, `splitAt?`: a part of a list between two places. An index is written `items[i]?`, which
  answers with nothing behind the end as well.
-/

namespace MailOutline.Checked

variable {α : Type}

/-! ## Numbers -/

/-- The sum of two words, if it is a word. -/
def add? (a b : Nat) : Option Nat := if a + b < UInt64.size then some (a + b) else none

/-- The difference of two words, if it is a word. -/
def sub? (a b : Nat) : Option Nat := if b ≤ a then some (a - b) else none

/-- A number, if it is one of 32 bits with a sign. -/
def int32? (value : Int) : Option Int :=
  if -0x80000000 ≤ value ∧ value < 0x80000000 then some value else none

theorem add?_of_lt {a b : Nat} (h : a + b < UInt64.size) : add? a b = some (a + b) := if_pos h

theorem sub?_of_le {a b : Nat} (h : b ≤ a) : sub? a b = some (a - b) := if_pos h

theorem int32?_of_range {value : Int} (h : -0x80000000 ≤ value ∧ value < 0x80000000) :
    int32? value = some value := if_pos h

/-! ## Lists -/

/-- The elements from the place `start` up to the place `stop`, if there are such places. -/
def slice? (items : List α) (start stop : Nat) : Option (List α) :=
  if start ≤ stop ∧ stop ≤ items.length then some ((items.drop start).take (stop - start)) else none

/-- The elements in front of a place and those behind it, if there is such a place. -/
def splitAt? (items : List α) (place : Nat) : Option (List α × List α) :=
  if place ≤ items.length then some (items.splitAt place) else none

theorem slice?_append (front middle back : List α) :
    slice? (front ++ (middle ++ back)) front.length (front.length + middle.length) =
      some middle := by
  have hfits : front.length ≤ front.length + middle.length ∧
      front.length + middle.length ≤ (front ++ (middle ++ back)).length := by
    simp only [List.length_append]
    omega
  rw [slice?, if_pos hfits, List.drop_left, Nat.add_sub_cancel_left, List.take_left]

theorem slice?_to_end {items : List α} {start : Nat} (h : start ≤ items.length) :
    slice? items start items.length = some (items.drop start) := by
  rw [slice?, if_pos ⟨h, Nat.le_refl _⟩, ← List.length_drop, List.take_length]

theorem splitAt?_append (front back : List α) :
    splitAt? (front ++ back) front.length = some (front, back) := by
  rw [splitAt?, if_pos (by simp only [List.length_append]; omega), List.splitAt_eq,
    List.take_left, List.drop_left]

end MailOutline.Checked
