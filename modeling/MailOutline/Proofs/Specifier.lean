import MailOutline.Text.Basic

/-!
# Specifiers as paths of numbers

A specifier is a path of decimal numbers with points between them. That of a multipart has `TEXT`
behind the path, or stands alone as `TEXT` at the root.

* `Specifier.dotted`, `Specifier.ofText`, `Specifier.stem`: how paths are written.
* `Specifier.repr_point_inj`, `Specifier.repr_ne_repr_point`: the first number of a specifier can
  be read off, whatever follows its point.
-/

namespace MailOutline.Specifier

/-! ## Paths -/

/-- The numbers of a path with points between them. -/
def dotted (path : List Nat) : String := ".".intercalate (path.map Nat.repr)

/-- The specifier of the multipart at a path. -/
def ofText : List Nat → String
  | [] => "TEXT"
  | n :: path => dotted (n :: path) ++ ".TEXT"

/-- What stands in front of the numbers and of the `TEXT` inside the multipart at a path. -/
def stem : List Nat → String
  | [] => ""
  | n :: path => dotted (n :: path) ++ "."

theorem dotted_singleton (n : Nat) : dotted [n] = Nat.repr n := String.intercalate_singleton

theorem dotted_cons (n : Nat) {path : List Nat} (h : path ≠ []) :
    dotted (n :: path) = Nat.repr n ++ "." ++ dotted path := by
  unfold dotted
  rw [List.map_cons, String.intercalate_cons_of_ne_nil]
  simpa using h

theorem stem_cons (n : Nat) (path : List Nat) :
    stem (n :: path) = Nat.repr n ++ "." ++ stem path := by
  cases path with
  | nil => rw [stem, stem, dotted_singleton, String.append_empty]
  | cons m path => rw [stem, dotted_cons n (List.cons_ne_nil m path), stem, String.append_assoc]

theorem ofText_eq_stem (path : List Nat) : ofText path = stem path ++ "TEXT" := by
  cases path with
  | nil => rfl
  | cons n path => rw [ofText, stem, String.append_assoc]; rfl

theorem ofText_cons (n : Nat) (path : List Nat) :
    ofText (n :: path) = Nat.repr n ++ "." ++ ofText path := by
  rw [ofText_eq_stem, stem_cons, String.append_assoc, ← ofText_eq_stem]

/-- The path of a part, behind that of the multipart it is in. -/
theorem dotted_concat (path : List Nat) (n : Nat) :
    dotted (path ++ [n]) = stem path ++ Nat.repr n := by
  cases path with
  | nil => rw [List.nil_append, dotted_singleton, stem, String.empty_append]
  | cons m path =>
    unfold stem dotted
    rw [List.map_append, String.intercalate_append_of_ne_nil (by simp) (by simp)]
    rfl

theorem stem_concat (path : List Nat) (n : Nat) :
    stem (path ++ [n]) = stem path ++ Nat.repr n ++ "." := by
  rw [← dotted_concat]
  cases path <;> rfl

/-! ## The first number -/

theorem repr_inj {m n : Nat} (h : Nat.repr m = Nat.repr n) : m = n := by
  have hdigits := congrArg (fun s : String => Nat.ofDigitChars 10 s.toList 0) h
  simpa only [Nat.toList_repr, Nat.ofDigitChars_ten_toDigits] using hdigits

/-- The digits in front of a text that does not go on with a digit. -/
theorem takeWhile_repr_append (n : Nat) {s : String}
    (h : ∀ c ∈ s.toList.head?, Char.isDigit c = false) :
    (Nat.repr n ++ s).toList.takeWhile Char.isDigit = Nat.toDigits 10 n := by
  have hdigit : ∀ c ∈ Nat.toDigits 10 n, Char.isDigit c = true := fun c hc =>
    Nat.isDigit_of_mem_toDigits (by decide) (by decide) hc
  rw [String.toList_append, Nat.toList_repr, List.takeWhile_append_of_pos hdigit]
  cases hs : s.toList with
  | nil => rw [List.takeWhile_nil, List.append_nil]
  | cons c rest =>
    rw [hs] at h
    rw [List.takeWhile_cons_of_neg (by simpa using h c rfl), List.append_nil]

theorem isDigit_head_point (s : String) :
    ∀ c ∈ ("." ++ s).toList.head?, Char.isDigit c = false := by
  intro c hc
  rw [String.toList_append] at hc
  cases hc
  decide

theorem toDigits_inj {m n : Nat} (h : Nat.toDigits 10 m = Nat.toDigits 10 n) : m = n :=
  repr_inj (String.toList_inj.1 (by rw [Nat.toList_repr, Nat.toList_repr, h]))

/-- **The first number and what stands behind its point can be read off.** -/
theorem repr_point_inj {m n : Nat} {s t : String}
    (h : Nat.repr m ++ "." ++ s = Nat.repr n ++ "." ++ t) : m = n ∧ s = t := by
  rw [String.append_assoc, String.append_assoc] at h
  have hdigits := congrArg (fun s : String => s.toList.takeWhile Char.isDigit) h
  simp only [takeWhile_repr_append _ (isDigit_head_point _)] at hdigits
  obtain rfl := toDigits_inj hdigits
  rw [String.append_right_inj, String.append_right_inj] at h
  exact ⟨rfl, h⟩

/-- A number alone is no number with a point behind it. -/
theorem repr_ne_repr_point (m n : Nat) (s : String) :
    Nat.repr m ≠ Nat.repr n ++ "." ++ s := by
  intro h
  have hmem : '.' ∈ (Nat.repr m).toList := by
    rw [h]
    simp
  rw [Nat.toList_repr] at hmem
  exact absurd (Nat.isDigit_of_mem_toDigits (by decide) (by decide) hmem) (by decide)

/-- What begins with a number is not `TEXT`. -/
theorem repr_append_ne_text (n : Nat) (s : String) : Nat.repr n ++ s ≠ "TEXT" := by
  intro h
  have hlist := congrArg String.toList h
  rw [String.toList_append, Nat.toList_repr] at hlist
  cases hdigits : Nat.toDigits 10 n with
  | nil => exact Nat.toDigits_ne_nil hdigits
  | cons c rest =>
    rw [hdigits] at hlist
    obtain rfl : c = 'T' := (List.cons.inj hlist).1
    have hmem : 'T' ∈ Nat.toDigits 10 n := hdigits ▸ List.mem_cons_self
    exact absurd (Nat.isDigit_of_mem_toDigits (by decide) (by decide) hmem) (by decide)

end MailOutline.Specifier
