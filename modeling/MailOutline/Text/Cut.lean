/-!
# Trimming, cutting and splitting a text

The texts of dates are trimmed, cut and split. Model of `truncate`, and of the trimming and the
splitting in `parse_date` and `parse_with`.

* `isBlank`: the characters with the Unicode property `White_Space`.
* `skipBlank`, `trim`: text without the white space in front of it, or around it.
* `cut`: the longest beginning of a text that takes at most so many bytes of UTF-8
  (`cut_isPrefix`, `size_cut_le`, `size_lt_of_isPrefix`).
* `splitLast?`: a text split at the last occurrence of a character (`splitLast?_eq_some_iff`).
-/

namespace MailOutline.Text

/-! ## White space -/

/-- Whether the character has the Unicode property `White_Space`. -/
def isBlank (c : Char) : Bool :=
  let n := c.toNat
  (9 ≤ n && n ≤ 13) || n == 0x20 || n == 0x85 || n == 0xA0 || n == 0x1680
    || (0x2000 ≤ n && n ≤ 0x200A) || n == 0x2028 || n == 0x2029 || n == 0x202F || n == 0x205F
    || n == 0x3000

/-- The text without the white space in front of it. -/
def skipBlank (text : List Char) : List Char := text.dropWhile isBlank

/-- The text without the white space in front of it and behind it. -/
def trim (text : List Char) : List Char := (skipBlank (skipBlank text).reverse).reverse

/-! ## Cutting -/

/-- The number of bytes that characters take in UTF-8. -/
def sizeOfChars : List Char → Nat
  | [] => 0
  | c :: rest => c.utf8Size + sizeOfChars rest

/-- The longest beginning that takes at most `width` bytes. -/
def cut (width : Nat) : List Char → List Char
  | [] => []
  | c :: rest => if c.utf8Size ≤ width then c :: cut (width - c.utf8Size) rest else []

theorem cut_isPrefix (width : Nat) (text : List Char) : cut width text <+: text := by
  induction text generalizing width with
  | nil => exact List.prefix_refl []
  | cons c rest ih =>
    rw [cut]
    split
    · exact List.cons_prefix_cons.2 ⟨rfl, ih _⟩
    · exact List.nil_prefix

theorem size_cut_le (width : Nat) (text : List Char) : sizeOfChars (cut width text) ≤ width := by
  induction text generalizing width with
  | nil => exact Nat.zero_le _
  | cons c rest ih =>
    rw [cut]
    split
    next h =>
      have := ih (width - c.utf8Size)
      simp only [sizeOfChars] at this ⊢
      omega
    · exact Nat.zero_le _

/-- A beginning that is longer than the cut does not fit. -/
theorem size_lt_of_isPrefix {width : Nat} {text longer : List Char} (h : longer <+: text)
    (hlen : (cut width text).length < longer.length) : width < sizeOfChars longer := by
  induction text generalizing width longer with
  | nil =>
    rw [List.prefix_nil.1 h] at hlen
    exact absurd hlen (Nat.not_lt_zero _)
  | cons c rest ih =>
    cases longer with
    | nil => exact absurd hlen (Nat.not_lt_zero _)
    | cons d more =>
      obtain ⟨rfl, hmore⟩ := List.cons_prefix_cons.1 h
      rw [cut] at hlen
      simp only [sizeOfChars]
      split at hlen
      next hfit =>
        have := ih hmore (Nat.lt_of_succ_lt_succ hlen)
        omega
      · omega

theorem cut_of_size_le {width : Nat} {text : List Char} (h : sizeOfChars text ≤ width) :
    cut width text = text := by
  refine (cut_isPrefix width text).eq_of_length_le (Nat.le_of_not_lt fun hlt => ?_)
  exact Nat.not_lt.2 h (size_lt_of_isPrefix (List.prefix_refl text) hlt)

/-! ## Splitting -/

/-- The text in front of the last occurrence of a character, and the text behind it. -/
def splitLast? (mark : Char) : List Char → Option (List Char × List Char)
  | [] => none
  | c :: rest =>
    match splitLast? mark rest with
    | some (front, back) => some (c :: front, back)
    | none => if c = mark then some ([], rest) else none

theorem splitLast?_eq_none_iff {mark : Char} {text : List Char} :
    splitLast? mark text = none ↔ mark ∉ text := by
  induction text with
  | nil => simp [splitLast?]
  | cons c rest ih =>
    rw [splitLast?, List.mem_cons, not_or, ← ih]
    cases hs : splitLast? mark rest with
    | none => simp [eq_comm]
    | some parts => simp

theorem splitLast?_eq_some_iff {mark : Char} {text front back : List Char} :
    splitLast? mark text = some (front, back) ↔
      text = front ++ mark :: back ∧ mark ∉ back := by
  induction text generalizing front with
  | nil => simp [splitLast?]
  | cons c rest ih =>
    rw [splitLast?]
    constructor
    · intro h
      split at h
      next f b hs =>
        cases h
        obtain ⟨rfl, hb⟩ := ih.1 hs
        exact ⟨rfl, hb⟩
      next hs =>
        split at h
        next hc =>
          cases h
          exact ⟨by simp [hc], splitLast?_eq_none_iff.1 hs⟩
        · cases h
    · rintro ⟨heq, hb⟩
      cases front with
      | nil =>
        obtain ⟨rfl, rfl⟩ := List.cons.inj heq
        simp [splitLast?_eq_none_iff.2 hb]
      | cons d front =>
        obtain ⟨rfl, hrest⟩ := List.cons.inj heq
        simp [ih.2 ⟨hrest, hb⟩]

end MailOutline.Text
