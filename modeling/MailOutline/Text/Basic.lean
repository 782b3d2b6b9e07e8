/-!
# Texts

What a text is made of. Its bytes are those of UTF-8, a number in it is a run of decimal digits, and
its letters may be compared without regard to case. MIME types, parameter names, zone names and
`NIL` are compared in this way, with `A` to `Z` equal to `a` to `z`. Every other character stands
for itself only, so `É` and `é` differ here.

* `bytes`: the UTF-8 form of a text.
* `ofBytes?`: the text that a list of bytes spells, when the bytes are UTF-8. `ofBytes?_bytes` and
  `ofBytes?_eq_some_iff` say that it reads exactly what `bytes` writes.
* `natOfDigits?`: reads a non-empty run of digits whose value stays below a bound
  (`natOfDigits?_eq_some_iff`).
* `padded`: a number with at least so many digits, zeros in front (`ofDigitChars_padded`).
* `lower`: the text with its ASCII letters in lower case.
* `sameLetters`: equality of two texts up to ASCII case, an equivalence (`sameLetters_refl`,
  `sameLetters_comm`, `sameLetters_trans`).
-/

namespace MailOutline.Text

/-! ## Bytes -/

/-- The UTF-8 bytes of a text. -/
def bytes (text : String) : List UInt8 := text.toByteArray.data.toList

/-- The text whose UTF-8 form is `bytes`, if there is one. -/
def ofBytes? (bytes : List UInt8) : Option String := String.fromUTF8? ⟨bytes.toArray⟩

theorem ofBytes?_bytes (text : String) : ofBytes? (bytes text) = some text := by
  simp [ofBytes?, bytes, String.fromUTF8?, text.isValidUTF8, String.fromUTF8]

theorem ofBytes?_eq_some_iff {input : List UInt8} {text : String} :
    ofBytes? input = some text ↔ input = bytes text := by
  constructor
  · intro h
    simp only [ofBytes?, String.fromUTF8?] at h
    split at h
    · simp only [Option.some.injEq] at h
      simp [← h, bytes, String.fromUTF8]
    · simp at h
  · rintro rfl
    exact ofBytes?_bytes text

/-! ## Decimal digits -/

/-- Reads digits, at least one, whose value is below `bound`. -/
def natOfDigits? (bound : Nat) (digits : List Char) : Option Nat :=
  let value := Nat.ofDigitChars 10 digits 0
  if digits ≠ [] ∧ digits.all Char.isDigit ∧ value < bound then some value else none

theorem natOfDigits?_eq_some_iff {bound n : Nat} {digits : List Char} :
    natOfDigits? bound digits = some n ↔
      digits ≠ [] ∧ digits.all Char.isDigit ∧ n < bound ∧ Nat.ofDigitChars 10 digits 0 = n := by
  simp only [natOfDigits?, Option.ite_none_right_eq_some, Option.some.injEq]
  constructor
  · rintro ⟨⟨hne, hall, hlt⟩, rfl⟩
    exact ⟨hne, hall, hlt, rfl⟩
  · rintro ⟨hne, hall, hlt, rfl⟩
    exact ⟨⟨hne, hall, hlt⟩, rfl⟩

/-- The decimal digits of `n`, with zeros in front of them up to `width` digits. -/
def padded (width n : Nat) : String :=
  let digits := Nat.toDigits 10 n
  String.ofList (List.replicate (width - digits.length) '0' ++ digits)

theorem ofDigitChars_padded (width n : Nat) :
    Nat.ofDigitChars 10 (padded width n).toList 0 = n := by
  simp [padded, Nat.ofDigitChars_append, Nat.ofDigitChars_replicate_zero,
    Nat.ofDigitChars_ten_toDigits]

/-! ## Letters up to ASCII case -/

/-- The text with `A` to `Z` replaced by `a` to `z`. -/
def lower (text : String) : String := text.map Char.toLower

/-- Equality up to the case of ASCII letters. -/
def sameLetters (a b : String) : Bool := lower a == lower b

theorem sameLetters_iff {a b : String} : sameLetters a b = true ↔ lower a = lower b := by
  simp [sameLetters]

theorem sameLetters_refl (a : String) : sameLetters a a = true := sameLetters_iff.2 rfl

theorem sameLetters_comm (a b : String) : sameLetters a b = sameLetters b a := by
  simp [sameLetters, Bool.beq_comm]

theorem sameLetters_trans {a b c : String} (hab : sameLetters a b = true)
    (hbc : sameLetters b c = true) : sameLetters a c = true :=
  sameLetters_iff.2 ((sameLetters_iff.1 hab).trans (sameLetters_iff.1 hbc))

theorem toList_lower (text : String) : (lower text).toList = text.toList.map Char.toLower := by
  simp [lower]

/-- Letter by letter, which can be evaluated. -/
theorem sameLetters_iff_toList {a b : String} :
    sameLetters a b = true ↔ a.toList.map Char.toLower = b.toList.map Char.toLower := by
  rw [sameLetters_iff, ← String.toList_inj, toList_lower, toList_lower]

theorem toLower_of_isDigit {c : Char} (h : c.isDigit = true) : c.toLower = c := by
  rw [Char.isDigit, Bool.and_eq_true, decide_eq_true_eq, decide_eq_true_eq] at h
  have hle : c.toNat ≤ 57 := UInt32.le_iff_toNat_le.1 h.2
  refine dif_neg fun hupper => ?_
  have hge : 65 ≤ c.toNat := UInt32.le_iff_toNat_le.1 hupper.1
  omega

end MailOutline.Text
