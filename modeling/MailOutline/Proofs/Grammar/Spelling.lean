import MailOutline.Field.Step

/-!
# Bytes that spell ASCII

Runs of ASCII bytes are read as they are written: byte by byte a character, and digit by digit a
number.

* `Text.spelled`: the text of a run (`Text.ofBytes?_spelled`).
* `Text.decimal`: the number that a run of digits denotes (`Text.natOfDigits?_spelled`), and
  `Text.exists_digits`, the digits of a number.
* `Text.toNat_of_mem_utf8EncodeChar`: an ASCII byte is never a piece of another character.
-/

namespace MailOutline.Text

variable {run : List UInt8}

/-- The text with a character for each byte. -/
def spelled (run : List UInt8) : String := String.ofList (run.map Char.ofUInt8)

/-- The number that decimal digits denote. -/
def decimal (digits : List UInt8) : Nat :=
  digits.foldl (fun value digit => 10 * value + (digit.toNat - 0x30)) 0

theorem val_ofUInt8 (byte : UInt8) : (Char.ofUInt8 byte).val = byte.toUInt32 := rfl

theorem toNat_ofUInt8 (byte : UInt8) : (Char.ofUInt8 byte).toNat = byte.toNat :=
  UInt8.toNat_toUInt32 byte

theorem utf8EncodeChar_ofUInt8 {byte : UInt8} (h : byte < 0x80) :
    String.utf8EncodeChar (Char.ofUInt8 byte) = [byte] := by
  have hlt : byte.toNat < 128 := UInt8.lt_iff_toNat_lt.1 h
  have hsize : (Char.ofUInt8 byte).utf8Size = 1 := by
    rw [Char.utf8Size_eq_one_iff, UInt32.le_iff_toNat_le, val_ofUInt8, UInt8.toNat_toUInt32]
    exact Nat.le_of_lt_succ hlt
  rw [String.utf8EncodeChar_eq_singleton hsize, val_ofUInt8, UInt8.toUInt8_toUInt32]

theorem bytes_spelled (h : ∀ byte ∈ run, byte < 0x80) : bytes (spelled run) = run := by
  unfold bytes spelled
  rw [String.toByteArray_ofList]
  induction run with
  | nil => simp
  | cons byte rest ih =>
    rw [List.map_cons, List.utf8Encode_cons, List.utf8Encode_singleton,
      utf8EncodeChar_ofUInt8 (h byte List.mem_cons_self), ByteArray.data_append,
      Array.toList_append, ih fun b hb => h b (List.mem_cons_of_mem byte hb)]
    simp

theorem bytes_append (front back : String) : bytes (front ++ back) = bytes front ++ bytes back := by
  unfold bytes
  rw [String.toByteArray_append, ByteArray.data_append, Array.toList_append]

theorem bytes_ofList_cons (c : Char) (rest : List Char) :
    bytes (String.ofList (c :: rest)) = String.utf8EncodeChar c ++ bytes (String.ofList rest) := by
  unfold bytes
  rw [String.toByteArray_ofList, String.toByteArray_ofList, List.utf8Encode_cons,
    List.utf8Encode_singleton, ByteArray.data_append, Array.toList_append]
  simp

/-- **An ASCII byte stands for its own character**, never for a piece of another one. -/
theorem toNat_of_mem_utf8EncodeChar {c : Char} {byte : UInt8}
    (h : byte ∈ String.utf8EncodeChar c) (hascii : byte < 0x80) : c.toNat = byte.toNat := by
  have hlt : byte.toNat < 128 := UInt8.lt_iff_toNat_lt.1 hascii
  have hhigh : ∀ n, 128 ≤ n → n < 256 → byte ≠ UInt8.ofNat n := by
    rintro n hle hbound rfl
    rw [UInt8.toNat_ofNat'] at hlt
    omega
  rw [String.utf8EncodeChar.eq_1] at h
  simp only [Char.toNat_val] at h
  -- All bytes of a longer form have their highest bit set.
  split at h
  · rw [List.mem_singleton.1 h, UInt8.toNat_ofNat']
    omega
  · split at h
    · rcases List.mem_cons.1 h with h | h
      · exact absurd h (hhigh _ (by omega) (by omega))
      · exact absurd (List.mem_singleton.1 h) (hhigh _ (by omega) (by omega))
    · split at h
      · simp only [List.mem_cons, List.not_mem_nil, or_false] at h
        rcases h with h | h | h
        all_goals exact absurd h (hhigh _ (by omega) (by omega))
      · simp only [List.mem_cons, List.not_mem_nil, or_false] at h
        rcases h with h | h | h | h
        all_goals exact absurd h (hhigh _ (by omega) (by omega))

/-- **A run of ASCII bytes is the text that it spells.** -/
theorem ofBytes?_spelled (h : ∀ byte ∈ run, byte < 0x80) : ofBytes? run = some (spelled run) := by
  rw [ofBytes?_eq_some_iff, bytes_spelled h]

theorem toList_spelled (run : List UInt8) : (spelled run).toList = run.map Char.ofUInt8 :=
  String.toList_ofList

theorem isDigit_ofUInt8 (byte : UInt8) : (Char.ofUInt8 byte).isDigit = Field.isDigit byte := by
  rw [Bool.eq_iff_iff]
  simp [Char.isDigit, val_ofUInt8, Field.isDigit, UInt8.le_iff_toNat_le, UInt32.le_iff_toNat_le]

theorem all_isDigit_spelled (run : List UInt8) :
    (spelled run).toList.all Char.isDigit = run.all Field.isDigit := by
  rw [toList_spelled, List.all_map]
  exact congrArg run.all (funext isDigit_ofUInt8)

theorem ofDigitChars_spelled (run : List UInt8) :
    Nat.ofDigitChars 10 (spelled run).toList 0 = decimal run := by
  rw [toList_spelled, Nat.ofDigitChars_eq_foldl, List.foldl_map, decimal]
  refine congrArg (fun f => List.foldl f 0 run) (funext fun value => funext fun digit => ?_)
  rw [toNat_ofUInt8]
  rfl

/-- **A run of digits is the number that it denotes**, as far as this stays below the bound. -/
theorem natOfDigits?_spelled {bound n : Nat} :
    natOfDigits? bound (spelled run).toList = some n ↔
      run ≠ [] ∧ run.all Field.isDigit = true ∧ n < bound ∧ decimal run = n := by
  rw [natOfDigits?_eq_some_iff, all_isDigit_spelled, ofDigitChars_spelled, toList_spelled, ne_eq,
    List.map_eq_nil_iff]

/-- **The digits of a number**, byte by byte. -/
theorem exists_digits (n : Nat) :
    ∃ digits, Nat.repr n = spelled digits ∧ digits ≠ [] ∧ digits.all Field.isDigit = true ∧
      decimal digits = n := by
  have hdigit : ∀ c ∈ Nat.toDigits 10 n, c.isDigit = true := fun c hc =>
    Nat.isDigit_of_mem_toDigits (by decide) (by decide) hc
  have hsame : ∀ c ∈ Nat.toDigits 10 n, Char.ofUInt8 (UInt8.ofNat c.toNat) = c := by
    intro c hc
    have hrange := hdigit c hc
    rw [Char.isDigit, Bool.and_eq_true, decide_eq_true_eq, decide_eq_true_eq] at hrange
    have hle : c.toNat ≤ 57 := UInt32.le_iff_toNat_le.1 hrange.2
    rw [← Char.toNat_inj, toNat_ofUInt8, UInt8.toNat_ofNat']
    omega
  have hspelled : Nat.repr n =
      spelled ((Nat.toDigits 10 n).map fun c => UInt8.ofNat c.toNat) := by
    rw [Nat.repr_eq_ofList_toDigits, spelled, List.map_map]
    exact congrArg String.ofList ((List.map_id _).symm.trans
      (List.map_congr_left fun c hc => (hsame c hc).symm))
  refine ⟨_, hspelled, ?_, ?_, ?_⟩
  · rw [ne_eq, List.map_eq_nil_iff]
    exact Nat.toDigits_ne_nil
  · rw [← all_isDigit_spelled, ← hspelled, Nat.toList_repr, List.all_eq_true]
    exact hdigit
  · rw [← ofDigitChars_spelled, ← hspelled, Nat.toList_repr, Nat.ofDigitChars_ten_toDigits]

end MailOutline.Text
