import Tith.Lib.Text

/-!
This module contains the size of a text in bytes with the places where it can be cut, and the numbers of two digits.
-/

namespace Text

def byteSize (text : List Char) : Nat := (text.map Char.utf8Size).sum

@[simp]
theorem byteSize_nil : byteSize [] = 0 := rfl

@[simp]
theorem byteSize_cons (c : Char) (text : List Char) : byteSize (c :: text) = c.utf8Size + byteSize text := by
  simp [byteSize]

@[simp]
theorem byteSize_append (first second : List Char)
    : byteSize (first ++ second) = byteSize first + byteSize second := by
  simp [byteSize]

theorem utf8ByteSize_eq_byteSize (text : String) : text.utf8ByteSize = byteSize text.toList := by
  rw [← String.size_toByteArray, ← String.utf8Encode_toList]
  simp [List.utf8Encode, byteSize, List.length_flatMap, String.length_utf8EncodeChar]

/--
A character ends behind this number of bytes, or the text begins there.
-/
def Boundary (text : List Char) (bytes : Nat) : Prop :=
  ∃ front back, text = front ++ back ∧ byteSize front = bytes

theorem byteSize_eq_zero {text : List Char} : byteSize text = 0 ↔ text = [] := by
  cases text with
  | nil => simp
  | cons c text =>
    have := c.utf8Size_pos
    simp only [byteSize_cons, reduceCtorEq, iff_false]
    omega

theorem boundary_append {first second : List Char} {bytes : Nat}
    : Boundary (first ++ second) (byteSize first + bytes) ↔ Boundary second bytes := by
  constructor
  . rintro ⟨front, back, htext, hsize⟩
    rcases List.append_eq_append_iff.mp htext with ⟨middle, rfl, rfl⟩ | ⟨middle, rfl, rfl⟩
    . rw [byteSize_append] at hsize
      exact ⟨middle, back, rfl, by omega⟩
    . rw [byteSize_append] at hsize
      obtain rfl := byteSize_eq_zero.mp (by omega : byteSize middle = 0)
      exact ⟨[], second, rfl, by rw [byteSize_nil]; omega⟩
  . rintro ⟨front, back, rfl, rfl⟩
    exact ⟨first ++ front, back, by rw [List.append_assoc], byteSize_append _ _⟩

/-!
Two digits.
-/

def TwoDigits (text : List Char) (n : Nat) : Prop :=
  ∃ tens < 10, ∃ units < 10, text = [Nat.digitChar tens, Nat.digitChar units] ∧ n = 10 * tens + units

theorem digits?_eq_some {text : List Char} {n : Nat}
    : digits? text = some n ↔ text ≠ [] ∧ text.all Char.isDigit = true ∧ n = Nat.ofDigitChars 10 text 0 := by
  unfold digits?
  split
  . next h =>
    simp [h, eq_comm]
  . next h =>
    simp only [reduceCtorEq, false_iff]
    rintro ⟨hne, hall, -⟩
    exact h ⟨hne, hall⟩

theorem isDigit_iff {c : Char} : c.isDigit = true ↔ ∃ d < 10, c = Nat.digitChar d := by
  constructor
  . intro h
    refine ⟨c.toNat - '0'.toNat, ?_, (digitChar_of_isDigit h).symm⟩
    simp only [Char.isDigit, Bool.and_eq_true, decide_eq_true_eq] at h
    have hle : c.toNat ≤ 57 := h.2
    change c.toNat - 48 < 10
    omega
  . rintro ⟨d, hd, rfl⟩
    interval_cases d <;> rfl

theorem twoDigits_iff {text : List Char} {n : Nat}
    : TwoDigits text n ↔ text.length = 2 ∧ digits? text = some n := by
  constructor
  . rintro ⟨tens, htens, units, hunits, rfl, rfl⟩
    refine ⟨rfl, ?_⟩
    rw [digits?_eq_some]
    refine ⟨by simp, ?_, ?_⟩
    . simp [isDigit_iff.mpr ⟨tens, htens, rfl⟩, isDigit_iff.mpr ⟨units, hunits, rfl⟩]
    . rw [Nat.ofDigitChars_cons, Nat.ofDigitChars_cons, Nat.ofDigitChars_nil, Nat.toNat_digitChar_of_lt_ten htens,
        Nat.toNat_digitChar_of_lt_ten hunits]
      change 10 * tens + units = 10 * (10 * 0 + (48 + tens - 48)) + (48 + units - 48)
      omega
  . rintro ⟨hlength, h⟩
    obtain ⟨first, second, rfl⟩ := List.length_eq_two.mp hlength
    obtain ⟨-, hall, rfl⟩ := digits?_eq_some.mp h
    simp only [List.all_cons, List.all_nil, Bool.and_true, Bool.and_eq_true] at hall
    obtain ⟨tens, htens, rfl⟩ := isDigit_iff.mp hall.1
    obtain ⟨units, hunits, rfl⟩ := isDigit_iff.mp hall.2
    refine ⟨tens, htens, units, hunits, rfl, ?_⟩
    rw [Nat.ofDigitChars_cons, Nat.ofDigitChars_cons, Nat.ofDigitChars_nil, Nat.toNat_digitChar_of_lt_ten htens,
      Nat.toNat_digitChar_of_lt_ten hunits]
    change 10 * (10 * 0 + (48 + tens - 48)) + (48 + units - 48) = 10 * tens + units
    omega

theorem byteSize_of_digits {text : List Char} (h : text.all Char.isDigit = true) : byteSize text = text.length := by
  induction text with
  | nil => rfl
  | cons c text ih =>
    rw [List.all_cons, Bool.and_eq_true] at h
    obtain ⟨d, hd, rfl⟩ := isDigit_iff.mp h.1
    have hsize : (Nat.digitChar d).utf8Size = 1 := by
      interval_cases d <;> rfl
    rw [byteSize_cons, hsize, ih h.2, List.length_cons]
    omega

theorem stripPlus_of_digits {text : List Char} (h : text.all Char.isDigit = true) : stripPlus text = text := by
  unfold stripPlus
  split
  . simp at h
  . rfl

theorem TwoDigits.lt {text : List Char} {n : Nat} (h : TwoDigits text n) : n < 100 := by
  obtain ⟨tens, htens, units, hunits, -, rfl⟩ := h
  omega

theorem TwoDigits.digits {text : List Char} {n : Nat} (h : TwoDigits text n)
    : text.all Char.isDigit = true :=
  (digits?_eq_some.mp (twoDigits_iff.mp h).2).2.1

theorem digits?_digitChar {n : Nat} (h : n < 10) : digits? [Nat.digitChar n] = some n := by
  interval_cases n <;> rfl

theorem stripPlus_cases (text : List Char)
    : (∃ rest, text = '+' :: rest ∧ stripPlus text = rest) ∨ stripPlus text = text := by
  unfold stripPlus
  split
  . next rest => exact .inl ⟨rest, rfl, rfl⟩
  . exact .inr rfl

end Text
