import Tith.Wire.Lemmas.Codec

/-!
This module contains the proof that the integer codecs are bijections between the words and their
canonical texts: each word has the one text that is accepted for it, nothing is lost in 64 bits, and
what follows a text is not looked at.
-/

namespace Tith

/--
The number the groups stand for, whatever its size.
-/
def groupsValue (bytes : List UInt8) (value : Nat) : Nat :=
  bytes.foldl (fun value byte => value * 128 + byte.toNat % 128) value

theorem checkedMul_eq_some {value product : UInt64} (h : checkedMul value 128 = some product)
    : value.toNat * 128 < 2 ^ 64 ∧ product = value * 128 := by
  unfold checkedMul at h
  split at h
  . next hfit =>
    injection h with h
    exact ⟨hfit, h.symm⟩
  . cases h

/--
A product that fits is a multiple of 128, so that there is room for the seven bits of a group.
-/
theorem checkedAdd_group {value product : UInt64} (byte : UInt8) (h : checkedMul value 128 = some product)
    : checkedAdd product (byte &&& 0x7f).toUInt64 = some (product + (byte &&& 0x7f).toUInt64) := by
  obtain ⟨hfit, rfl⟩ := checkedMul_eq_some h
  have hproduct : (value * 128).toNat = value.toNat * 128 := by
    rw [UInt64.toNat_mul]
    apply Nat.mod_eq_of_lt
    exact hfit
  unfold checkedAdd
  rw [if_pos]
  rw [hproduct, UInt8.toNat_toUInt64, Varint.and_low_bits]
  omega

theorem decodeU64Prefix_go_value {bytes : List UInt8} {index used : Nat} {value result : UInt64}
    (h : decodeU64Prefix.go bytes index value = .ok (result, used))
    : index < used ∧ result.toNat = groupsValue (bytes.take (used - index)) value.toNat := by
  induction bytes generalizing index value with
  | nil => simp [decodeU64Prefix.go] at h
  | cons byte bytes ih =>
    unfold decodeU64Prefix.go at h
    split at h
    . cases h
    . next product hproduct =>
      obtain ⟨hfit, rfl⟩ := checkedMul_eq_some hproduct
      have hnext := toNat_next byte hfit
      dsimp only at h
      split at h
      . injection h with h
        injection h with hresult hused
        refine ⟨by omega, ?_⟩
        have htaken : used - index = 1 := by omega
        rw [htaken, ← hresult, hnext]
        rfl
      . obtain ⟨hlt, hvalue⟩ := ih h
        refine ⟨by omega, ?_⟩
        have htaken : used - index = (used - (index + 1)) + 1 := by omega
        rw [hvalue, htaken, hnext]
        rfl

theorem decodeU64Prefix_value {bytes : List UInt8} {value : UInt64} {used : Nat}
    (h : decodeU64Prefix bytes = .ok (value, used)) : value.toNat = groupsValue (bytes.take used) 0 := by
  unfold decodeU64Prefix at h
  split at h
  . cases h
  . split at h
    . cases h
    . apply (decodeU64Prefix_go_value h).2

theorem decodeU64Prefix_iff {bytes : List UInt8} {value : UInt64} {used : Nat}
    : decodeU64Prefix bytes = .ok (value, used) ↔
        used = (encodeU64 value).length ∧ ∃ rest, bytes = encodeU64 value ++ rest := by
  constructor
  . intro h
    obtain ⟨hbytes, hused⟩ := decodeU64Prefix_ok h
    exact ⟨hused, bytes.drop used, hbytes⟩
  . rintro ⟨rfl, rest, rfl⟩
    apply decodeU64Prefix_encodeU64

theorem decodeU64_iff {bytes : List UInt8} {value : UInt64}
    : decodeU64 bytes = .ok value ↔ bytes = encodeU64 value := by
  constructor
  . intro h
    unfold decodeU64 at h
    split at h
    . cases h
    . next hprefixed =>
      split at h
      . next hall =>
        injection h with h
        subst h
        obtain ⟨hbytes, _⟩ := decodeU64Prefix_ok hprefixed
        rw [hall, List.drop_length, List.append_nil] at hbytes
        exact hbytes
      . cases h
  . rintro rfl
    apply decodeU64_encodeU64

theorem decodeI64_eq_ok {bytes : List UInt8} {value : Int}
    : decodeI64 bytes = .ok value ↔ ∃ mapped, decodeU64 bytes = .ok mapped ∧
        value = if mapped.toNat % 2 = 0 then ((mapped.toNat / 2 : Nat) : Int)
          else -((mapped.toNat / 2 : Nat) : Int) - 1 := by
  unfold decodeI64
  cases decodeU64 bytes with
  | error e => simp
  | ok mapped =>
    dsimp only
    simp only [and_one_eq_zero_iff, Except.ok.injEq, exists_eq_left']
    split
    . rw [Except.ok.injEq]
      omega
    . rw [Except.ok.injEq]
      omega

/--
The word an accepted text stands for is written back as the same text: the half and the parity of the
mapped word can be read off its value.
-/
theorem decodeI64_ok_unique {bytes bytes' : List UInt8} {value : Int}
    (h : decodeI64 bytes = .ok value) (h' : decodeI64 bytes' = .ok value) : bytes = bytes' := by
  obtain ⟨mapped, hmapped, hvalue⟩ := decodeI64_eq_ok.mp h
  obtain ⟨mapped', hmapped', hvalue'⟩ := decodeI64_eq_ok.mp h'
  have hsame : mapped = mapped' := by
    apply UInt64.toNat_inj.mp
    split at hvalue <;> split at hvalue' <;> omega
  rw [decodeU64_iff.mp hmapped, decodeU64_iff.mp hmapped', hsame]

theorem decodeI64_iff {bytes : List UInt8} {value : Int64}
    : decodeI64 bytes = .ok value.toInt ↔ bytes = encodeI64 value := by
  constructor
  . intro h
    exact decodeI64_ok_unique h (decodeI64_encodeI64 value)
  . rintro rfl
    apply decodeI64_encodeI64

theorem decodeI64_word {bytes : List UInt8} {value : Int} (h : decodeI64 bytes = .ok value)
    : ∃ word : Int64, word.toInt = value := by
  obtain ⟨hge, hlt⟩ := decodeI64_range h
  refine ⟨Int64.ofInt value, ?_⟩
  apply Int64.toInt_ofInt_of_le hge hlt

/--
The word that is written for a signed one: twice a nonnegative value, and the odd number below twice
the absolute value of a negative one.
-/
theorem encodeI64_mapped (value : Int64)
    : ∃ mapped, encodeI64 value = encodeU64 mapped ∧
        (mapped.toNat : Int) = if 0 ≤ value.toInt then 2 * value.toInt else -2 * value.toInt - 1 := by
  obtain ⟨mapped, hmapped, hvalue⟩ := decodeI64_eq_ok.mp (decodeI64_encodeI64 value)
  refine ⟨mapped, decodeU64_iff.mp hmapped, ?_⟩
  split at hvalue
  . rw [if_pos] <;> omega
  . rw [if_neg] <;> omega

/--
A text is accepted exactly when it is the text of the value returned, for both codecs; the decoder of a
prefix takes the text of one value and nothing of what follows; every multiplication that is not
refused leaves room for the next group, so that the value is the number the groups stand for; and the
mapping of signs is exact for every word.
-/
theorem integer_codecs_canonical
    : (∀ value bytes, decodeU64 bytes = .ok value ↔ bytes = encodeU64 value) ∧
      (∀ value used bytes, decodeU64Prefix bytes = .ok (value, used) ↔
        used = (encodeU64 value).length ∧ ∃ rest, bytes = encodeU64 value ++ rest) ∧
      (∀ value used bytes, decodeU64Prefix bytes = .ok (value, used) →
        value.toNat = groupsValue (bytes.take used) 0) ∧
      (∀ value product byte, checkedMul value 128 = some product →
        checkedAdd product (byte &&& 0x7f : UInt8).toUInt64 =
          some (product + (byte &&& 0x7f : UInt8).toUInt64)) ∧
      (∀ (value : Int64) bytes, decodeI64 bytes = .ok value.toInt ↔ bytes = encodeI64 value) ∧
      (∀ bytes result, decodeI64 bytes = .ok result → ∃ value : Int64, value.toInt = result) ∧
      (∀ value : Int64, ∃ mapped, encodeI64 value = encodeU64 mapped ∧
        (mapped.toNat : Int) = if 0 ≤ value.toInt then 2 * value.toInt else -2 * value.toInt - 1) := by
  refine ⟨?_, ?_, ?_, ?_, ?_, ?_, encodeI64_mapped⟩
  . intro value bytes
    apply decodeU64_iff
  . intro value used bytes
    apply decodeU64Prefix_iff
  . intro value used bytes h
    apply decodeU64Prefix_value h
  . intro value product byte h
    apply checkedAdd_group byte h
  . intro value bytes
    apply decodeI64_iff
  . intro bytes result h
    apply decodeI64_word h

end Tith
