import Mathlib

/-!
This module contains the self-delimiting integers in groups of seven bits, the most significant group
first: every byte but the last has its high bit set, and the first group is not zero.
-/

namespace Varint

-- The groups of `n`, all of them marked as continued. There are none for zero.
def continued (n : Nat) : List UInt8 :=
  if n = 0 then [] else continued (n / 128) ++ [UInt8.ofNat (n % 128 + 128)]
termination_by n
decreasing_by omega

def encode (n : Nat) : List UInt8 := continued (n / 128) ++ [UInt8.ofNat (n % 128)]

theorem and_low_bits (b : UInt8) : (b &&& 0x7f).toNat = b.toNat % 128 := by
  rw [UInt8.toNat_and]
  have hmask : (0x7f : UInt8).toNat = 2 ^ 7 - 1 := rfl
  rw [hmask, Nat.and_two_pow_sub_one_eq_mod]

theorem and_high_bit (b : UInt8) : b &&& 0x80 = 0 ↔ b.toNat < 128 := by
  have hlt := b.toNat_lt
  have hmask : (0x80 : UInt8).toNat = 2 ^ 7 := rfl
  have hbit : (b &&& 0x80).toNat = (b.toNat / 2 ^ 7) % 2 * 2 ^ 7 := by
    rw [UInt8.toNat_and, hmask, Nat.and_two_pow, Nat.testBit_eq_decide_div_mod_eq]
    rcases Nat.mod_two_eq_zero_or_one (b.toNat / 2 ^ 7) with h | h
    . rw [h]
      rfl
    . rw [h]
      rfl
  rw [← UInt8.toNat_inj, hbit]
  simp only [UInt8.toNat_zero]
  omega

theorem or_high_bit (b : UInt8) (h : b.toNat < 128) : b ||| 0x80 = UInt8.ofNat (b.toNat + 128) := by
  rw [← UInt8.toNat_inj, UInt8.toNat_or]
  have hmask : (0x80 : UInt8).toNat = 2 ^ 7 * 1 := rfl
  rw [hmask, Nat.or_comm, ← Nat.two_pow_add_eq_or_of_lt h]
  simp only [UInt8.toNat_ofNat']
  omega

theorem continued_zero : continued 0 = [] := by
  rw [continued]
  simp

theorem continued_of_pos {n : Nat} (h : 0 < n)
    : continued n = continued (n / 128) ++ [UInt8.ofNat (n % 128 + 128)] := by
  rw [continued, if_neg (by omega)]

theorem encode_ne_nil (n : Nat) : encode n ≠ [] := by
  simp [encode]

-- A group behind the groups of `v`: only a leading zero group is lost.
theorem continued_append {v : Nat} {b : UInt8} (hb : 128 ≤ b.toNat) (h : 0 < v ∨ b ≠ 0x80)
    : continued v ++ [b] = continued (v * 128 + b.toNat % 128) := by
  have hlt := b.toNat_lt
  have hpos : 0 < v * 128 + b.toNat % 128 := by
    rcases h with h | h
    . omega
    . have hne : b.toNat ≠ 128 := by
        intro heq
        apply h
        apply UInt8.toNat_inj.mp
        exact heq
      omega
  have hdiv : (v * 128 + b.toNat % 128) / 128 = v := by omega
  have hmod : (v * 128 + b.toNat % 128) % 128 + 128 = b.toNat := by omega
  rw [continued_of_pos hpos, hdiv, hmod, UInt8.ofNat_toNat]

theorem encode_append {v : Nat} {b : UInt8} (hb : b.toNat < 128)
    : continued v ++ [b] = encode (v * 128 + b.toNat % 128) := by
  have hdiv : (v * 128 + b.toNat % 128) / 128 = v := by omega
  have hmod : (v * 128 + b.toNat % 128) % 128 = b.toNat := by omega
  rw [encode, hdiv, hmod, UInt8.ofNat_toNat]

theorem toNat_ofNat_group (n : Nat) : (UInt8.ofNat (n % 128)).toNat = n % 128 := by
  simp only [UInt8.toNat_ofNat']
  omega

theorem toNat_ofNat_continued (n : Nat) : (UInt8.ofNat (n % 128 + 128)).toNat = n % 128 + 128 := by
  simp only [UInt8.toNat_ofNat']
  omega

theorem continued_bytes {n : Nat} {b : UInt8} (h : b ∈ continued n) : 128 ≤ b.toNat := by
  induction n using Nat.strongRecOn with
  | ind n ih =>
    rcases Nat.eq_zero_or_pos n with rfl | hpos
    . rw [continued_zero] at h
      simp at h
    . rw [continued_of_pos hpos] at h
      rcases List.mem_append.mp h with h | h
      . apply ih (n / 128) (by omega) h
      . rw [List.mem_singleton] at h
        rw [h, toNat_ofNat_continued]
        omega

theorem head?_continued_ne (n : Nat) : (continued n).head? ≠ some 0x80 := by
  induction n using Nat.strongRecOn with
  | ind n ih =>
    rcases Nat.eq_zero_or_pos n with rfl | hpos
    . simp [continued_zero]
    . rw [continued_of_pos hpos]
      rcases Nat.eq_zero_or_pos (n / 128) with hzero | hmore
      . rw [hzero, continued_zero]
        simp only [List.nil_append, List.head?_cons, ne_eq, Option.some.injEq]
        intro heq
        have hnat := congrArg UInt8.toNat heq
        rw [toNat_ofNat_continued] at hnat
        have hmask : (0x80 : UInt8).toNat = 128 := rfl
        omega
      . rw [List.head?_append_of_ne_nil]
        . apply ih (n / 128) (by omega)
        . rw [continued_of_pos hmore]
          simp

theorem head?_encode_ne (n : Nat) : (encode n).head? ≠ some 0x80 := by
  rw [encode]
  rcases Nat.eq_zero_or_pos (n / 128) with hzero | hmore
  . rw [hzero, continued_zero]
    simp only [List.nil_append, List.head?_cons, ne_eq, Option.some.injEq]
    intro heq
    have hnat := congrArg UInt8.toNat heq
    rw [toNat_ofNat_group] at hnat
    have hmask : (0x80 : UInt8).toNat = 128 := rfl
    omega
  . rw [List.head?_append_of_ne_nil]
    . apply head?_continued_ne
    . rw [continued_of_pos hmore]
      simp

end Varint
