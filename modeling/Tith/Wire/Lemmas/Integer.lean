import Tith.Lib.Varint
import Tith.Wire.Integer

/-!
This module contains the proof that the integers of the wire are canonical: reading takes exactly what
writing produces.
-/

namespace Tith

theorem toNat_group (value : UInt64) : (value &&& 0x7f).toUInt8.toNat = value.toNat % 128 := by
  rw [UInt64.toNat_toUInt8, UInt64.toNat_and]
  have hmask : (0x7f : UInt64).toNat = 2 ^ 7 - 1 := rfl
  rw [hmask, Nat.and_two_pow_sub_one_eq_mod]
  omega

theorem toNat_shift (value : UInt64) : (value >>> 7).toNat = value.toNat / 128 := by
  rw [UInt64.toNat_shiftRight]
  have hshift : (7 : UInt64).toNat % 64 = 7 := rfl
  rw [hshift, Nat.shiftRight_eq_div_pow]

theorem group_eq (value : UInt64) : (value &&& 0x7f).toUInt8 = UInt8.ofNat (value.toNat % 128) := by
  rw [← toNat_group, UInt8.ofNat_toNat]

theorem encodeU64_go_continued {slots : Nat} {value : UInt64} (hslots : value.toNat < 128 ^ slots)
    (hvalue : 0 < value.toNat)
    : ((encodeU64.go slots value).map (· ||| 0x80)).reverse = Varint.continued value.toNat := by
  induction slots generalizing value with
  | zero =>
    rw [Nat.pow_zero] at hslots
    omega
  | succ slots ih =>
    have hgroup : (value &&& 0x7f).toUInt8 ||| 0x80 = UInt8.ofNat (value.toNat % 128 + 128) := by
      rw [Varint.or_high_bit]
      . rw [toNat_group]
      . rw [toNat_group]
        omega
    rw [Varint.continued_of_pos hvalue]
    unfold encodeU64.go
    dsimp only
    split
    . next hzero =>
      have hdiv : value.toNat / 128 = 0 := by
        rw [← toNat_shift, hzero]
        rfl
      rw [hdiv, Varint.continued_zero, List.map_singleton, hgroup]
      rfl
    . next hmore =>
      have hpos : 0 < (value >>> 7).toNat := by
        apply Nat.pos_of_ne_zero
        intro hzero
        apply hmore
        apply UInt64.toNat_inj.mp
        exact hzero
      rw [List.map_cons, List.reverse_cons, ih _ hpos, hgroup, toNat_shift]
      rw [toNat_shift]
      rw [Nat.pow_succ] at hslots
      omega

theorem encodeU64_eq (value : UInt64) : encodeU64 value = Varint.encode value.toNat := by
  have hlt := value.toNat_lt
  unfold encodeU64 maxU64Bytes encodeU64.go
  dsimp only
  rw [Varint.encode]
  split
  . next hzero =>
    have hdiv : value.toNat / 128 = 0 := by
      rw [← toNat_shift, hzero]
      rfl
    rw [hdiv, Varint.continued_zero, group_eq]
    rfl
  . next hmore =>
    have hpos : 0 < (value >>> 7).toNat := by
      apply Nat.pos_of_ne_zero
      intro hzero
      apply hmore
      apply UInt64.toNat_inj.mp
      exact hzero
    rw [List.mapIdx_cons, List.reverse_cons]
    -- Only the group at the front of the loop is the last one that is written.
    have hmap : (encodeU64.go 9 (value >>> 7)).mapIdx
        (fun index group => if index + 1 = 0 then group else group ||| 0x80) =
          (encodeU64.go 9 (value >>> 7)).map (· ||| 0x80) := by
      simp [List.mapIdx_eq_iff]
    rw [hmap, encodeU64_go_continued _ hpos, toNat_shift, group_eq]
    . rfl
    . rw [toNat_shift]
      omega

theorem encodeU64_ne_nil (value : UInt64) : encodeU64 value ≠ [] := by
  rw [encodeU64_eq]
  apply Varint.encode_ne_nil

theorem checkedMul_of_lt {value : UInt64} (h : value.toNat * 128 < 2 ^ 64)
    : checkedMul value 128 = some (value * 128) := by
  unfold checkedMul
  rw [if_pos]
  exact h

theorem toNat_next {value : UInt64} (byte : UInt8) (h : value.toNat * 128 < 2 ^ 64)
    : (value * 128 + (byte &&& 0x7f).toUInt64).toNat = value.toNat * 128 + byte.toNat % 128 := by
  rw [UInt64.toNat_add, UInt64.toNat_mul, UInt8.toNat_toUInt64, Varint.and_low_bits]
  have hfactor : (128 : UInt64).toNat = 128 := rfl
  rw [hfactor]
  omega

theorem decodeU64Prefix_go_continued {n : Nat} (hn : n < 2 ^ 64) (rest : List UInt8) (index : Nat)
    : decodeU64Prefix.go (Varint.continued n ++ rest) index 0 =
        decodeU64Prefix.go rest (index + (Varint.continued n).length) (UInt64.ofNat n) := by
  induction n using Nat.strongRecOn generalizing rest index with
  | ind n ih =>
    rcases Nat.eq_zero_or_pos n with rfl | hpos
    . simp [Varint.continued_zero]
    . have hvalue : (UInt64.ofNat (n / 128)).toNat = n / 128 := by
        apply UInt64.toNat_ofNat_of_lt'
        have hsize : UInt64.size = 2 ^ 64 := rfl
        omega
      have hfit : (UInt64.ofNat (n / 128)).toNat * 128 < 2 ^ 64 := by omega
      rw [Varint.continued_of_pos hpos, List.append_assoc, ih (n / 128) (by omega) (by omega)]
      rw [List.singleton_append]
      conv => lhs; unfold decodeU64Prefix.go
      dsimp only
      rw [checkedMul_of_lt hfit]
      dsimp only
      rw [if_neg]
      . congr 1
        . rw [List.length_append, List.length_singleton]
          omega
        . apply UInt64.toNat_inj.mp
          rw [toNat_next _ hfit, hvalue, Varint.toNat_ofNat_continued]
          rw [UInt64.toNat_ofNat_of_lt' hn]
          omega
      . rw [Varint.and_high_bit, Varint.toNat_ofNat_continued]
        omega

theorem decodeU64Prefix_encodeU64 (value : UInt64) (rest : List UInt8)
    : decodeU64Prefix (encodeU64 value ++ rest) = .ok (value, (encodeU64 value).length) := by
  have hlt := value.toNat_lt
  have hvalue : (UInt64.ofNat (value.toNat / 128)).toNat = value.toNat / 128 := by
    apply UInt64.toNat_ofNat_of_lt'
    have hsize : UInt64.size = 2 ^ 64 := rfl
    omega
  have hfit : (UInt64.ofNat (value.toNat / 128)).toNat * 128 < 2 ^ 64 := by omega
  have hgo : decodeU64Prefix.go (encodeU64 value ++ rest) 0 0 =
      .ok (value, (encodeU64 value).length) := by
    rw [encodeU64_eq, Varint.encode, List.append_assoc, decodeU64Prefix_go_continued (by omega)]
    rw [List.singleton_append]
    unfold decodeU64Prefix.go
    dsimp only
    rw [checkedMul_of_lt hfit]
    dsimp only
    rw [if_pos]
    . congr 2
      . apply UInt64.toNat_inj.mp
        rw [toNat_next _ hfit, hvalue, Varint.toNat_ofNat_group]
        omega
      . rw [List.length_append, List.length_singleton]
        omega
    . rw [Varint.and_high_bit, Varint.toNat_ofNat_group]
      omega
  have hhead := Varint.head?_encode_ne value.toNat
  rw [← encodeU64_eq] at hhead
  revert hgo hhead
  cases hbytes : encodeU64 value with
  | nil => exact absurd hbytes (encodeU64_ne_nil value)
  | cons first bytes =>
    intro hgo hhead
    rw [List.head?_cons, ne_eq, Option.some.injEq] at hhead
    rw [List.cons_append] at hgo ⊢
    unfold decodeU64Prefix
    dsimp only
    rw [if_neg hhead, hgo]

theorem decodeU64Prefix_go_ok {bytes : List UInt8} {index used : Nat} {value result : UInt64}
    (hvalue : 0 < value.toNat ∨ bytes.head? ≠ some 0x80)
    (h : decodeU64Prefix.go bytes index value = .ok (result, used))
    : ∃ taken rest, bytes = taken ++ rest ∧ used = index + taken.length ∧
        Varint.continued value.toNat ++ taken = Varint.encode result.toNat := by
  induction bytes generalizing index value with
  | nil =>
    simp [decodeU64Prefix.go] at h
  | cons byte bytes ih =>
    unfold decodeU64Prefix.go at h
    split at h
    . cases h
    . next product hproduct =>
      unfold checkedMul at hproduct
      split at hproduct
      . next hfit =>
        have hfactor : (128 : UInt64).toNat = 128 := rfl
        rw [hfactor] at hfit
        injection hproduct with hproduct
        subst hproduct
        dsimp only at h
        have hnext := toNat_next byte hfit
        split at h
        . next hlast =>
          rw [Varint.and_high_bit] at hlast
          injection h with h
          injection h with hresult hused
          refine ⟨[byte], bytes, rfl, ?_, ?_⟩
          . rw [← hused, List.length_singleton]
          . rw [Varint.encode_append hlast, ← hresult, hnext]
        . next hmore =>
          rw [Varint.and_high_bit] at hmore
          have hbyte : 0 < value.toNat ∨ byte ≠ 0x80 := by simpa using hvalue
          have hgroups := Varint.continued_append (by omega) hbyte
          have hpos : 0 < (value * 128 + (byte &&& 0x7f).toUInt64).toNat := by
            rw [hnext]
            rcases hbyte with hbyte | hbyte
            . omega
            . have hne : byte.toNat ≠ 128 := by
                intro heq
                apply hbyte
                apply UInt8.toNat_inj.mp
                exact heq
              have hlt := byte.toNat_lt
              omega
          obtain ⟨taken, rest, hbytes, hused, htaken⟩ := ih (.inl hpos) h
          refine ⟨byte :: taken, rest, ?_, ?_, ?_⟩
          . rw [hbytes, List.cons_append]
          . rw [hused, List.length_cons]
            omega
          . rw [← htaken, hnext, ← hgroups, List.append_assoc, List.singleton_append]
      . cases hproduct

theorem decodeU64Prefix_ok {bytes : List UInt8} {value : UInt64} {used : Nat}
    (h : decodeU64Prefix bytes = .ok (value, used))
    : bytes = encodeU64 value ++ bytes.drop used ∧ used = (encodeU64 value).length := by
  unfold decodeU64Prefix at h
  split at h
  . cases h
  . next first rest =>
    split at h
    . cases h
    . next hfirst =>
      have hhead : (first :: rest).head? ≠ some 0x80 := by simpa using hfirst
      obtain ⟨taken, rest', hbytes, hused, htaken⟩ := decodeU64Prefix_go_ok (.inr hhead) h
      have hzero : (0 : UInt64).toNat = 0 := rfl
      rw [hzero, Varint.continued_zero, List.nil_append, ← encodeU64_eq] at htaken
      rw [Nat.zero_add] at hused
      rw [hbytes, hused, htaken, List.drop_left]
      exact ⟨rfl, rfl⟩

theorem decodeI64_range {bytes : List UInt8} {value : Int} (h : decodeI64 bytes = .ok value)
    : -2 ^ 63 ≤ value ∧ value < 2 ^ 63 := by
  unfold decodeI64 at h
  split at h
  . cases h
  . next mapped _ =>
    have hlt := mapped.toNat_lt
    dsimp only at h
    split at h
    . cases h
      omega
    . cases h
      omega

end Tith
