import Tith.Wire.Lemmas.Integer
import Tith.Wire.Tlv

/-!
This module contains the proof that a sequence of values has exactly one reading.
-/

namespace Tith

theorem length_toUInt64 (tlv : OwnedTlv)
    : (UInt64.ofNat tlv.value.length).toNat = tlv.value.length := by
  apply UInt64.toNat_ofNat_of_lt'
  apply tlv.length_lt

theorem requireDefinedType_eq_ok {typeCode : UInt64}
    : requireDefinedType typeCode = .ok () ↔ typeCode ≠ 0 := by
  unfold requireDefinedType
  split
  . next h => simp [h]
  . next h => simp [h]

theorem takeTlv_of_header {bytes rest : List UInt8} {tlv : OwnedTlv} {typeLen lengthLen : Nat}
    (h : tlv.typeCode ≠ 0) (htype : decodeU64Prefix bytes = .ok (tlv.typeCode, typeLen))
    (hlength : decodeU64Prefix (bytes.drop typeLen) =
      .ok (UInt64.ofNat tlv.value.length, lengthLen))
    (hvalue : (bytes.drop typeLen).drop lengthLen = tlv.value ++ rest)
    : takeTlv bytes = .ok (tlv, rest) := by
  have hlen := length_toUInt64 tlv
  generalize UInt64.ofNat tlv.value.length = length at hlength hlen
  unfold takeTlv
  simp only [htype, requireDefinedType_eq_ok.mpr h, hlength, hvalue]
  rw [if_neg]
  . congr 2
    . apply OwnedTlv.ext
      . rfl
      . dsimp only
        rw [hlen, List.take_left]
    . rw [hlen, List.drop_left]
  . rw [hlen, List.length_append]
    omega

theorem takeTlv_encode {tlv : OwnedTlv} (h : tlv.typeCode ≠ 0) (rest : List UInt8)
    : takeTlv (tlv.encode ++ rest) = .ok (tlv, rest) := by
  apply takeTlv_of_header h
  . rw [OwnedTlv.encode, List.append_assoc, List.append_assoc]
    apply decodeU64Prefix_encodeU64
  . rw [OwnedTlv.encode, List.append_assoc, List.append_assoc, List.drop_left]
    apply decodeU64Prefix_encodeU64
  . rw [OwnedTlv.encode, List.append_assoc, List.append_assoc, List.drop_left, List.drop_left]

theorem takeTlv_ok {bytes rest : List UInt8} {tlv : OwnedTlv} (h : takeTlv bytes = .ok (tlv, rest))
    : bytes = tlv.encode ++ rest ∧ tlv.typeCode ≠ 0 := by
  unfold takeTlv at h
  split at h
  . cases h
  . next typeCode typeLen htype =>
    obtain ⟨hbytes, _⟩ := decodeU64Prefix_ok htype
    split at h
    . cases h
    . next hdefined =>
      dsimp only at h
      split at h
      . cases h
      . next length lengthLen hlength =>
        obtain ⟨hrest, _⟩ := decodeU64Prefix_ok hlength
        split at h
        . cases h
        . next hlong =>
          injection h with h
          injection h with htlv hend
          subst htlv
          constructor
          . have htake : ((bytes.drop typeLen).drop lengthLen |>.take length.toNat).length =
                length.toNat := by
              rw [List.length_take]
              omega
            unfold OwnedTlv.encode
            dsimp only
            rw [htake, UInt64.ofNat_toNat, ← hend]
            conv => lhs; rw [hbytes, hrest]
            rw [List.append_assoc, List.append_assoc, List.take_append_drop]
          . apply requireDefinedType_eq_ok.mp hdefined

theorem OwnedTlv.encode_ne_nil (tlv : OwnedTlv) : tlv.encode ≠ [] := by
  unfold OwnedTlv.encode
  simp [encodeU64_ne_nil]

theorem parseSequence_go_concatenate {values : List OwnedTlv} (h : ∀ value ∈ values, value.typeCode ≠ 0)
    {fuel : Nat} (hfuel : (concatenate values).length ≤ fuel)
    : parseSequence.go fuel (concatenate values) = .ok values := by
  induction values generalizing fuel with
  | nil =>
    unfold concatenate parseSequence.go
    rfl
  | cons value values ih =>
    have hsplit : concatenate (value :: values) = value.encode ++ concatenate values := by
      simp [concatenate]
    have htake := takeTlv_encode (h value (by simp)) (concatenate values)
    rw [hsplit] at hfuel ⊢
    rw [List.length_append] at hfuel
    -- A value has at least one byte, so that the fuel of the rest is enough.
    cases hbytes : value.encode with
    | nil => exact absurd hbytes value.encode_ne_nil
    | cons b bs =>
      rw [hbytes] at htake hfuel
      rw [List.cons_append] at htake ⊢
      rw [List.length_cons] at hfuel
      cases fuel with
      | zero => omega
      | succ fuel =>
        unfold parseSequence.go
        simp only [htake]
        rw [ih]
        . intro value' hmem
          apply h
          simp [hmem]
        . omega

theorem parseSequence_go_ok {fuel : Nat} {bytes : List UInt8} {values : List OwnedTlv}
    (h : parseSequence.go fuel bytes = .ok values)
    : concatenate values = bytes ∧ ∀ value ∈ values, value.typeCode ≠ 0 := by
  induction fuel generalizing bytes values with
  | zero =>
    unfold parseSequence.go at h
    split at h
    . injection h with h
      rw [← h]
      simp [concatenate]
    . cases h
    . next heq => cases heq
  | succ fuel ih =>
    unfold parseSequence.go at h
    split at h
    . injection h with h
      rw [← h]
      simp [concatenate]
    . next heq => cases heq
    . next b bs fuel' heq =>
      injection heq with heq
      subst heq
      split at h
      . cases h
      . next tlv rest htake =>
        obtain ⟨hbytes, hdefined⟩ := takeTlv_ok htake
        split at h
        . cases h
        . next values' hgo =>
          injection h with h
          subst h
          obtain ⟨hrest, hvalues⟩ := ih hgo
          constructor
          . rw [hbytes, ← hrest]
            simp [concatenate]
          . simp only [List.mem_cons, forall_eq_or_imp]
            exact ⟨hdefined, hvalues⟩

/--
The bytes of a sequence and its values determine each other.
-/
theorem parseSequence_eq_ok (bytes : List UInt8) (values : List OwnedTlv)
    : parseSequence bytes = .ok values ↔
        concatenate values = bytes ∧ ∀ value ∈ values, value.typeCode ≠ 0 := by
  constructor
  . intro h
    apply parseSequence_go_ok h
  . rintro ⟨rfl, h⟩
    apply parseSequence_go_concatenate h
    apply Nat.le_refl

end Tith
