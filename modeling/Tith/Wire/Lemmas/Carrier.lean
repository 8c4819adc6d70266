import Tith.Lib.StateExcept
import Tith.Wire.Carrier
import Tith.Wire.Lemmas.Tlv

/-!
This module contains the proofs that the values of an exchange are read back as they were written.
-/

namespace Tith

theorem parseChildren_concatenate {values : List OwnedTlv} (h : ∀ value ∈ values, value.typeCode ≠ 0)
    : parseChildren (concatenate values) = .ok values := by
  rw [parseChildren, Except.mapError_eq_ok, parseSequence_eq_ok]
  exact ⟨rfl, h⟩

theorem decodeU64_encodeU64 (value : UInt64) : decodeU64 (encodeU64 value) = .ok value := by
  have h := decodeU64Prefix_encodeU64 value []
  rw [List.append_nil] at h
  rw [decodeU64, h]
  simp

theorem publicKeyValue_toList {tlv : OwnedTlv} {key : PublicKey} (h : tlv.value = key.toList)
    : publicKeyValue tlv = .ok key := by
  rw [publicKeyValue, h, fixed_toList, Option.okOr_some]

theorem numberValue_encodeU64 {tlv : OwnedTlv} {number : UInt64} (h : tlv.value = encodeU64 number)
    : numberValue tlv = .ok number := by
  rw [numberValue, h, decodeU64_encodeU64]
  rfl

@[simp]
theorem typeCode_carrierValue (typeCode : UInt64) (value : List UInt8)
    : (carrierValue typeCode value).typeCode = typeCode := by
  unfold carrierValue
  split <;> rfl

theorem eq_carrierValue {tlv : OwnedTlv} {typeCode : UInt64} {value : List UInt8}
    (htype : tlv.typeCode = typeCode) (hvalue : tlv.value = value)
    : tlv = carrierValue typeCode value := by
  subst htype
  subst hvalue
  rw [carrierValue, dif_pos tlv.length_lt]

theorem length_encode_le (tlv : OwnedTlv) : tlv.encode.length ≤ 20 + tlv.value.length := by
  have htype := length_encodeU64_le tlv.typeCode
  have hlength := length_encodeU64_le (UInt64.ofNat tlv.value.length)
  simp only [OwnedTlv.encode, List.length_append]
  omega

theorem value_carrierValue (typeCode : UInt64) {value : List UInt8} (h : value.length < 2 ^ 64)
    : (carrierValue typeCode value).value = value := by
  rw [carrierValue, dif_pos h]

theorem parseChildren_carrierValue {typeCode : UInt64} {values : List OwnedTlv}
    (h : ∀ value ∈ values, value.typeCode ≠ 0) (hlength : (concatenate values).length < 2 ^ 64)
    : parseChildren (carrierValue typeCode (concatenate values)).value = .ok values := by
  rw [value_carrierValue typeCode hlength]
  exact parseChildren_concatenate h

namespace Cursor

theorem nextDefined_of_getElem {values : List OwnedTlv} {index : Nat} {value : OwnedTlv}
    (h : values[index]? = some value) (hdefined : Types.isDefined value.typeCode = true)
    : nextDefined ⟨values, index⟩ = some ((index, value), ⟨values, index + 1⟩) := by
  have hdrop : values.drop index = value :: values.drop (index + 1) := by
    obtain ⟨hlt, rfl⟩ := List.getElem?_eq_some_iff.mp h
    rw [List.drop_eq_getElem_cons hlt]
  simp [nextDefined, hdrop, nextDefined.go, hdefined]

theorem take_of_getElem {values : List OwnedTlv} {index : Nat} {value : OwnedTlv} {expected : UInt64}
    {name : String} (h : values[index]? = some value) (htype : value.typeCode = expected)
    (hdefined : Types.isDefined expected = true)
    : take expected name ⟨values, index⟩ = .ok ((index, value), ⟨values, index + 1⟩) := by
  subst htype
  simp [take, nextDefined_of_getElem h hdefined]

theorem optional_of_getElem {values : List OwnedTlv} {index : Nat} {value : OwnedTlv} {expected : UInt64}
    (h : values[index]? = some value) (htype : value.typeCode = expected)
    (hdefined : Types.isDefined expected = true)
    : optional expected ⟨values, index⟩ = .ok (some (index, value), ⟨values, index + 1⟩) := by
  subst htype
  simp [optional, nextDefined_of_getElem h hdefined]

theorem finish_of_length_le {values : List OwnedTlv} {index : Nat} (h : values.length ≤ index)
    : finish ⟨values, index⟩ = .ok ((), ⟨values, index⟩) := by
  simp [finish, nextDefined, List.drop_eq_nil_of_le h, nextDefined.go]

end Cursor

open Cursor

theorem takeNumber_of_getElem {values : List OwnedTlv} {index : Nat} {value : OwnedTlv}
    {expected number : UInt64} {name : String} (h : values[index]? = some value)
    (htype : value.typeCode = expected) (hdefined : Types.isDefined expected = true)
    (hvalue : value.value = encodeU64 number)
    : takeNumber expected name ⟨values, index⟩ = .ok (number, ⟨values, index + 1⟩) := by
  rw [takeNumber, StateExcept.bind_of_ok (take_of_getElem h htype hdefined)]
  exact StateExcept.lift_of_ok (numberValue_encodeU64 hvalue)

theorem value_identifier (identifier : UInt64)
    : (carrierValue Types.requestIdentifier (encodeU64 identifier)).value = encodeU64 identifier := by
  have hle := length_encodeU64_le identifier
  apply value_carrierValue
  omega

theorem value_vector (typeCode : UInt64) (v : Vector UInt8 32)
    : (carrierValue typeCode v.toList).value = v.toList := by
  apply value_carrierValue
  simp

-- The items of an exchange have few and short children.
theorem length_concatenate_le {bound : Nat} {values : List OwnedTlv}
    (h : ∀ value ∈ values, value.value.length ≤ bound)
    : (concatenate values).length ≤ values.length * (20 + bound) := by
  induction values with
  | nil => simp [concatenate]
  | cons value values ih =>
    have hfirst := h value (by simp)
    have hrest := ih (fun value hvalue => h value (by simp [hvalue]))
    have hencode := length_encode_le value
    simp only [concatenate, List.flatMap_cons, List.length_append, List.length_cons] at hrest ⊢
    rw [Nat.add_mul]
    omega

theorem parseChildren_short {typeCode : UInt64} {values : List OwnedTlv}
    (hnonzero : ∀ value ∈ values, value.typeCode ≠ 0) (hfew : values.length ≤ 8)
    (hshort : ∀ value ∈ values, value.value.length ≤ 64)
    : parseChildren (carrierValue typeCode (concatenate values)).value = .ok values := by
  apply parseChildren_carrierValue hnonzero
  have hle := length_concatenate_le hshort
  omega

theorem simpleRequest_carrierValue (typeCode identifier : UInt64) (kind : ItemKind)
    : simpleRequest
        (carrierValue typeCode (carrierValue Types.requestIdentifier (encodeU64 identifier)).encode)
        kind =
      .ok (.ofKind kind identifier
        (carrierValue typeCode
          (carrierValue Types.requestIdentifier (encodeU64 identifier)).encode)) := by
  have hencode : (carrierValue Types.requestIdentifier (encodeU64 identifier)).encode =
      concatenate [carrierValue Types.requestIdentifier (encodeU64 identifier)] := by
    simp [concatenate]
  have hlength := length_encodeU64_le identifier
  have hchildren : parseChildren (carrierValue typeCode
      (carrierValue Types.requestIdentifier (encodeU64 identifier)).encode).value =
        .ok [carrierValue Types.requestIdentifier (encodeU64 identifier)] := by
    rw [hencode]
    apply parseChildren_short
    . simp [Types.requestIdentifier]
    . simp
    . simp only [List.mem_singleton, forall_eq, value_identifier]
      omega
  have hnumber : takeNumber Types.requestIdentifier "RequestIdentifier"
      ⟨[carrierValue Types.requestIdentifier (encodeU64 identifier)], 0⟩ =
        .ok (identifier, ⟨[carrierValue Types.requestIdentifier (encodeU64 identifier)], 1⟩) := by
    apply takeNumber_of_getElem
    . rfl
    . simp
    . decide
    . apply value_identifier
  have hfinish : finish ⟨[carrierValue Types.requestIdentifier (encodeU64 identifier)], 1⟩ =
      .ok ((), ⟨[carrierValue Types.requestIdentifier (encodeU64 identifier)], 1⟩) := by
    apply finish_of_length_le
    simp
  rw [simpleRequest, Cursor.read, hchildren, Except.bind_of_ok, Cursor.new,
    StateExcept.bind_of_ok hnumber, StateExcept.bind_of_ok hfinish, StateExcept.pure_run]
  rfl

theorem validatePublicKeyRequest_publicKeyRequest (identifier : UInt64)
    : validatePublicKeyRequest (publicKeyRequest identifier) =
        .ok (.ofKind .publicKeyRequest identifier (publicKeyRequest identifier)) := by
  apply simpleRequest_carrierValue

theorem validateAccepted_acceptedPublicKey (identifier : UInt64) (responseTo : TlvHash)
    (publicKey : PublicKey)
    : validateAccepted (acceptedPublicKey identifier responseTo publicKey) =
        .ok { ValidatedItem.ofKind .accepted identifier
              (acceptedPublicKey identifier responseTo publicKey) with
          responseTo := some responseTo
          responsePublicKey := some publicKey } := by
  generalize hvalues : [ carrierValue Types.requestIdentifier (encodeU64 identifier),
    carrierValue Types.tlvHash responseTo.toList,
    carrierValue Types.publicKey publicKey.toList ] = values
  have hlength := length_encodeU64_le identifier
  have hchildren : parseChildren (acceptedPublicKey identifier responseTo publicKey).value =
      .ok values := by
    rw [acceptedPublicKey, hvalues]
    subst hvalues
    apply parseChildren_short
    . simp [Types.requestIdentifier, Types.tlvHash, Types.publicKey]
    . simp
    . simp only [List.mem_cons, List.not_mem_nil, or_false, forall_eq_or_imp, forall_eq,
        value_identifier, value_vector, Vector.length_toList]
      omega
  have hidentifier : takeNumber Types.requestIdentifier "Accepted RequestIdentifier" ⟨values, 0⟩ =
      .ok (identifier, ⟨values, 1⟩) := by
    have hfirst : values[0]? = some (carrierValue Types.requestIdentifier (encodeU64 identifier)) := by
      rw [← hvalues]
      rfl
    apply takeNumber_of_getElem hfirst
    . simp
    . decide
    . apply value_identifier
  have hhash : take Types.tlvHash "Accepted TLVHash" ⟨values, 1⟩ =
      .ok ((1, carrierValue Types.tlvHash responseTo.toList), ⟨values, 2⟩) := by
    apply take_of_getElem
    . rw [← hvalues]
      rfl
    . simp
    . decide
  have hkey : optional Types.publicKey ⟨values, 2⟩ =
      .ok (some (2, carrierValue Types.publicKey publicKey.toList), ⟨values, 3⟩) := by
    apply optional_of_getElem
    . rw [← hvalues]
      rfl
    . simp
    . decide
  have hfixed : (fixed 32 (carrierValue Types.tlvHash responseTo.toList).value).okOr
      (BundleError.wrongLength "TLVHash") = .ok responseTo := by
    rw [value_vector, fixed_toList, Option.okOr_some]
  have hpublicKey : publicKeyValue (carrierValue Types.publicKey publicKey.toList) = .ok publicKey :=
    publicKeyValue_toList (value_vector _ _)
  have hfinish : finish ⟨values, 3⟩ = .ok ((), ⟨values, 3⟩) := by
    apply finish_of_length_le
    rw [← hvalues]
    simp
  rw [validateAccepted, Cursor.read, hchildren, Except.bind_of_ok, Cursor.new,
    StateExcept.bind_of_ok hidentifier, StateExcept.bind_of_ok hhash]
  dsimp only
  rw [StateExcept.bind_of_ok (StateExcept.lift_of_ok hfixed), StateExcept.bind_of_ok hkey]
  dsimp only
  rw [StateExcept.bind_of_ok (StateExcept.lift_of_ok hpublicKey), pure_bind,
    StateExcept.bind_of_ok hfinish, StateExcept.pure_run]
  rfl

end Tith
