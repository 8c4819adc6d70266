import Tith.Wire.Build
import Tith.Wire.Lemmas.Address
import Tith.Wire.Lemmas.Carrier

/-!
This module contains the proof that a bundle is read back as it was built.
-/

namespace Tith

/--
The receiver knows the key of the identity, unless the identity carries it.
-/
def Resolves (resolver : KeyResolver) (identity : Identity) : Prop :=
  identity.address.isAnonymous = false → resolver identity.address = some identity.publicKey

theorem assigned_ok {typeCode : UInt64} {value : List UInt8} {tlv : OwnedTlv}
    (h : assigned typeCode value = .ok tlv)
    : tlv.typeCode = typeCode ∧ tlv.value = value := by
  rw [assigned, Except.mapError_eq_ok] at h
  unfold OwnedTlv.new at h
  split at h
  . split at h
    . cases h
    . cases h
      exact ⟨rfl, rfl⟩
  . cases h

theorem encodeValues_ok {values : List OwnedTlv} {bytes : List UInt8}
    (h : encodeValues values = .ok bytes)
    : bytes = concatenate values ∧ parseChildren bytes = .ok values := by
  unfold encodeValues at h
  split at h
  . cases h
  . next hdefined =>
    cases h
    refine ⟨rfl, parseChildren_concatenate ?_⟩
    simpa using hdefined

theorem addressValue_display {tlv : OwnedTlv} {address : Address}
    (h : tlv.value = Bytes.ofString address.display)
    : addressValue tlv = .ok address := by
  simp only [addressValue, textValue, h, Bytes.toString?_ofString, Option.okOr_some, Except.bind_of_ok]
  rw [Address.fromStr_display]
  rfl

theorem addressed_ok {typeCode : UInt64} {address : Address} {key : Option PublicKey}
    {values : List OwnedTlv} (h : addressed typeCode address key = .ok values)
    : ∃ addressTlv, addressTlv.typeCode = typeCode ∧ addressValue addressTlv = .ok address ∧
        ((key = none ∧ values = [addressTlv]) ∨
          ∃ publicKey keyTlv, key = some publicKey ∧ keyTlv.typeCode = Types.publicKey ∧
            publicKeyValue keyTlv = .ok publicKey ∧ values = [addressTlv, keyTlv]) := by
  simp only [addressed, Except.bind_ok_iff] at h
  obtain ⟨addressTlv, haddress, h⟩ := h
  obtain ⟨htype, hvalue⟩ := assigned_ok haddress
  refine ⟨addressTlv, htype, addressValue_display hvalue, ?_⟩
  cases key with
  | none =>
    cases h
    exact .inl ⟨rfl, rfl⟩
  | some publicKey =>
    simp only [Except.bind_ok_iff] at h
    obtain ⟨keyTlv, hkey, h⟩ := h
    cases h
    obtain ⟨hkeyType, hkeyValue⟩ := assigned_ok hkey
    exact .inr ⟨publicKey, keyTlv, rfl, hkeyType, publicKeyValue_toList hkeyValue, rfl⟩

section Signed

variable {c : Crypto} {sign : SignTlv} {secret : SecretKey}

theorem signedTlvParts_of_children {value signedData signature : OwnedTlv}
    (htype : value.typeCode = Types.signedTlv) (hvalue : value.value = concatenate [signedData, signature])
    (hdata : signedData.typeCode = Types.signedData) (hsignature : signature.typeCode = Types.signature)
    : signedTlvParts value .allow = .ok ⟨none, none, signedData, signature⟩ := by
  have hparse : parseChildren value.value = .ok [signedData, signature] := by
    rw [hvalue]
    apply parseChildren_concatenate
    intro child hchild
    simp only [List.mem_cons, List.not_mem_nil, or_false] at hchild
    rcases hchild with rfl | rfl
    . rw [hdata]
      decide
    . rw [hsignature]
      decide
  have horigin : takeOrigin [signedData, signature] = .ok (none, none, [signedData, signature]) := by
    rw [takeOrigin, if_pos]
    rw [hdata]
    decide
  have hscan : scanSigned .allow [signedData, signature] none none =
      .ok (some signedData, some signature) := by
    rw [scanSigned, if_pos ⟨hdata, rfl⟩, scanSigned, if_neg (by simp), if_pos ⟨hsignature, by simp, rfl⟩]
    rfl
  unfold signedTlvParts
  rw [if_neg (by simp [htype]), hparse]
  simp only [Except.bind_of_ok, horigin, hscan, Option.okOr_some]

theorem typeCode_buildSignedTlv {data : List OwnedTlv} {value : OwnedTlv}
    (h : buildSignedTlv sign data none secret = .ok value)
    : value.typeCode = Types.signedTlv := by
  simp only [buildSignedTlv, Except.bind_ok_iff] at h
  obtain ⟨_, _, _, _, _, _, _, _, _, _, h⟩ := h
  exact (assigned_ok h).1

theorem typeCode_buildPayloads {headerHash : TlvHash} {payloadGroups : List (List OwnedTlv)}
    {values : List OwnedTlv} (h : buildPayloads sign secret headerHash payloadGroups = .ok values)
    : ∀ value ∈ values, value.typeCode = Types.signedTlv := by
  induction payloadGroups generalizing values with
  | nil =>
    cases h
    simp
  | cons group payloadGroups ih =>
    simp only [buildPayloads, Except.bind_ok_iff] at h
    obtain ⟨_, _, first, hfirst, rest, hrest, h⟩ := h
    cases h
    simpa [typeCode_buildSignedTlv hfirst] using ih hrest

theorem verifySignedTlv_built {data : List OwnedTlv} {value : OwnedTlv}
    (h : buildSignedTlv sign data none secret = .ok value) (identity : Identity) (resolver : KeyResolver)
    : ∃ signature, sign (concatenate data) secret = .ok signature ∧
        verifySignedTlv c value (some identity) resolver =
          ((c.verifyTlv (concatenate data) signature identity.publicKey).mapError .crypto >>=
            fun valid =>
              if ¬valid then .error .invalidSignature else .ok ⟨value.encode, identity, data⟩) := by
  -- A container that inherits its origin is verified under the key of that origin, and nothing else decides whether
  -- it is read.
  simp only [buildSignedTlv, Except.bind_ok_iff, Except.mapError_eq_ok] at h
  obtain ⟨bytes, hbytes, signature, hsign, inner, hinner, dataTlv, hdataTlv, signatureTlv,
    hsignatureTlv, h⟩ := h
  cases hinner
  obtain ⟨rfl, hparse⟩ := encodeValues_ok hbytes
  obtain ⟨hdataType, hdataValue⟩ := assigned_ok hdataTlv
  obtain ⟨hsignatureType, hsignatureValue⟩ := assigned_ok hsignatureTlv
  obtain ⟨htype, hvalue⟩ := assigned_ok h
  refine ⟨signature, hsign, ?_⟩
  rw [verifySignedTlv, verifySignedTlvWithPolicy,
    signedTlvParts_of_children htype hvalue hdataType hsignatureType]
  simp only [Except.bind_of_ok, applicableIdentity, Option.okOr_some, signatureValue, hsignatureValue,
    fixed_toList, hdataValue, hparse]

theorem verifySignedTlv_buildSignedTlv {identity : Identity} (hkey : KeyPair c sign secret identity.publicKey)
    {data : List OwnedTlv} {value : OwnedTlv} (h : buildSignedTlv sign data none secret = .ok value)
    (resolver : KeyResolver)
    : verifySignedTlv c value (some identity) resolver = .ok ⟨value.encode, identity, data⟩ := by
  obtain ⟨signature, hsign, hverify⟩ := verifySignedTlv_built h identity resolver
  rw [hverify, hkey _ _ hsign]
  rfl

theorem eq_of_verifySignedTlv {identity : Identity} {data : List OwnedTlv} {value : OwnedTlv}
    (h : buildSignedTlv sign data none secret = .ok value) {resolver : KeyResolver}
    {payload : VerifiedSignedTlv} (hpayload : verifySignedTlv c value (some identity) resolver = .ok payload)
    : payload = ⟨value.encode, identity, data⟩ := by
  obtain ⟨signature, _, hverify⟩ := verifySignedTlv_built h identity resolver
  rw [hverify, Except.bind_ok_iff] at hpayload
  obtain ⟨valid, _, hpayload⟩ := hpayload
  split at hpayload
  . cases hpayload
  . injection hpayload with hpayload
    exact hpayload.symm

/--
A verified payload of a bundle: the hash of the header, and a group of values behind it.
-/
def Carries (origin : Identity) (headerHash : TlvHash) (group : List OwnedTlv)
    (payload : VerifiedSignedTlv) : Prop :=
  payload.identity = origin ∧ payload.data = carrierValue Types.tlvHash headerHash.toList :: group

theorem takePayloads_buildPayloads {origin : Identity} (hkey : KeyPair c sign secret origin.publicKey)
    {headerHash : TlvHash} {payloadGroups : List (List OwnedTlv)} {values : List OwnedTlv}
    (h : buildPayloads sign secret headerHash payloadGroups = .ok values) (resolver : KeyResolver)
    : ∃ payloads, Bundle.takePayloads c origin resolver headerHash values = .ok (payloads, []) ∧
        List.Forall₂ (Carries origin headerHash) payloadGroups payloads := by
  induction payloadGroups generalizing values with
  | nil =>
    cases h
    exact ⟨[], rfl, .nil⟩
  | cons group payloadGroups ih =>
    simp only [buildPayloads, Except.bind_ok_iff] at h
    obtain ⟨hashTlv, hhash, first, hfirst, rest, hrest, h⟩ := h
    cases h
    obtain ⟨htype, hvalue⟩ := assigned_ok hhash
    have hverify := verifySignedTlv_buildSignedTlv hkey hfirst resolver
    obtain ⟨payloads, htake, hpayloads⟩ := ih hrest
    have hcheck : Bundle.checkHeaderHash ⟨first.encode, origin, hashTlv :: group⟩ headerHash =
        .ok () := by
      simp [Bundle.checkHeaderHash, htype, hvalue, fixed_toList]
    refine ⟨⟨first.encode, origin, hashTlv :: group⟩ :: payloads, ?_, .cons ⟨rfl, ?_⟩ hpayloads⟩
    . rw [Bundle.takePayloads, if_pos (typeCode_buildSignedTlv hfirst), hverify]
      simp only [Except.bind_of_ok, hcheck, htake]
    . rw [eq_carrierValue htype hvalue]

-- What the parser accepts of the payloads is what was built, whoever has signed it.
theorem carries_of_takePayloads {origin : Identity} {headerHash expectedHash : TlvHash}
    {payloadGroups : List (List OwnedTlv)} {values : List OwnedTlv}
    (h : buildPayloads sign secret headerHash payloadGroups = .ok values) {resolver : KeyResolver}
    {payloads : List VerifiedSignedTlv} {unknown : List OwnedTlv}
    (htake : Bundle.takePayloads c origin resolver expectedHash values = .ok (payloads, unknown))
    : List.Forall₂ (Carries origin headerHash) payloadGroups payloads := by
  induction payloadGroups generalizing values payloads unknown with
  | nil =>
    cases h
    cases htake
    exact .nil
  | cons group payloadGroups ih =>
    simp only [buildPayloads, Except.bind_ok_iff] at h
    obtain ⟨hashTlv, hhash, first, hfirst, rest, hrest, h⟩ := h
    cases h
    obtain ⟨htype, hvalue⟩ := assigned_ok hhash
    rw [Bundle.takePayloads, if_pos (typeCode_buildSignedTlv hfirst)] at htake
    simp only [Except.bind_ok_iff] at htake
    obtain ⟨payload, hpayload, _, _, result, hresult, htake⟩ := htake
    cases htake
    have hfirstPayload := eq_of_verifySignedTlv hfirst hpayload
    refine .cons ⟨?_, ?_⟩ (ih hrest hresult)
    . rw [hfirstPayload]
    . rw [hfirstPayload, eq_carrierValue htype hvalue]

end Signed

section Request

def asksForKey (payloadGroups : List (List OwnedTlv)) : Bool :=
  payloadGroups.any (fun group => group.any (·.typeCode = Types.publicKeyRequest))

/--
The request for a public key is the only value of the only group.
-/
def isDedicated (payloadGroups : List (List OwnedTlv)) : Bool :=
  match payloadGroups with
  | [[item]] => item.typeCode = Types.publicKeyRequest
  | _ => false

variable {origin : Identity} {headerHash : TlvHash} {payloadGroups : List (List OwnedTlv)}
  {payloads : List VerifiedSignedTlv}

theorem containsPublicKeyRequest_eq (h : List.Forall₂ (Carries origin headerHash) payloadGroups payloads)
    : Bundle.containsPublicKeyRequest payloads = asksForKey payloadGroups := by
  unfold Bundle.containsPublicKeyRequest asksForKey
  induction h with
  | nil => rfl
  | cons hcarries _ ih =>
    have hhash : (Types.tlvHash = Types.publicKeyRequest) = False := by decide
    rw [List.any_cons, List.any_cons, ih, hcarries.2, List.any_cons, typeCode_carrierValue]
    simp [hhash]

theorem isPublicKeyRequest_eq (h : List.Forall₂ (Carries origin headerHash) payloadGroups payloads)
    : Bundle.isPublicKeyRequest payloads = isDedicated payloadGroups := by
  cases h with
  | nil => rfl
  | @cons group payload _ _ hcarries hrest =>
    cases hrest with
    | nil =>
      rw [Bundle.isPublicKeyRequest, hcarries.2]
      match group with
      | [] => rfl
      | [item] => simp [isDedicated]
      | first :: second :: rest => simp [isDedicated]
    | cons _ _ =>
      match group with
      | [] => rfl
      | [item] => rfl
      | first :: second :: rest => rfl

end Request

end Tith
