import Tith.Exchange.Receive

/-!
This module contains what the receiver knows about the author of a bundle and of its payloads. A
signed container is verified under the origin that it carries itself, and only without one under the
origin of the bundle. Nothing compares the two.
-/

namespace Tith

/--
The container is verified under the identity `signer`: it is the one whose key was used.
-/
def VerifiedUnder (c : Crypto) (resolver : KeyResolver) (value : OwnedTlv) (signer : Identity)
    : Prop :=
  ∃ verified parts signature,
    verifySignedTlv c value (some signer) resolver = .ok verified ∧ verified.identity = signer ∧
      signedTlvParts value .allow = .ok parts ∧ signatureValue parts.signature = .ok signature ∧
      c.verifyTlv parts.signedData.value signature signer.publicKey = .ok true

/--
The container carries an origin that names another identity.
-/
def NamesOther (resolver : KeyResolver) (value : OwnedTlv) (origin : Identity) : Prop :=
  ∃ parts originTlv, signedTlvParts value .allow = .ok parts ∧ parts.origin = some originTlv ∧
    identity originTlv parts.publicKey resolver ≠ .ok origin

theorem verifySignedTlv_cases {c : Crypto} {resolver : KeyResolver} {value : OwnedTlv}
    {inherited : Option Identity} {verified : VerifiedSignedTlv}
    (h : verifySignedTlv c value inherited resolver = .ok verified)
    : ∃ parts signature, signedTlvParts value .allow = .ok parts ∧
        applicableIdentity parts inherited resolver = .ok verified.identity ∧
        signatureValue parts.signature = .ok signature ∧
        c.verifyTlv parts.signedData.value signature verified.identity.publicKey = .ok true ∧
        parseChildren parts.signedData.value = .ok verified.data ∧
        verified.encoded = value.encode := by
  simp only [verifySignedTlv, verifySignedTlvWithPolicy, Except.bind_ok_iff, Except.mapError_eq_ok] at h
  obtain ⟨parts, hparts, signer, hsigner, signature, hsignature, valid, hvalid, h⟩ := h
  split at h
  . cases h
  . next hvalid' =>
    simp only [not_not] at hvalid'
    simp only [Except.bind_ok_iff, Except.ok.injEq] at h
    obtain ⟨data, hdata, rfl⟩ := h
    exact ⟨parts, signature, hparts, hsigner, hsignature, hvalid' ▸ hvalid, hdata, rfl⟩

theorem verifiedUnder_iff {c : Crypto} {resolver : KeyResolver} {value : OwnedTlv} {origin : Identity}
    {verified : VerifiedSignedTlv}
    (h : verifySignedTlv c value (some origin) resolver = .ok verified)
    : (VerifiedUnder c resolver value origin ↔ ¬NamesOther resolver value origin) ∧
        (verified.identity = origin ↔ ¬NamesOther resolver value origin) := by
  obtain ⟨parts, signature, hparts, hsigner, hsignature, hvalid, _, _⟩ := verifySignedTlv_cases h
  have hidentity : verified.identity = origin ↔ ¬NamesOther resolver value origin := by
    unfold applicableIdentity at hsigner
    cases horigin : parts.origin with
    | none =>
      simp only [horigin, Option.okOr_some, Except.ok.injEq] at hsigner
      refine ⟨?_, fun _ => hsigner.symm⟩
      rintro _ ⟨parts', originTlv, hparts', horigin', _⟩
      rw [hparts] at hparts'
      injection hparts' with heq
      rw [← heq, horigin] at horigin'
      cases horigin'
    | some originTlv =>
      simp only [horigin] at hsigner
      constructor
      . rintro hsame ⟨parts', originTlv', hparts', horigin', hother⟩
        rw [hparts] at hparts'
        injection hparts' with heq
        subst heq
        rw [horigin] at horigin'
        injection horigin' with heq
        subst heq
        exact hother (hsame ▸ hsigner)
      . intro hnot
        by_contra hne
        apply hnot
        refine ⟨parts, originTlv, hparts, horigin, ?_⟩
        rw [hsigner]
        intro heq
        exact hne (Except.ok.inj heq)
  refine ⟨?_, hidentity⟩
  rw [← hidentity]
  constructor
  . rintro ⟨verified', _, _, hverified', hsame, _⟩
    rw [h] at hverified'
    injection hverified' with heq
    rw [heq, hsame]
  . rintro rfl
    exact ⟨verified, parts, signature, h, rfl, hparts, hsignature, hvalid⟩

theorem identity_key {addressTlv : OwnedTlv} {publicKeyTlv : Option OwnedTlv} {resolver : KeyResolver}
    {result : Identity} (h : identity addressTlv publicKeyTlv resolver = .ok result)
    : addressValue addressTlv = .ok result.address ∧
        (result.address.isAnonymous = true →
          ∃ keyTlv, publicKeyTlv = some keyTlv ∧ publicKeyValue keyTlv = .ok result.publicKey) ∧
        (result.address.isAnonymous = false → resolver result.address = some result.publicKey) := by
  simp only [identity, Except.bind_ok_iff] at h
  obtain ⟨address, haddress, h⟩ := h
  split at h
  . next hanonymous =>
    simp only [Except.bind_ok_iff, Option.okOr_eq_ok, Except.ok.injEq] at h
    obtain ⟨keyTlv, hkeyTlv, key, hkey, rfl⟩ := h
    exact ⟨haddress, fun _ => ⟨keyTlv, hkeyTlv, hkey⟩, by simp [hanonymous]⟩
  . next hnamed =>
    simp only [Except.bind_ok_iff, Option.okOr_eq_ok, Except.ok.injEq] at h
    obtain ⟨key, hkey, rfl⟩ := h
    exact ⟨haddress, by simp [hnamed], fun _ => hkey⟩

namespace Bundle

/--
The origin and the header of a bundle, as they are found in front of every verification.
-/
def outer (encoded : List UInt8) (resolver : KeyResolver) : Except BundleError (Identity × OwnedTlv) := do
  let top ← parseChildren encoded
  let (origin, _, rest) ← takeOuterOrigin top resolver .prohibited
  let (_, header, _) ← takeHeader rest
  .ok (origin, header)

/--
The key of the origin is the one behind an anonymous origin, and the resolved one of any other.
-/
def OriginKey (encoded : List UInt8) (resolver : KeyResolver) (origin : Identity) : Prop :=
  ∃ originTlv rest, parseChildren encoded = .ok (originTlv :: rest) ∧
    addressValue originTlv = .ok origin.address ∧
    (origin.address.isAnonymous = true →
      ∃ keyTlv, rest.head? = some keyTlv ∧ publicKeyValue keyTlv = .ok origin.publicKey) ∧
    (origin.address.isAnonymous = false → resolver origin.address = some origin.publicKey)

theorem originKey_of_identity {encoded : List UInt8} {originTlv : OwnedTlv} {rest : List OwnedTlv}
    {keyTlv : Option OwnedTlv} {resolver : KeyResolver} {origin : Identity}
    (htop : parseChildren encoded = .ok (originTlv :: rest))
    (hnext : ∀ value ∈ keyTlv, rest.head? = some value)
    (h : identity originTlv keyTlv resolver = .ok origin)
    : OriginKey encoded resolver origin := by
  obtain ⟨haddress, hkey, hresolved⟩ := identity_key h
  refine ⟨originTlv, rest, htop, haddress, ?_, hresolved⟩
  intro hanonymous
  obtain ⟨value, hvalue, hpublicKey⟩ := hkey hanonymous
  exact ⟨value, hnext value hvalue, hpublicKey⟩

theorem takeOuterOrigin_prohibited {encoded : List UInt8} {top rest : List OwnedTlv}
    {resolver : KeyResolver} {origin : Identity} {advertised : Option PublicKey}
    (htop : parseChildren encoded = .ok top)
    (h : takeOuterOrigin top resolver .prohibited = .ok (origin, advertised, rest))
    : OriginKey encoded resolver origin := by
  unfold takeOuterOrigin at h
  split at h
  . cases h
  . next originTlv values =>
    split at h
    . cases h
    . simp only [Except.bind_ok_iff] at h
      obtain ⟨address, haddress, h⟩ := h
      -- The key is only looked for right behind the origin.
      split at h
      . next value rest' hanonymous =>
        split at h
        . cases h
        . simp only [Except.bind_ok_iff, Except.ok.injEq, Prod.mk.injEq] at h
          obtain ⟨_, hidentity, rfl, _, _⟩ := h
          exact originKey_of_identity htop (by simp) hidentity
      . cases h
      . next hnamed =>
        simp only [Except.bind_ok_iff, Except.ok.injEq, Prod.mk.injEq] at h
        obtain ⟨_, hidentity, rfl, _, _⟩ := h
        exact originKey_of_identity htop (by simp) hidentity
      . next value rest' hnamed =>
        split at h
        . simp only [Except.bind_ok_iff] at h
          obtain ⟨_, _, h⟩ := h
          cases h
        . simp only [Except.bind_ok_iff, Except.ok.injEq, Prod.mk.injEq] at h
          obtain ⟨_, hidentity, rfl, _, _⟩ := h
          exact originKey_of_identity htop (by simp) hidentity

theorem parseInternal_outer {c : Crypto} {encoded : List UInt8} {resolver : KeyResolver}
    {allowHeaderOnly : Bool} {bundle : Bundle}
    (h : parseInternal c encoded resolver .prohibited allowHeaderOnly = .ok bundle)
    : OriginKey encoded resolver bundle.origin ∧
        ∃ header, outer encoded resolver = .ok (bundle.origin, header) ∧
          verifySignedTlv c header (some bundle.origin) resolver = .ok bundle.header := by
  simp only [parseInternal, Except.bind_ok_iff, Prod.exists] at h
  obtain ⟨top, htop, origin, advertised, rest, horigin, skipped, headerTlv, values, hheader, header,
    hverified, _, _, _, _, _, _, _, _, _, h⟩ := h
  split at h
  . cases h
  . injection h with h
    subst h
    refine ⟨takeOuterOrigin_prohibited htop horigin, headerTlv, ?_, hverified⟩
    simp [outer, htop, horigin, hheader]

end Bundle

theorem valid_not_mem_dataErrors (item : ValidatedItem) (requests : List OwnedTlv)
    : .valid item ∉ dataErrors requests := by
  simp [dataErrors]

theorem receivePayload_verified {c : Crypto} {value : OwnedTlv} {origin : Identity}
    {headerHash : TlvHash} {resolver : KeyResolver} {received : ReceivedPayload}
    (h : receivePayload c value origin headerHash resolver = .ok received)
    (hused : (∃ item, .valid item ∈ received.requests) ∨ received.responses ≠ [])
    : ∃ verified, verifySignedTlv c value (some origin) resolver = .ok verified := by
  -- A payload from which anything but data errors is taken has been verified.
  simp only [receivePayload, Except.bind_ok_iff, Except.mapError_eq_ok, Prod.exists] at h
  obtain ⟨_, _, data, authenticated, hdata, _, _, h⟩ := h
  unfold payloadData at hdata
  split at hdata
  . next verified hverified => exact ⟨verified, hverified⟩
  . simp only [Except.bind_ok_iff, Except.ok.injEq, Prod.mk.injEq] at hdata
    obtain ⟨_, _, _, rfl⟩ := hdata
    simp only [Bool.false_eq_true, not_false_eq_true, if_true] at h
    split at h
    . cases h
    . injection h with h
      subst h
      rcases hused with ⟨item, hitem⟩ | hresponses
      . exact absurd hitem (valid_not_mem_dataErrors item _)
      . exact absurd rfl hresponses
  . cases hdata

/--
The author of a bundle and of its payloads: what is accepted from an origin was verified under it
exactly if the signed container names no other.
-/
theorem bundle_and_payload_authentic_iff (c : Crypto) (resolver : KeyResolver)
    : (∀ encoded bundle,
        Bundle.parse c encoded resolver = .ok bundle ∨
          Bundle.parseHeaderPrefix c encoded resolver = .ok bundle →
        ∃ origin header, Bundle.outer encoded resolver = .ok (origin, header) ∧
          bundle.origin = origin ∧ Bundle.OriginKey encoded resolver origin ∧
          (VerifiedUnder c resolver header origin ↔ ¬NamesOther resolver header origin) ∧
          (bundle.header.identity = origin ↔ ¬NamesOther resolver header origin)) ∧
      (∀ value origin headerHash received,
        receivePayload c value origin headerHash resolver = .ok received →
        (∃ item, .valid item ∈ received.requests) ∨ received.responses ≠ [] →
        (VerifiedUnder c resolver value origin ↔ ¬NamesOther resolver value origin)) := by
  constructor
  . intro encoded bundle h
    obtain ⟨hkey, header, houter, hverified⟩ :
        Bundle.OriginKey encoded resolver bundle.origin ∧
          ∃ header, Bundle.outer encoded resolver = .ok (bundle.origin, header) ∧
            verifySignedTlv c header (some bundle.origin) resolver = .ok bundle.header := by
      rcases h with h | h
      . exact Bundle.parseInternal_outer h
      . exact Bundle.parseInternal_outer h
    have hiff := verifiedUnder_iff hverified
    exact ⟨bundle.origin, header, houter, rfl, hkey, hiff.1, hiff.2⟩
  . intro value origin headerHash received h hused
    obtain ⟨verified, hverified⟩ := receivePayload_verified h hused
    exact (verifiedUnder_iff hverified).1

namespace Impersonation

/--
Signatures that repeat the first byte of the key they were made with.
-/
def crypto : Crypto where
  verifyTlv := fun _ signature publicKey => .ok (signature[0] = publicKey[0])
  hashTlv := fun _ => .ok (Vector.replicate 32 0)
  hashInboundItem := fun _ => .ok (Vector.replicate 32 0)

/--
The receiver knows two nodes, each under its own key.
-/
def resolver : KeyResolver := fun address =>
  if address.display = "fidonet#1/1" then some (Vector.replicate 32 1)
  else if address.display = "fidonet#1/2" then some (Vector.replicate 32 2)
  else none

theorem length_nil_lt : ([] : List UInt8).length < 2 ^ 64 := by decide

def tlv (typeCode : UInt64) (value : List UInt8) : OwnedTlv :=
  if h : value.length < 2 ^ 64 then ⟨typeCode, value, h⟩ else ⟨typeCode, [], length_nil_lt⟩

/--
A header that the node `fidonet#1/2` has signed, and names as its origin.
-/
def header : OwnedTlv :=
  tlv Types.signedTlv (concatenate
    [ tlv Types.origin (Bytes.ofString "fidonet#1/2"),
      tlv Types.signedData (concatenate
        [ tlv Types.destination (Bytes.ofString "fidonet#1/1"),
          tlv Types.timestamp [1] ]),
      tlv Types.signature (List.replicate 64 2) ])

/--
The bundle that carries this header under the origin `fidonet#1/1`.
-/
def encoded : List UInt8 :=
  concatenate [tlv Types.origin (Bytes.ofString "fidonet#1/1"), header]

end Impersonation

/--
The receiver takes the bundle for one of the node `fidonet#1/1`, which has signed nothing of it.
-/
theorem embedded_origin_not_authentic
    : ¬∀ (c : Crypto) (resolver : KeyResolver) (encoded : List UInt8) (bundle : Bundle),
        Bundle.parse c encoded resolver = .ok bundle →
        ∃ header, Bundle.outer encoded resolver = .ok (bundle.origin, header) ∧
          VerifiedUnder c resolver header bundle.origin := by
  intro h
  have hother : ∀ outer ∈ (Bundle.outer Impersonation.encoded Impersonation.resolver).toOption,
      ∀ verified ∈ (verifySignedTlv Impersonation.crypto outer.2 (some outer.1)
        Impersonation.resolver).toOption,
      verified.identity ≠ outer.1 := by
    decide +kernel
  have haccepted : (Bundle.parse Impersonation.crypto Impersonation.encoded
      Impersonation.resolver).toOption.isSome := by
    decide +kernel
  cases hparse : Bundle.parse Impersonation.crypto Impersonation.encoded Impersonation.resolver with
  | error e =>
    rw [hparse] at haccepted
    cases haccepted
  | ok bundle =>
    obtain ⟨header, houter, verified, _, _, hverified, hsame, _⟩ := h _ _ _ _ hparse
    refine hother (bundle.origin, header) ?_ verified ?_ hsame
    . rw [houter]
      rfl
    . rw [hverified]
      rfl

end Tith
