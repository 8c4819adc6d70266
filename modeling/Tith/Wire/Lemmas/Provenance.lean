import Tith.Wire.Lemmas.Codec

/-!
This module contains the addresses of an item as they are built and read back: its origin, its signed
origin and its destination, each with the key behind it.
-/

namespace Tith

open Cursor StateExcept

def AddressPart.tlvs (part : AddressPart) : List OwnedTlv := part.value :: part.publicKey.toList

/--
The part says the address and the key. There is a key exactly if the address is anonymous.
-/
structure AddressPart.Says (part : AddressPart) (typeCode : UInt64) (address : Address)
    (key : Option PublicKey)
    : Prop where
  htype : part.value.typeCode = typeCode
  haddress : part.address = address
  value : addressValue part.value = .ok address
  anonymous : address.isAnonymous = key.isSome
  keyType : ∀ tlv ∈ part.publicKey, tlv.typeCode = Types.publicKey
  hkey : parseKey part.publicKey = .ok key

theorem isSome_embeddedKey (identity : Identity)
    : identity.address.isAnonymous = identity.embeddedKey.isSome := by
  unfold Identity.embeddedKey
  split <;> simp_all

theorem addressed_says {typeCode : UInt64} {address : Address} {key : Option PublicKey}
    {values : List OwnedTlv} (hanonymous : address.isAnonymous = key.isSome)
    (h : addressed typeCode address key = .ok values)
    : ∃ part : AddressPart, values = part.tlvs ∧ part.Says typeCode address key := by
  obtain ⟨addressTlv, htype, hvalue, ⟨rfl, rfl⟩ | ⟨publicKey, keyTlv, rfl, hkeyType, hkey, rfl⟩⟩ := addressed_ok h
  . exact ⟨⟨address, addressTlv, none⟩, rfl, htype, rfl, hvalue, hanonymous, by simp, rfl⟩
  . refine ⟨⟨address, addressTlv, some keyTlv⟩, rfl, htype, rfl, hvalue, hanonymous, by simpa using hkeyType, ?_⟩
    simp only [parseKey, hkey, Except.bind_of_ok]

theorem assigned_says {typeCode : UInt64} {address : Address} {tlv : OwnedTlv}
    (hlisted : address.isAnonymous = false)
    (h : assigned typeCode (Bytes.ofString address.display) = .ok tlv)
    : (⟨address, tlv, none⟩ : AddressPart).Says typeCode address none := by
  obtain ⟨htype, hvalue⟩ := assigned_ok h
  exact ⟨htype, rfl, addressValue_display hvalue, hlisted, by simp, rfl⟩

section Says

variable {part : AddressPart} {typeCode : UInt64} {address : Address} {key : Option PublicKey}
  {rest : List OwnedTlv}

theorem AddressPart.Says.publicKey_cases (h : part.Says typeCode address key)
    : (part.publicKey = none ∧ key = none) ∨
        ∃ tlv publicKey, part.publicKey = some tlv ∧ key = some publicKey ∧
          publicKeyValue tlv = .ok publicKey := by
  have hkey := h.hkey
  cases htlv : part.publicKey with
  | none =>
    rw [htlv] at hkey
    cases hkey
    exact .inl ⟨rfl, rfl⟩
  | some tlv =>
    rw [htlv] at hkey
    simp only [parseKey, Except.bind_ok_iff, Except.ok.injEq] at hkey
    obtain ⟨publicKey, hpublicKey, rfl⟩ := hkey
    exact .inr ⟨tlv, publicKey, rfl, rfl, hpublicKey⟩

theorem AddressPart.Says.kinds (h : part.Says typeCode address key)
    : Kinds [typeCode, Types.publicKey] part.tlvs := by
  intro tlv hmem
  rcases List.mem_cons.mp hmem with rfl | hmem
  . simp [h.htype]
  . simp [h.keyType tlv (Option.mem_toList.mp hmem)]

theorem AddressPart.Says.readsBack (h : part.Says typeCode address key)
    (hrest : Avoids [Types.publicKey] rest)
    : ReadsBack (readAddressPart part.value) part.publicKey.toList rest part := by
  intro values index hdrop
  apply readAddressPart_run.mpr
  refine ⟨by rw [h.haddress]; exact h.value, rfl, ?_⟩
  unfold conditionalPublicKey
  rw [h.haddress, h.anonymous]
  rcases h.publicKey_cases with ⟨hnone, rfl⟩ | ⟨tlv, publicKey, hsome, rfl, _⟩
  . rw [hnone] at hdrop ⊢
    have hfilter : (values[index]?).filter (·.typeCode = Types.publicKey) = none := by
      rw [Option.filter_eq_none_iff]
      intro tlv htlv
      rw [← List.head?_drop, hdrop] at htlv
      have hnot := (hrest tlv (by simpa using htlv)).2
      simpa using hnot
    dsimp only
    rw [hfilter]
    rfl
  . rw [hsome] at hdrop ⊢
    have htype := h.keyType tlv hsome
    have hfilter : (values[index]?).filter (·.typeCode = Types.publicKey) = some tlv := by
      rw [getElem?_of_drop hdrop]
      simp [htype]
    dsimp only
    rw [hfilter]
    rfl

theorem AddressPart.Says.readsBack_optional (h : part.Says typeCode address key)
    (hdefined : Types.isDefined typeCode = true) (hrest : Avoids [Types.publicKey] rest)
    : ReadsBack (optionalAddressPart typeCode) part.tlvs rest (some part) := by
  intro values index hdrop
  have hnext : values.drop (index + 1) = part.publicKey.toList ++ rest := by
    rw [← List.drop_drop, hdrop]
    rfl
  apply optionalAddressPart_run.mpr
  refine .inr ⟨(index, part.value), ⟨values, index + 1⟩, part,
    optional_of_getElem (getElem?_of_drop hdrop) h.htype hdefined, ?_, rfl⟩
  rw [h.readsBack hrest values (index + 1) hnext, AddressPart.tlvs, List.length_cons, Nat.add_assoc,
    Nat.add_comm 1]

theorem readsBack_optional_none (hrest : Avoids [typeCode] rest)
    : ReadsBack (optionalAddressPart typeCode) [] rest none := by
  intro values index hdrop
  apply optionalAddressPart_run.mpr
  exact .inl ⟨optional_eq_none (defined_of_avoids hdrop hrest), rfl⟩

theorem AddressPart.Says.parseIdentity (h : part.Says typeCode address key) {resolver : KeyResolver}
    {publicKey : PublicKey} (hkey : key = some publicKey ∨ key = none ∧ resolver address = some publicKey)
    : parseIdentity part.value part.publicKey resolver = .ok ⟨address, publicKey⟩ := by
  unfold Tith.parseIdentity
  rw [h.value, Except.bind_of_ok, h.anonymous]
  rcases h.publicKey_cases with ⟨hnone, rfl⟩ | ⟨tlv, found, hsome, rfl, hfound⟩
  . rcases hkey with hkey | ⟨_, hkey⟩
    . cases hkey
    . simp [hnone, hkey]
  . rcases hkey with hkey | ⟨hkey, _⟩
    . cases hkey
      simp [hsome, hfound]
    . cases hkey

end Says

/--
The addresses in front of an item: its origin, and its signed origin if another node has signed it.
-/
structure ProvenanceParts where
  origin : AddressPart
  signedOrigin : Option AddressPart

def ProvenanceParts.tlvs (parts : ProvenanceParts) : List OwnedTlv :=
  parts.origin.tlvs ++ (parts.signedOrigin.map AddressPart.tlvs).getD []

/--
The parts that are written for the provenance of a signer.
-/
inductive ProvenanceParts.Says : ProvenanceParts → Address → Identity → Prop where
  | origin {part : AddressPart} {signer : Identity}
      (h : part.Says Types.origin signer.address signer.embeddedKey)
      : ProvenanceParts.Says ⟨part, none⟩ signer.address signer
  | signedOrigin {part signedPart : AddressPart} {origin : Address} {signer : Identity}
      (hother : origin ≠ signer.address) (h : part.Says Types.origin origin none)
      (hsigned : signedPart.Says Types.signedOrigin signer.address signer.embeddedKey)
      : ProvenanceParts.Says ⟨part, some signedPart⟩ origin signer

theorem provenanceTlvs_says {provenance : ItemProvenance} {signer : Identity} {values : List OwnedTlv}
    (hsigner : provenance.signer = some signer) (h : provenanceTlvs provenance = .ok values)
    : ∃ parts : ProvenanceParts, values = parts.tlvs ∧ parts.Says provenance.origin signer := by
  unfold provenanceTlvs at h
  rw [hsigner, Option.okOr_some, Except.bind_of_ok] at h
  split at h
  . next heq =>
    obtain ⟨part, rfl, hpart⟩ := addressed_says (isSome_embeddedKey signer) h
    refine ⟨⟨part, none⟩, by simp [ProvenanceParts.tlvs], ?_⟩
    rw [heq]
    exact .origin hpart
  split at h
  . cases h
  next hother hlisted =>
  simp only [Except.bind_ok_iff, Except.ok.injEq] at h
  obtain ⟨originTlv, horigin, signedValues, hsigned, rfl⟩ := h
  obtain ⟨part, rfl, hpart⟩ := addressed_says (isSome_embeddedKey signer) hsigned
  have horiginPart := assigned_says (by simpa using hlisted) horigin
  exact ⟨⟨⟨provenance.origin, originTlv, none⟩, some part⟩, by simp [ProvenanceParts.tlvs, AddressPart.tlvs],
    .signedOrigin hother horiginPart hpart⟩

/--
The signer that a receiver finds: a key for the origin takes precedence over the signed origin.
-/
def effectiveSigner (origin : Address) (signer : Identity) (resolver : KeyResolver) : Identity :=
  if origin = signer.address then
    signer
  else
    match resolver origin with
    | some publicKey => { address := origin, publicKey }
    | none => signer

section Provenance

variable {parts : ProvenanceParts} {origin : Address} {signer : Identity} {resolver : KeyResolver}

theorem Resolves.key_cases (h : Resolves resolver signer)
    : signer.embeddedKey = some signer.publicKey ∨
        signer.embeddedKey = none ∧ resolver signer.address = some signer.publicKey := by
  unfold Identity.embeddedKey
  split
  . exact .inl rfl
  . next hlisted => exact .inr ⟨rfl, h (by simpa using hlisted)⟩

theorem AddressPart.Says.originPublicKey {part : AddressPart} {typeCode : UInt64} {address : Address}
    {key : Option PublicKey} (h : part.Says typeCode address key)
    : originPublicKey part resolver = .ok (key.or (resolver address)) := by
  unfold Tith.originPublicKey
  rw [h.value, Except.bind_of_ok, h.anonymous]
  rcases h.publicKey_cases with ⟨hnone, rfl⟩ | ⟨tlv, found, hsome, rfl, hfound⟩
  . simp [hnone]
  . simp [hsome, hfound]

theorem ProvenanceParts.Says.parseProvenance (h : parts.Says origin signer) (hresolves : Resolves resolver signer)
    : parseProvenance parts.origin parts.signedOrigin resolver =
        .ok (effectiveSigner origin signer resolver) := by
  cases h with
  | @origin part _ h =>
    have hkey : signer.embeddedKey.or (resolver signer.address) = some signer.publicKey := by
      rcases hresolves.key_cases with hkey | ⟨hkey, hresolver⟩
      . simp [hkey]
      . simp [hkey, hresolver]
    simp [Tith.parseProvenance, h.originPublicKey, hkey, effectiveSigner, h.haddress]
  | @signedOrigin part signedPart _ _ hother h hsigned =>
    have hidentity := hsigned.parseIdentity hresolves.key_cases
    have hkeyTlv : ∀ tlv ∈ signedPart.publicKey, ∃ key, publicKeyValue tlv = .ok key := by
      intro tlv htlv
      rcases hsigned.publicKey_cases with ⟨hnone, _⟩ | ⟨other, key, hsome, _, hkey⟩
      . rw [hnone] at htlv
        cases htlv
      . rw [hsome, Option.mem_def, Option.some.injEq] at htlv
        exact ⟨key, htlv ▸ hkey⟩
    unfold Tith.parseProvenance effectiveSigner
    rw [h.originPublicKey, Except.bind_of_ok, if_neg hother, Option.none_or]
    dsimp only
    rw [hsigned.value, Except.bind_of_ok]
    cases htlv : signedPart.publicKey with
    | none =>
      cases hkey : resolver origin with
      | none => simp [hidentity]
      | some key => simp [h.haddress]
    | some tlv =>
      obtain ⟨key, hkey⟩ := hkeyTlv tlv htlv
      cases hresolved : resolver origin with
      | none => simp [hkey, hidentity]
      | some found => simp [hkey, h.haddress]

end Provenance

section Readers

variable {parts : ProvenanceParts} {origin : Address} {signer : Identity} {rest : List OwnedTlv}

theorem ProvenanceParts.Says.kinds (h : parts.Says origin signer)
    : Kinds [Types.origin, Types.publicKey, Types.signedOrigin] parts.tlvs := by
  cases h with
  | origin h =>
    rw [ProvenanceParts.tlvs, Option.map_none, Option.getD_none, List.append_nil]
    exact h.kinds.mono (by decide)
  | signedOrigin _ h hsigned =>
    rw [ProvenanceParts.tlvs, Option.map_some, Option.getD_some]
    exact (h.kinds.mono (by decide)).append (hsigned.kinds.mono (by decide))

theorem ProvenanceParts.Says.originPart (h : parts.Says origin signer)
    : ∃ key, parts.origin.Says Types.origin origin key := by
  cases h with
  | origin h => exact ⟨_, h⟩
  | signedOrigin _ h _ => exact ⟨_, h⟩

theorem ProvenanceParts.Says.avoids (h : parts.Says origin signer) (hrest : Avoids [Types.publicKey] rest)
    : Avoids [Types.publicKey] ((parts.signedOrigin.map AddressPart.tlvs).getD [] ++ rest) := by
  cases h with
  | origin _ => exact hrest
  | signedOrigin _ _ hsigned => exact avoids_cons hsigned.htype (by decide) _

theorem ProvenanceParts.Says.readsBack_signedOrigin (h : parts.Says origin signer)
    (hrest : Avoids [Types.publicKey, Types.signedOrigin] rest)
    : ReadsBack (optionalAddressPart Types.signedOrigin) ((parts.signedOrigin.map AddressPart.tlvs).getD [])
        rest parts.signedOrigin := by
  cases h with
  | origin _ => exact readsBack_optional_none (hrest.mono (by decide))
  | signedOrigin _ _ hsigned => exact hsigned.readsBack_optional (by decide) (hrest.mono (by decide))

theorem ProvenanceParts.Says.signedOriginParts (h : parts.Says origin signer)
    : ∃ signedOrigin : SignedOriginParts, signedOrigin.Of parts.signedOrigin := by
  cases h with
  | origin _ => exact ⟨⟨none, none, []⟩, rfl⟩
  | @signedOrigin _ signedPart _ _ _ _ hsigned =>
    exact ⟨⟨some signedPart.address, signer.embeddedKey,
      signedPart.value.encode ++ (signedPart.publicKey.map OwnedTlv.encode).getD []⟩, rfl, hsigned.hkey, rfl⟩

section Destination

variable {destination : Option Identity} {values : List OwnedTlv}

theorem destinationTlvs_cases (h : destinationTlvs destination = .ok values)
    : (destination = none ∧ values = []) ∨
        ∃ (identity : Identity) (part : AddressPart), destination = some identity ∧ values = part.tlvs ∧
          part.Says Types.destination identity.address identity.embeddedKey := by
  cases destination with
  | none =>
    cases h
    exact .inl ⟨rfl, rfl⟩
  | some identity =>
    obtain ⟨part, hvalues, hpart⟩ := addressed_says (isSome_embeddedKey identity) h
    exact .inr ⟨identity, part, rfl, hvalues, hpart⟩

theorem kinds_destinationTlvs (h : destinationTlvs destination = .ok values)
    : Kinds [Types.destination, Types.publicKey] values := by
  rcases destinationTlvs_cases h with ⟨_, rfl⟩ | ⟨_, part, _, rfl, hpart⟩
  . simp [Kinds]
  . exact hpart.kinds

theorem avoids_destinationTlvs (h : destinationTlvs destination = .ok values)
    (hrest : Avoids [Types.publicKey, Types.signedOrigin] rest)
    : Avoids [Types.publicKey, Types.signedOrigin] (values ++ rest) := by
  rcases destinationTlvs_cases h with ⟨_, rfl⟩ | ⟨_, part, _, rfl, hpart⟩
  . exact hrest
  . exact avoids_cons hpart.htype (by decide) _

theorem readsBack_readDestination {resolver : KeyResolver} (h : destinationTlvs destination = .ok values)
    (hresolves : ∀ identity ∈ destination, Resolves resolver identity)
    (hrest : Avoids [Types.publicKey, Types.destination] rest)
    : ReadsBack (readDestination resolver) values rest destination := by
  intro children index hdrop
  rcases destinationTlvs_cases h with ⟨rfl, rfl⟩ | ⟨identity, part, rfl, rfl, hpart⟩
  . have hread : ReadsBack (optionalAddressPart Types.destination) [] rest none :=
      readsBack_optional_none (hrest.mono (by decide))
    exact readDestination_run.mpr ⟨none, hread children index hdrop, .inl ⟨rfl, rfl⟩⟩
  . have hread := hpart.readsBack_optional (by decide) (hrest.mono (by decide)) children index hdrop
    have hidentity := hpart.parseIdentity (hresolves identity rfl).key_cases
    exact readDestination_run.mpr ⟨some part, hread, .inr ⟨part, _, rfl, hidentity, rfl⟩⟩

end Destination

end Readers

end Tith
