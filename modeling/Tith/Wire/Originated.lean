import Tith.Wire.Lemmas.Parse
import Tith.Wire.Lemmas.Provenance

/-!
This module contains the proof that an originated item is read back and validated as it was built.
-/

namespace Tith

open Cursor StateExcept

theorem drop_next {values part rest : List OwnedTlv} {index : Nat} (h : values.drop index = part ++ rest)
    : values.drop (index + part.length) = rest := by
  rw [← List.drop_drop, h, List.drop_left]

structure BuiltMessage (sign : SignTlv) (secret : SecretKey) (data : MessageData) (origin : Address)
    (signer : Identity) (suffix : MessageSuffix) (item : OwnedTlv) where
  parts : ProvenanceParts
  destination : List OwnedTlv
  words : List OwnedTlv
  controls : List OwnedTlv
  signature : Signature
  signatureTlv : OwnedTlv
  request : OwnedTlv
  via : OwnedTlv
  seenBy : List OwnedTlv
  kludges : List OwnedTlv
  hdata : validateOriginatedMessageData data = .ok ()
  hparts : parts.Says origin signer
  hdestination : destinationTlvs data.destination = .ok destination
  hwords : wordsTlvs data = .ok words
  hcontrols : controlsTlvs data = .ok controls
  hsign : sign (concatenate (parts.tlvs ++ destination ++ words ++ controls)) secret = .ok signature
  hsignature : assigned Types.signature signature.toList = .ok signatureTlv
  hrequest : numberTlv Types.requestIdentifier suffix.requestIdentifier = .ok request
  hvia : viaValue suffix.localVia suffix.viaTimestamp suffix.software = .ok via
  hseenBy : seenByValue suffix.seenBy = .ok seenBy
  hkludges : data.additionalKludgeLines.mapM kludgeTlv = .ok kludges
  hitem : item.typeCode = Types.message ∧
    item.value = concatenate (parts.tlvs ++ destination ++ words ++ controls ++ [signatureTlv] ++ [request] ++
      [via] ++ seenBy ++ kludges)

theorem buildOriginatedMessageForDelivery_ok {sign : SignTlv} {data : MessageData}
    {provenance : ItemProvenance} {secret : SecretKey} {localVia signer : Identity}
    {requestIdentifier viaTimestamp : UInt64} {software : String} {seenBy : List Address} {item : OwnedTlv}
    (hsigner : provenance.signer = some signer)
    (h : buildOriginatedMessageForDelivery sign data provenance secret localVia requestIdentifier viaTimestamp
      software seenBy = .ok item)
    : Nonempty (BuiltMessage sign secret data provenance.origin signer
        ⟨[], localVia, requestIdentifier, viaTimestamp, software, seenBy⟩ item) := by
  simp only [buildOriginatedMessageForDelivery, messageSignedChildren, signChildren, finishMessage,
    Except.bind_ok_iff, Except.mapError_eq_ok, Except.ok.injEq] at h
  obtain ⟨_, hdata, _, ⟨values, hvalues, destination, hdestination, words, hwords, controls, hcontrols, rfl⟩,
    _, ⟨signature, hsign, signatureTlv, hsignature, rfl⟩, request, hrequest, existing, hexisting, via, hvia,
    seen, hseen, kludges, hkludges, hitem⟩ := h
  obtain ⟨parts, rfl, hparts⟩ := provenanceTlvs_says hsigner hvalues
  cases hexisting
  obtain ⟨htype, hvalue⟩ := assigned_ok hitem
  refine ⟨⟨parts, destination, words, controls, signature, signatureTlv, request, via, seen, kludges, hdata,
    hparts, hdestination, hwords, hcontrols, hsign, hsignature, hrequest, hvia, hseen, hkludges, htype, ?_⟩⟩
  rw [hvalue]
  simp

section Message

variable {sign : SignTlv} {secret : SecretKey} {data : MessageData} {origin : Address} {signer : Identity}
  {suffix : MessageSuffix} {item : OwnedTlv} (built : BuiltMessage sign secret data origin signer suffix item)

def BuiltMessage.region : List OwnedTlv := built.parts.tlvs ++ built.destination ++ built.words ++ built.controls

def BuiltMessage.children : List OwnedTlv :=
  built.region ++ [built.signatureTlv] ++ [built.request] ++ [built.via] ++ built.seenBy ++ built.kludges

def regionTypes : List UInt64 :=
  [Types.origin, Types.publicKey, Types.signedOrigin, Types.destination] ++ wordsTypes ++ controlsTypes

theorem BuiltMessage.kinds_region : Kinds regionTypes built.region :=
  (((built.hparts.kinds.mono (by decide)).append
    ((kinds_destinationTlvs built.hdestination).mono (by decide))).append
    ((field_readWords built.hwords).kinds.mono (by decide))).append
    ((field_readControls built.hcontrols).kinds.mono (by decide))

theorem BuiltMessage.kinds_suffix
    : Kinds (Types.signature :: suffixTypes)
        ([built.signatureTlv] ++ [built.request] ++ [built.via] ++ built.seenBy ++ built.kludges) := by
  have hsingletons : Kinds (Types.signature :: suffixTypes)
      ([built.signatureTlv] ++ [built.request] ++ [built.via]) := by
    simp [Kinds, suffixTypes, (assigned_ok built.hsignature).1, (assigned_ok built.hrequest).1,
      (viaValue_ok built.hvia).1]
  have hseenBy := kinds_seenByValue built.hseenBy
  have hkludges := codec_kludge.kinds built.hkludges
  exact (hsingletons.append (hseenBy.mono (by decide))).append (hkludges.mono (by decide))

theorem BuiltMessage.children_eq
    : built.children = built.region ++
        ([built.signatureTlv] ++ [built.request] ++ [built.via] ++ built.seenBy ++ built.kludges) := by
  simp [BuiltMessage.children]

theorem BuiltMessage.parseChildren : parseChildren item.value = .ok built.children := by
  have hkinds : Kinds (regionTypes ++ Types.signature :: suffixTypes) built.children := by
    rw [built.children_eq]
    exact (built.kinds_region.mono (List.subset_append_left _ _)).append
      (built.kinds_suffix.mono (List.subset_append_right _ _))
  rw [built.hitem.2]
  apply parseChildren_concatenate
  exact hkinds.nonzero (by decide)

def BuiltMessage.signedTlvs : List OwnedTlv := (built.parts.signedOrigin.map AddressPart.tlvs).getD []

def BuiltMessage.unsigned : List OwnedTlv := [built.request] ++ ([built.via] ++ (built.seenBy ++ built.kludges))

def BuiltMessage.fromWords : List OwnedTlv :=
  built.words ++ (built.controls ++ ([built.signatureTlv] ++ built.unsigned))

theorem BuiltMessage.children_parts
    : built.children =
        built.parts.origin.tlvs ++ (built.signedTlvs ++ (built.destination ++ built.fromWords)) := by
  simp [BuiltMessage.children, BuiltMessage.region, BuiltMessage.signedTlvs, BuiltMessage.fromWords,
    BuiltMessage.unsigned, ProvenanceParts.tlvs]

-- Behind an address there is no key that is not its own, and no other address of its type.
theorem BuiltMessage.avoids_fromWords
    : Avoids [Types.publicKey, Types.signedOrigin, Types.destination] built.fromWords := by
  obtain ⟨hsignature, _⟩ := assigned_ok built.hsignature
  have hlast : Avoids [Types.publicKey, Types.signedOrigin, Types.destination]
      ([built.signatureTlv] ++ built.unsigned) := avoids_cons hsignature (by decide) _
  exact (field_readWords built.hwords).kinds.avoids_append (by decide)
    ((field_readControls built.hcontrols).kinds.avoids_append (by decide) hlast)

theorem BuiltMessage.readHead {resolver : KeyResolver}
    (hresolves : ∀ identity ∈ data.destination, Resolves resolver identity)
    : take Types.origin "Message Origin" (Cursor.new built.children) =
          .ok ((0, built.parts.origin.value), ⟨built.children, 1⟩) ∧
        readAddressPart built.parts.origin.value ⟨built.children, 1⟩ =
          .ok (built.parts.origin, ⟨built.children, built.parts.origin.tlvs.length⟩) ∧
        optionalAddressPart Types.signedOrigin ⟨built.children, built.parts.origin.tlvs.length⟩ =
          .ok (built.parts.signedOrigin, ⟨built.children, built.parts.tlvs.length⟩) ∧
        readDestination resolver ⟨built.children, built.parts.tlvs.length⟩ =
          .ok (data.destination, ⟨built.children, built.parts.tlvs.length + built.destination.length⟩) := by
  obtain ⟨key, horigin⟩ := built.hparts.originPart
  have hchildren : built.children.drop 0 =
      built.parts.origin.tlvs ++ (built.signedTlvs ++ (built.destination ++ built.fromWords)) :=
    built.children_parts
  have hkey : built.children.drop 1 = built.parts.origin.publicKey.toList ++
      (built.signedTlvs ++ (built.destination ++ built.fromWords)) := by
    rw [built.children_parts]
    rfl
  have hsigned := drop_next hchildren
  have hdestination := drop_next hsigned
  have hwords := built.avoids_fromWords
  have havoids := avoids_destinationTlvs built.hdestination (hwords.mono (by decide))
  rw [Nat.zero_add] at hsigned hdestination
  refine ⟨take_of_getElem (getElem?_of_drop hchildren) horigin.htype (by decide), ?_, ?_, ?_⟩
  . rw [horigin.readsBack (built.hparts.avoids (havoids.mono (by decide))) _ _ hkey]
    simp [AddressPart.tlvs, Nat.add_comm]
  . rw [built.hparts.readsBack_signedOrigin havoids _ _ hsigned]
    simp [ProvenanceParts.tlvs]
  . have hread := readsBack_readDestination built.hdestination hresolves (hwords.mono (by decide)) _ _ hdestination
    simpa [ProvenanceParts.tlvs, BuiltMessage.signedTlvs] using hread

theorem BuiltMessage.drop_words
    : built.children.drop (built.parts.tlvs.length + built.destination.length) = built.fromWords := by
  have hsplit : built.children = (built.parts.tlvs ++ built.destination) ++ built.fromWords := by
    rw [built.children_parts]
    simp [ProvenanceParts.tlvs, BuiltMessage.signedTlvs]
  rw [hsplit, ← List.length_append, List.drop_left]

theorem BuiltMessage.length_region
    : built.region.length =
        built.parts.tlvs.length + built.destination.length + built.words.length + built.controls.length := by
  simp [BuiltMessage.region, Nat.add_assoc]

theorem BuiltMessage.readBody
    : readWords ⟨built.children, built.parts.tlvs.length + built.destination.length⟩ =
          .ok (data.words, ⟨built.children,
            built.parts.tlvs.length + built.destination.length + built.words.length⟩) ∧
        readControls ⟨built.children,
            built.parts.tlvs.length + built.destination.length + built.words.length⟩ =
          .ok (data.controls, ⟨built.children, built.region.length⟩) := by
  obtain ⟨hsignature, _⟩ := assigned_ok built.hsignature
  have hwords := field_readWords built.hwords
  have hcontrols := field_readControls built.hcontrols
  have hlast : Avoids (Types.area :: controlsTypes) ([built.signatureTlv] ++ built.unsigned) :=
    avoids_cons hsignature (by decide) _
  have havoids : Avoids [Types.area] (built.controls ++ ([built.signatureTlv] ++ built.unsigned)) :=
    hcontrols.kinds.avoids_append (by decide) (hlast.mono (by decide))
  refine ⟨hwords.reads _ havoids _ _ built.drop_words, ?_⟩
  rw [built.length_region]
  exact hcontrols.reads _ (hlast.mono (by decide)) _ _ (drop_next built.drop_words)

theorem BuiltMessage.drop_region
    : built.children.drop built.region.length = [built.signatureTlv] ++ built.unsigned := by
  rw [built.length_region]
  exact drop_next (drop_next built.drop_words)

theorem BuiltMessage.drop_unsigned
    : built.children.drop (built.region.length + 1) = built.unsigned :=
  drop_next built.drop_region

theorem BuiltMessage.field_route (hplain : ∀ address ∈ suffix.seenBy, PlainDomain address.domain)
    : Field readMessageRoute [Types.via, Types.seenBy] [Types.via, Types.seenBy] ([built.via] ++ built.seenBy)
        ⟨[viaData suffix.localVia suffix.viaTimestamp suffix.software], sortedSet suffix.seenBy⟩ := by
  obtain ⟨hviaType, hvia⟩ := viaValue_ok built.hvia
  obtain ⟨result, hseenBy, hresult⟩ := field_seenByValue built.hseenBy hplain
  have hvias : Field (repeatedValues Types.via readVia) [Types.via] [Types.via] [built.via]
      [viaData suffix.localVia suffix.viaTimestamp suffix.software] :=
    field_repeated (by decide) (by simp [Kinds, hviaType]) (by simp [hvia])
  refine hvias.bind (hseenBy.last ?_) (by decide)
  rw [hresult]

def BuiltMessage.parse {resolver : KeyResolver}
    (hresolves : ∀ identity ∈ data.destination, Resolves resolver identity)
    (hplain : ∀ address ∈ suffix.seenBy, PlainDomain address.domain)
    : MessageParse resolver built.children where
  originEntry := (0, built.parts.origin.value)
  origin := built.parts.origin
  signedOrigin := built.parts.signedOrigin
  destination := data.destination
  words := data.words
  controls := data.controls
  index := built.region.length
  signatureTlv := built.signatureTlv
  requestIdentifier := suffix.requestIdentifier
  route := ⟨[viaData suffix.localVia suffix.viaTimestamp suffix.software], sortedSet suffix.seenBy⟩
  lines := data.additionalKludgeLines
  atOrigin := ⟨built.children, 1⟩
  afterOrigin := ⟨built.children, built.parts.origin.tlvs.length⟩
  afterSigned := ⟨built.children, built.parts.tlvs.length⟩
  afterHead := ⟨built.children, built.parts.tlvs.length + built.destination.length⟩
  afterWords := ⟨built.children, built.parts.tlvs.length + built.destination.length + built.words.length⟩
  afterControls := ⟨built.children, built.region.length⟩
  afterRequest := ⟨built.children, built.region.length + 1 + 1⟩
  afterRoute := ⟨built.children, built.region.length + 1 + 1 + ([built.via] ++ built.seenBy).length⟩
  afterLines := ⟨built.children,
    built.region.length + 1 + 1 + ([built.via] ++ built.seenBy).length + built.kludges.length⟩
  takeOrigin := (built.readHead hresolves).1
  readOrigin := (built.readHead hresolves).2.1
  readSigned := (built.readHead hresolves).2.2.1
  readDestination := (built.readHead hresolves).2.2.2
  readWords := built.readBody.1
  readControls := built.readBody.2
  foundSignature := optional_of_getElem (getElem?_of_drop built.drop_region)
    (assigned_ok built.hsignature).1 (by decide)
  readRequest := (field_takeNumber (by decide) built.hrequest).reads _
    (avoids_cons (viaValue_ok built.hvia).1 (by decide) _) _ _ built.drop_unsigned
  readRoute := by
    have hkludges := codec_kludge.kinds built.hkludges
    have hdrop := drop_next built.drop_unsigned
    rw [← List.append_assoc] at hdrop
    apply (built.field_route hplain).reads _ _ _ _ hdrop
    have havoids := hkludges.avoids_append (by decide) (Avoids.nil [Types.via, Types.seenBy])
    rwa [List.append_nil] at havoids
  readLines := by
    have hdrop := drop_next built.drop_unsigned
    rw [← List.append_assoc] at hdrop
    have hlines := drop_next hdrop
    apply (field_repeatedValues codec_kludge (by decide) built.hkludges).reads [] (Avoids.nil _)
    rw [List.append_nil]
    exact hlines
  finished := by
    have hdrop := drop_next built.drop_unsigned
    rw [← List.append_assoc] at hdrop
    have hlines := drop_next hdrop
    rw [← List.append_nil built.kludges] at hlines
    exact readsBack_finish _ _ (drop_next hlines)

theorem BuiltMessage.valid {resolver : KeyResolver}
    (hresolves : ∀ identity ∈ data.destination, Resolves resolver identity)
    (hplain : ∀ address ∈ suffix.seenBy, PlainDomain address.domain)
    : (built.parse hresolves hplain).Valid := by
  obtain ⟨key, horigin⟩ := built.hparts.originPart
  obtain ⟨hkind, htext, _⟩ := validateOriginatedMessageData_ok built.hdata
  refine ⟨?_, htext, hkind, controlsTlvs_valid built.hcontrols built.hdata, ?_⟩
  . rw [built.children_parts]
    simp [AddressPart.tlvs, horigin.htype]
  . intro line hline
    obtain ⟨tlv, htlv⟩ := Except.mapM_of_mem built.hkludges hline
    exact (kludgeTlv_ok htlv).1

theorem BuiltMessage.encodedPrefix : encodedPrefix built.children built.region.length = concatenate built.region := by
  rw [Tith.encodedPrefix, built.children_eq, List.take_left]

theorem BuiltMessage.verified {c : Crypto} {resolver : KeyResolver} (hresolves : Resolves resolver signer)
    (authenticated : Bool)
    (hverified : c.verifyTlv (concatenate built.region) built.signature
      (effectiveSigner origin signer resolver).publicKey = .ok authenticated)
    : VerifiedSigner c resolver built.children built.parts.origin built.parts.signedOrigin built.region.length
        built.signatureTlv (effectiveSigner origin signer resolver) built.signature authenticated where
  hsignature := by
    rw [signatureValue, (assigned_ok built.hsignature).2, fixed_toList, Option.okOr_some]
  hsigner := built.hparts.parseProvenance hresolves
  hverified := by
    rw [built.encodedPrefix]
    exact hverified

end Message

theorem readSignature_values {children : List OwnedTlv} {cursor next : Cursor}
    {result : Option Signature × List UInt8} (h : readSignature children cursor = .ok (result, next))
    : next.values = cursor.values := by
  simp only [readSignature, bind_run_iff] at h
  obtain ⟨entry, mid, hentry, h⟩ := h
  have hvalues := (passes_optional (List.mem_singleton.mpr rfl) hentry).values
  cases entry with
  | none =>
    simp only [pure_run_iff] at h
    rw [← h.2]
    exact hvalues
  | some entry =>
    simp only [bind_run_iff, lift_run_iff, pure_run_iff] at h
    obtain ⟨_, _, ⟨_, rfl⟩, _, rfl⟩ := h
    exact hvalues

theorem MessageReading.afterRequest_values {value : OwnedTlv} {resolver : KeyResolver}
    (reading : MessageReading value resolver)
    : reading.afterRequest.values = reading.children := by
  obtain ⟨entry, _, part, hentry, hpart, _⟩ := readOrigin_run.mp reading.readOrigin
  obtain ⟨_, hsigned, _⟩ := readSignedOrigin_run.mp reading.readSigned
  have hhead := (passes_take (List.mem_cons_self (a := Types.origin) (l := middleTypes)) hentry).trans <|
    (passes_readAddressPart (by decide) hpart).trans <|
    (passes_optionalAddressPart (by decide) (by decide) hsigned).trans
      (passes_readDestination (by decide) (by decide) reading.readDestination)
  have hbody := (passes_readWords reading.readWords).trans (passes_readControls reading.readControls)
  have hrequest := passes_takeNumber (List.mem_singleton.mpr rfl) reading.readRequest
  rw [hrequest.values, readSignature_values reading.readSignature, hbody.values, hhead.values]
  rfl


/--
What a delivery promises about a message that was built: it is accepted as it was signed, and it is read
as it was written.
-/
structure MessageReadBack (c : Crypto) (resolver : KeyResolver) (data : MessageData) (origin : Address)
    (signer : Identity) (suffix : MessageSuffix) (item : OwnedTlv)
    : Prop where
  validated : ∃ validated, validateItem c item resolver = .ok (some validated) ∧
    validated.authentication =
      some (if origin = signer.address then .originValid else .signedOriginValid) ∧
    validated.requestIdentifier = suffix.requestIdentifier
  read : ∃ read, readMessage item resolver = .ok read ∧ read.data = data ∧
    read.requestIdentifier = suffix.requestIdentifier ∧
    read.vias = [viaData suffix.localVia suffix.viaTimestamp suffix.software] ∧
    read.seenBy = sortedSet suffix.seenBy

section Message

variable {sign : SignTlv} {secret : SecretKey} {data : MessageData} {origin : Address} {signer : Identity}
  {suffix : MessageSuffix} {item : OwnedTlv} {c : Crypto} {resolver : KeyResolver}

theorem effectiveSigner_of_unknown (h : origin = signer.address ∨ resolver origin = none)
    : effectiveSigner origin signer resolver = signer := by
  unfold effectiveSigner
  split
  . rfl
  next hother =>
  rw [h.resolve_left hother]

theorem itemAuthentication_valid (origin : Address) (signer : Identity)
    : itemAuthentication origin signer true =
        if origin = signer.address then .originValid else .signedOriginValid := by
  unfold itemAuthentication
  by_cases h : signer.address = origin
  . simp [h]
  . have h' : origin ≠ signer.address := fun heq => h heq.symm
    simp [h, h']

theorem BuiltMessage.readBack (built : BuiltMessage sign secret data origin signer suffix item)
    (hkey : KeyPair c sign secret signer.publicKey) (hresolves : Resolves resolver signer)
    (hdestination : ∀ identity ∈ data.destination, Resolves resolver identity)
    (hplain : ∀ address ∈ suffix.seenBy, PlainDomain address.domain)
    (horigin : origin = signer.address ∨ resolver origin = none)
    : MessageReadBack c resolver data origin signer suffix item := by
  have hsigner := effectiveSigner_of_unknown horigin
  obtain ⟨key, hpart⟩ := built.hparts.originPart
  obtain ⟨parts, hparts⟩ := built.hparts.signedOriginParts
  have hverified := built.verified hresolves true (by rw [hsigner]; exact hkey _ _ built.hsign)
  constructor
  . have hvalidate := (built.parse hdestination hplain).validate built.parseChildren
      (built.valid hdestination hplain) hverified
    have hitem : validateItem c item resolver = .ok (some ((built.parse hdestination hplain).item item
        (effectiveSigner origin signer resolver) built.signature true)) := by
      rw [validateItem, if_pos built.hitem.1, map_some_eq_ok]
      exact hvalidate
    refine ⟨_, hitem, ?_, rfl⟩
    change some (itemAuthentication built.parts.origin.address _ true) = _
    rw [hpart.haddress, hsigner, itemAuthentication_valid]
  . exact ⟨_, (built.parse hdestination hplain).readMessage built.hitem.1 built.parseChildren hpart.hkey hparts
      hverified.hsignature, rfl, rfl, rfl, rfl⟩

theorem BuiltMessage.eq_seenBy (built : BuiltMessage sign secret data origin signer suffix item)
    {value : OwnedTlv} (hmem : value ∈ built.children) (htype : value.typeCode = Types.seenBy)
    : value ∈ built.seenBy := by
  -- The only child that says who has seen the message is the one that was built.
  have hregion : value ∉ built.region := by
    intro hvalue
    have hkind := built.kinds_region value hvalue
    rw [htype] at hkind
    exact absurd hkind (by decide)
  have hkludges : value ∉ built.kludges := by
    intro hvalue
    have hkind := codec_kludge.kinds built.hkludges value hvalue
    rw [htype] at hkind
    exact absurd hkind (by decide)
  have hsignature : value ≠ built.signatureTlv := by
    rintro rfl
    rw [(assigned_ok built.hsignature).1] at htype
    exact absurd htype (by decide)
  have hrequest : value ≠ built.request := by
    rintro rfl
    rw [(assigned_ok built.hrequest).1] at htype
    exact absurd htype (by decide)
  have hvia : value ≠ built.via := by
    rintro rfl
    rw [(viaValue_ok built.hvia).1] at htype
    exact absurd htype (by decide)
  simpa [BuiltMessage.children, hregion, hkludges, hsignature, hrequest, hvia] using hmem

theorem BuiltMessage.plain_of_read (built : BuiltMessage sign secret data origin signer suffix item)
    {read : ReadMessage} (hread : readMessage item resolver = .ok read)
    (hseenBy : read.seenBy = sortedSet suffix.seenBy)
    : ∀ address ∈ suffix.seenBy, PlainDomain address.domain := by
  obtain ⟨reading, rfl⟩ := (readMessage_iff built.hitem.1).mp hread
  have hvalues := reading.afterRequest_values
  rw [Except.ok.inj (reading.hchildren.symm.trans built.parseChildren)] at hvalues
  have hroute := reading.readRoute
  simp only [readMessageRoute, bind_run_iff, pure_run_iff, guard_run_iff] at hroute
  obtain ⟨vias, mid, hvias, _, seenBy, _, hoptional, hresult, _⟩ := hroute
  rw [← (passes_repeatedValues (List.mem_singleton.mpr rfl) hvias).values] at hvalues
  change reading.route.seenBy = _ at hseenBy
  rw [← hresult] at hseenBy
  rcases optionalValue_run.mp hoptional with ⟨_, rfl⟩ | ⟨entry, addresses, hentry, hdecode, rfl⟩
  . intro address hmem
    have hnone := mem_sortedSet.mpr hmem
    rw [← hseenBy] at hnone
    cases hnone
  . rcases optional_run hentry with ⟨hnone, _⟩ | ⟨index, value, hsome, _, hfinds, htype⟩
    . cases hnone
    cases hsome
    have hmem : value ∈ built.children := hvalues ▸ List.mem_of_getElem? hfinds.here
    rcases seenByValue_ok built.hseenBy with ⟨_, hnil⟩ | ⟨tlv, hsingle, _, htlv⟩
    . have hseen := built.eq_seenBy hmem htype
      rw [hnil] at hseen
      cases hseen
    . have hseen := built.eq_seenBy hmem htype
      rw [hsingle, List.mem_singleton] at hseen
      subst hseen
      obtain rfl : addresses = sortedSet suffix.seenBy := hseenBy
      exact (seenByAddresses_collection htlv).mp hdecode

theorem BuiltMessage.unknown_of_validated (built : BuiltMessage sign secret data origin signer suffix item)
    (hresolves : Resolves resolver signer)
    (hdestination : ∀ identity ∈ data.destination, Resolves resolver identity) {validated : ValidatedItem}
    (hvalidated : validateItem c item resolver = .ok (some validated))
    (hauthentication : validated.authentication =
      some (if origin = signer.address then .originValid else .signedOriginValid))
    : origin = signer.address ∨ resolver origin = none := by
  by_cases heq : origin = signer.address
  . exact .inl heq
  right
  by_contra hsome
  obtain ⟨publicKey, hpublicKey⟩ := Option.ne_none_iff_exists'.mp hsome
  obtain ⟨key, hpart⟩ := built.hparts.originPart
  have heffective : effectiveSigner origin signer resolver = ⟨origin, publicKey⟩ := by
    rw [effectiveSigner, if_neg heq, hpublicKey]
  obtain ⟨run, rfl⟩ := (validateItem_of_message built.hitem.1).mp hvalidated
  -- The head of the message is read as it was built, so that the signer is the origin.
  obtain ⟨_, entry, m₁, m₂, m₃, htake, horigin, hsigned, _⟩ := readMessageHead_iff.mp run.head
  obtain ⟨htake', horigin', hsigned', _⟩ := built.readHead hdestination
  rw [Except.ok.inj (run.hchildren.symm.trans built.parseChildren)] at htake
  obtain ⟨rfl, rfl⟩ := Prod.mk.inj (Except.ok.inj (htake'.symm.trans htake))
  obtain ⟨horiginEq, rfl⟩ := Prod.mk.inj (Except.ok.inj (horigin'.symm.trans horigin))
  obtain ⟨hsignedEq, _⟩ := Prod.mk.inj (Except.ok.inj (hsigned'.symm.trans hsigned))
  have hsignature := readMessageSignature_run run.signature
  change some run.signed.authentication = _ at hauthentication
  rw [if_neg heq, Option.some.injEq] at hauthentication
  rw [← horiginEq, ← hsignedEq] at hsignature
  generalize run.signed = result at hsignature hauthentication
  generalize run.afterSignature = next at hsignature
  cases hsignature with
  | unsigned => cases hauthentication
  | @signed index value found signature authenticated _ _ _ hsigner =>
    rw [built.hparts.parseProvenance hresolves, heffective, Except.ok.injEq] at hsigner
    subst hsigner
    dsimp only [itemAuthentication] at hauthentication
    rw [hpart.haddress] at hauthentication
    cases authenticated <;> simp at hauthentication

end Message

/--
A message that was built is accepted and read back, exactly if nobody who has seen it is in a domain that
looks like a part of an address, and its signer is not passed over for the origin.
-/
theorem originated_message_iff (c : Crypto) (sign : SignTlv) (resolver : KeyResolver) (data : MessageData)
    (provenance : ItemProvenance) (signer : Identity) (secret : SecretKey) (localVia : Identity)
    (requestIdentifier viaTimestamp : UInt64) (software : String) (seenBy : List Address) (item : OwnedTlv)
    (hsigner : provenance.signer = some signer) (hkey : KeyPair c sign secret signer.publicKey)
    (hresolves : Resolves resolver signer) (hdestination : ∀ identity ∈ data.destination, Resolves resolver identity)
    (hitem : buildOriginatedMessageForDelivery sign data provenance secret localVia requestIdentifier
      viaTimestamp software seenBy = .ok item)
    : MessageReadBack c resolver data provenance.origin signer
        ⟨[], localVia, requestIdentifier, viaTimestamp, software, seenBy⟩ item ↔
      (∀ address ∈ seenBy, PlainDomain address.domain) ∧
        (provenance.origin = signer.address ∨ resolver provenance.origin = none) := by
  obtain ⟨built⟩ := buildOriginatedMessageForDelivery_ok hsigner hitem
  constructor
  . intro h
    obtain ⟨read, hread, _, _, _, hseenBy⟩ := h.read
    obtain ⟨validated, hvalidated, hauthentication, _⟩ := h.validated
    exact ⟨built.plain_of_read hread hseenBy,
      built.unknown_of_validated hresolves hdestination hvalidated hauthentication⟩
  . rintro ⟨hplain, horigin⟩
    exact built.readBack hkey hresolves hdestination hplain horigin


namespace Originated

def crypto : Crypto where
  verifyTlv _ signature _ := .ok (signature = Vector.replicate 64 0)
  hashTlv _ := .ok (Vector.replicate 32 0)
  hashInboundItem _ := .ok (Vector.replicate 32 0)

def sign : SignTlv := fun _ _ => .ok (Vector.replicate 64 0)

theorem signer_valid : validateAddress "fidonet" 1 2 3 0 = .ok () := by decide

def signer : Identity := ⟨⟨"fidonet", 1, 2, 3, 0, signer_valid⟩, Vector.replicate 32 1⟩

theorem destination_valid : validateAddress "fidonet" 1 2 4 0 = .ok () := by decide

def destination : Identity := ⟨⟨"fidonet", 1, 2, 4, 0, destination_valid⟩, Vector.replicate 32 2⟩

def resolver : KeyResolver := fun address =>
  if address = signer.address then
    some signer.publicKey
  else if address = destination.address then
    some destination.publicKey
  else
    none

def provenance : ItemProvenance := ⟨signer.address, some signer⟩

/--
A message with one line and a file.
-/
def message : MessageData where
  destination := some destination
  timestamp := 7
  toUser := "Sysop"
  fromUser := "User"
  subject := "Hello"
  text := "Hello\n"
  area := none
  attachments := [⟨some "a.txt", some 7, [1, 2], none, ["first", "second"], none, none, none⟩]
  legacyAttributes := some 1
  timestampOffset := some (-60)
  tearLine := none
  originLine := none
  messageId := some "1"
  replyTo := none
  originalCharacterSet := none
  additionalKludgeLines := ["CHRS: UTF-8 4"]

def build (seenBy : List Address) : Except BundleError OwnedTlv :=
  buildOriginatedMessageForDelivery sign message provenance (Vector.replicate 64 0) signer 9 8 "tith" seenBy

theorem keyPair : KeyPair crypto sign (Vector.replicate 64 0) signer.publicKey := by
  intro _ signature h
  cases h
  rfl

theorem resolves_signer : Resolves resolver signer := by
  intro _
  rfl

theorem resolves_destination : ∀ identity ∈ message.destination, Resolves resolver identity := by
  rintro _ ⟨⟩ _
  rfl

end Originated

theorem exists_of_isSome {x : Except BundleError OwnedTlv} (h : x.toOption.isSome = true)
    : ∃ item, x = .ok item := by
  cases x with
  | error e => cases h
  | ok item => exact ⟨item, rfl⟩

theorem originated_message_netMail
    : ∃ item, Originated.build [Originated.signer.address] = .ok item ∧
        (MessageReadBack Originated.crypto Originated.resolver Originated.message
            Originated.provenance.origin Originated.signer
            ⟨[], Originated.signer, 9, 8, "tith", [Originated.signer.address]⟩ item ↔
          (∀ address ∈ [Originated.signer.address], PlainDomain address.domain) ∧
            (Originated.provenance.origin = Originated.signer.address ∨
              Originated.resolver Originated.provenance.origin = none)) := by
  obtain ⟨item, hitem⟩ := exists_of_isSome (x := Originated.build [Originated.signer.address])
    (by decide +kernel)
  exact ⟨item, hitem, originated_message_iff Originated.crypto Originated.sign Originated.resolver
    Originated.message Originated.provenance Originated.signer (Vector.replicate 64 0) Originated.signer 9 8
    "tith" [Originated.signer.address] item rfl Originated.keyPair Originated.resolves_signer
    Originated.resolves_destination hitem⟩

/--
A node of a domain that starts with a dot has seen the message, and nobody accepts it.
-/
theorem originated_message_refused
    : KeyPair Originated.crypto Originated.sign (Vector.replicate 64 0) Originated.signer.publicKey ∧
        Resolves Originated.resolver Originated.signer ∧
        (∀ identity ∈ Originated.message.destination, Resolves Originated.resolver identity) ∧
        ∃ item, Originated.build [⟨".net", 1, 2, 3, 0, by decide⟩] = .ok item ∧
          validateItem Originated.crypto item Originated.resolver =
            .error (.unexpected "SeenBy is not a Trimmed Collection of addresses") ∧
          ¬MessageReadBack Originated.crypto Originated.resolver Originated.message
            Originated.provenance.origin Originated.signer
            ⟨[], Originated.signer, 9, 8, "tith", [⟨".net", 1, 2, 3, 0, by decide⟩]⟩ item := by
  refine ⟨Originated.keyPair, Originated.resolves_signer, Originated.resolves_destination, ?_⟩
  obtain ⟨item, hitem⟩ := exists_of_isSome (x := Originated.build [⟨".net", 1, 2, 3, 0, by decide⟩])
    (by decide +kernel)
  have hrefused : ∀ item ∈ (Originated.build [⟨".net", 1, 2, 3, 0, by decide⟩]).toOption,
      validateItem Originated.crypto item Originated.resolver =
        .error (.unexpected "SeenBy is not a Trimmed Collection of addresses") := by
    decide +kernel
  have hvalidate := hrefused item (by rw [hitem]; rfl)
  refine ⟨item, hitem, hvalidate, ?_⟩
  intro h
  obtain ⟨validated, hvalidated, _⟩ := h.validated
  rw [hvalidate] at hvalidated
  cases hvalidated

end Tith
