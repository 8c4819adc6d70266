import Tith.Wire.Lemmas.Build
import Tith.Wire.Lemmas.Carrier

/-!
This module contains the round trip of bundles: what the builders write, the parsers read back.
-/

namespace Tith

theorem ne_publicKey_of_signedTlv {value : OwnedTlv} (h : value.typeCode = Types.signedTlv)
    : value.typeCode ≠ Types.publicKey := by
  rw [h]
  decide

theorem identity_embedded {addressTlv keyTlv : OwnedTlv} {address : Address} {key : PublicKey}
    (haddress : addressValue addressTlv = .ok address) (hanonymous : address.isAnonymous = true)
    (hkey : publicKeyValue keyTlv = .ok key) (resolver : KeyResolver)
    : identity addressTlv (some keyTlv) resolver = .ok ⟨address, key⟩ := by
  simp [identity, haddress, hanonymous, hkey]

theorem identity_resolved {addressTlv : OwnedTlv} {address : Address} {key : PublicKey}
    {resolver : KeyResolver} (haddress : addressValue addressTlv = .ok address)
    (hanonymous : address.isAnonymous = false) (hkey : resolver address = some key)
    : identity addressTlv none resolver = .ok ⟨address, key⟩ := by
  simp [identity, haddress, hanonymous, hkey]

theorem addressed_embedded {typeCode : UInt64} {identity : Identity} {values : List OwnedTlv}
    (h : addressed typeCode identity.address identity.embeddedKey = .ok values)
    : ∃ addressTlv, addressTlv.typeCode = typeCode ∧ addressValue addressTlv = .ok identity.address ∧
        ((identity.address.isAnonymous = false ∧ values = [addressTlv]) ∨
          ∃ keyTlv, identity.address.isAnonymous = true ∧ keyTlv.typeCode = Types.publicKey ∧
            publicKeyValue keyTlv = .ok identity.publicKey ∧ values = [addressTlv, keyTlv]) := by
  unfold Identity.embeddedKey at h
  split at h
  . next hanonymous =>
    obtain ⟨addressTlv, htype, haddress, ⟨hnone, _⟩ | ⟨key, keyTlv, hsome, hkeyType, hkey, hvalues⟩⟩ :=
      addressed_ok h
    . cases hnone
    . injection hsome with hsome
      subst hsome
      exact ⟨addressTlv, htype, haddress, .inr ⟨keyTlv, hanonymous, hkeyType, hkey, hvalues⟩⟩
  . next hanonymous =>
    rw [Bool.not_eq_true] at hanonymous
    obtain ⟨addressTlv, htype, haddress, ⟨_, hvalues⟩ | ⟨key, keyTlv, hsome, _⟩⟩ := addressed_ok h
    . exact ⟨addressTlv, htype, haddress, .inl ⟨hanonymous, hvalues⟩⟩
    . cases hsome

theorem embeddedKey_of_anonymous {identity : Identity} (h : identity.address.isAnonymous = true)
    (resolver : KeyResolver)
    : identity.embeddedKey = some identity.publicKey ∧ Resolves resolver identity := by
  constructor
  . simp [Identity.embeddedKey, h]
  . intro hfalse
    rw [h] at hfalse
    cases hfalse

section Origin

variable {resolver : KeyResolver} {values : List OwnedTlv} {header : OwnedTlv}
  (hheader : header.typeCode = Types.signedTlv) (rest : List OwnedTlv)

include hheader

theorem takeOuterOrigin_embedded {origin : Identity} (hresolves : Resolves resolver origin)
    (h : addressed Types.origin origin.address origin.embeddedKey = .ok values)
    (mode : NonAnonymousOriginKey)
    : Bundle.takeOuterOrigin (values ++ header :: rest) resolver mode =
        .ok (origin, none, header :: rest) := by
  obtain ⟨addressTlv, htype, haddress, ⟨hanonymous, rfl⟩ | ⟨keyTlv, hanonymous, hkeyType, hkey, rfl⟩⟩ :=
    addressed_embedded h
  . have hidentity := identity_resolved haddress hanonymous (hresolves hanonymous)
    rw [List.singleton_append, Bundle.takeOuterOrigin, if_neg (by simp [htype]), haddress,
      Except.bind_of_ok, hanonymous]
    simp [hidentity, ne_publicKey_of_signedTlv hheader]
  . have hidentity := identity_embedded haddress hanonymous hkey resolver
    rw [List.cons_append, List.singleton_append, Bundle.takeOuterOrigin, if_neg (by simp [htype]),
      haddress, Except.bind_of_ok, hanonymous]
    simp [hidentity, hkeyType]

theorem takeOuterOrigin_rest {address : Identity}
    (h : addressed Types.origin address.address address.embeddedKey = .ok values)
    {mode : NonAnonymousOriginKey} {result : Identity × Option PublicKey × List OwnedTlv}
    (hresult : Bundle.takeOuterOrigin (values ++ header :: rest) resolver mode = .ok result)
    : result.2.2 = header :: rest := by
  obtain ⟨addressTlv, htype, haddress, ⟨hanonymous, rfl⟩ | ⟨keyTlv, hanonymous, hkeyType, hkey, rfl⟩⟩ :=
    addressed_embedded h
  . rw [List.singleton_append, Bundle.takeOuterOrigin, if_neg (by simp [htype]), haddress,
      Except.bind_of_ok, hanonymous] at hresult
    simp only [if_neg (ne_publicKey_of_signedTlv hheader), Except.bind_ok_iff] at hresult
    obtain ⟨_, _, hresult⟩ := hresult
    cases hresult
    rfl
  . rw [List.cons_append, List.singleton_append, Bundle.takeOuterOrigin, if_neg (by simp [htype]),
      haddress, Except.bind_of_ok, hanonymous] at hresult
    simp only [hkeyType, ne_eq, not_true_eq_false, if_false, Except.bind_ok_iff] at hresult
    obtain ⟨_, _, hresult⟩ := hresult
    cases hresult
    rfl

omit hheader in
theorem takeOuterOrigin_advertised {origin : Identity} (hanonymous : origin.address.isAnonymous = false)
    (h : addressed Types.origin origin.address (some origin.publicKey) = .ok values)
    (expected : Option PublicKey)
    : Bundle.takeOuterOrigin (values ++ header :: rest) resolver
        ((expected.map NonAnonymousOriginKey.exact).getD .any) =
          if expected.any (· ≠ origin.publicKey) then
            .error .invalidSignature
          else
            .ok (origin, some origin.publicKey, header :: rest) := by
  -- An origin that is not anonymous and advertises its key, as in the reply to a probe.
  obtain ⟨addressTlv, htype, haddress, ⟨hnone, _⟩ | ⟨key, keyTlv, hsome, hkeyType, hkey, rfl⟩⟩ :=
    addressed_ok h
  . cases hnone
  . injection hsome with hsome
    subst hsome
    rw [List.cons_append, List.singleton_append, Bundle.takeOuterOrigin, if_neg (by simp [htype]),
      haddress, Except.bind_of_ok, hanonymous]
    cases expected with
    | none => simp [hkeyType, hkey]
    | some expected =>
      by_cases hexpected : expected = origin.publicKey
      . simp [hkeyType, hkey, hexpected]
      . simp [hkeyType, hkey, hexpected, Ne.symm hexpected]

end Origin

section Header

variable {resolver : KeyResolver} {timestamp : UInt64} {data : List OwnedTlv}

theorem takeDefined_head {value : OwnedTlv} {typeCode : UInt64} (htype : value.typeCode = typeCode)
    (hdefined : Types.isDefined typeCode = true) (rest : List OwnedTlv) (name : String)
    : takeDefined (value :: rest) typeCode name = .ok (value, rest) := by
  rw [takeDefined, nextDefined, if_pos (by rw [htype]; exact hdefined)]
  simp [htype]

theorem validateHeader_of_destination {destination : Identity} {requested : Option PublicKey}
    {values : List OwnedTlv} {timestampTlv : OwnedTlv}
    (htimestamp : assigned Types.timestamp (encodeU64 timestamp) = .ok timestampTlv)
    (h : headerDestination (values ++ [timestampTlv]) resolver =
      .ok (destination, requested, [timestampTlv]))
    : validateHeader (values ++ [timestampTlv]) resolver = .ok (destination, requested, timestamp) := by
  obtain ⟨htype, hvalue⟩ := assigned_ok htimestamp
  have htake := takeDefined_head htype (by decide) [] "Timestamp after Destination"
  rw [validateHeader, h]
  simp [htake, nextDefined, numberValue_encodeU64 hvalue]

theorem validateHeader_embedded {destination : Identity} (hresolves : Resolves resolver destination)
    (h : headerData destination.address destination.embeddedKey timestamp = .ok data)
    : validateHeader data resolver = .ok (destination, none, timestamp) := by
  simp only [headerData, Except.bind_ok_iff] at h
  obtain ⟨values, hvalues, timestampTlv, htimestamp, h⟩ := h
  cases h
  apply validateHeader_of_destination htimestamp
  have htimestampType : timestampTlv.typeCode ≠ Types.publicKey := by
    rw [(assigned_ok htimestamp).1]
    decide
  obtain ⟨addressTlv, htype, haddress, ⟨hanonymous, rfl⟩ | ⟨keyTlv, hanonymous, hkeyType, hkey, rfl⟩⟩ :=
    addressed_embedded hvalues
  . have hidentity := identity_resolved haddress hanonymous (hresolves hanonymous)
    rw [List.singleton_append, headerDestination, takeDefined_head htype (by decide)]
    simp [haddress, hanonymous, hidentity, htimestampType]
  . have hidentity := identity_embedded haddress hanonymous hkey resolver
    rw [List.cons_append, List.singleton_append, headerDestination,
      takeDefined_head htype (by decide)]
    simp [haddress, hanonymous, hidentity, hkeyType]

theorem validateHeader_requested {destination : Address} (hanonymous : destination.isAnonymous = false)
    {key : PublicKey} (h : headerData destination (some key) timestamp = .ok data)
    : validateHeader data resolver = .ok (⟨destination, key⟩, some key, timestamp) := by
  -- The header of a probe names the requested key, and takes it for the key of the destination.
  simp only [headerData, Except.bind_ok_iff] at h
  obtain ⟨values, hvalues, timestampTlv, htimestamp, h⟩ := h
  cases h
  apply validateHeader_of_destination htimestamp
  obtain ⟨addressTlv, htype, haddress, ⟨hnone, _⟩ | ⟨key', keyTlv, hsome, hkeyType, hkey, rfl⟩⟩ :=
    addressed_ok hvalues
  . cases hnone
  . injection hsome with hsome
    subst hsome
    rw [List.cons_append, List.singleton_append, headerDestination,
      takeDefined_head htype (by decide)]
    simp [haddress, hanonymous, hkeyType, hkey]

end Header

theorem nonzero_of_addressed {typeCode : UInt64} (htype : typeCode ≠ 0) {address : Address}
    {key : Option PublicKey} {values : List OwnedTlv} (h : addressed typeCode address key = .ok values)
    : ∀ value ∈ values, value.typeCode ≠ 0 := by
  have hkeyNonzero : Types.publicKey ≠ 0 := by decide
  obtain ⟨addressTlv, haddressType, _, ⟨_, rfl⟩ | ⟨_, keyTlv, _, hkeyType, _, rfl⟩⟩ := addressed_ok h
  . simp [haddressType, htype]
  . simp [haddressType, htype, hkeyType, hkeyNonzero]

/--
A bundle as its parser returns it, if every part of it was read as it was built.
-/
structure ReadsAs (c : Crypto) (bundle : Bundle) (origin destination : Identity)
    (advertised requested : Option PublicKey) (timestamp : UInt64)
    (payloadGroups : List (List OwnedTlv)) : Prop where
  origin_eq : bundle.origin = origin
  destination_eq : bundle.destination = destination
  advertised_eq : bundle.advertisedOriginKey = advertised
  requested_eq : bundle.requestedDestinationKey = requested
  timestamp_eq : bundle.timestamp = timestamp
  carries : ∃ headerHash, c.hashTlv bundle.header.encoded = .ok headerHash ∧
    List.Forall₂ (Carries origin headerHash) payloadGroups bundle.payloads
  unknown_eq : bundle.unknownTopLevel = []

section Assemble

variable {c : Crypto} {sign : SignTlv} {secret : SecretKey} {origin destination : Identity}
  {advertised requested : Option PublicKey} {timestamp : UInt64} {originValues data : List OwnedTlv}
  {payloadGroups : List (List OwnedTlv)} {bytes : List UInt8} {resolver : KeyResolver}
  {mode : NonAnonymousOriginKey}

theorem takeHeader_signed {header : OwnedTlv} (h : header.typeCode = Types.signedTlv)
    (values : List OwnedTlv)
    : Bundle.takeHeader (header :: values) = .ok ([], header, values) := by
  have hdefined : Types.isDefined Types.signedTlv = true := by decide
  simp [Bundle.takeHeader, nextDefined, hdefined, h]

theorem assemble_values (h : assemble c sign secret originValues data payloadGroups = .ok bytes)
    (hnonzero : ∀ value ∈ originValues, value.typeCode ≠ 0)
    : ∃ header values headerHash, buildPayloads sign secret headerHash payloadGroups = .ok values ∧
        parseChildren bytes = .ok (originValues ++ header :: values) ∧
        header.typeCode = Types.signedTlv ∧ buildSignedTlv sign data none secret = .ok header ∧
        c.hashTlv header.encode = .ok headerHash := by
  simp only [assemble, Except.bind_ok_iff, Except.mapError_eq_ok] at h
  obtain ⟨header, hheader, headerHash, hhash, values, hvalues, h⟩ := h
  cases h
  have hheaderType := typeCode_buildSignedTlv hheader
  refine ⟨header, values, headerHash, hvalues, ?_, hheaderType, hheader, hhash⟩
  have hsignedNonzero : Types.signedTlv ≠ 0 := by decide
  apply parseChildren_concatenate
  intro value hvalue
  simp only [List.mem_append, List.mem_cons] at hvalue
  rcases hvalue with hvalue | rfl | hvalue
  . exact hnonzero value hvalue
  . rw [hheaderType]
    exact hsignedNonzero
  . rw [typeCode_buildPayloads hvalues value hvalue]
    exact hsignedNonzero

theorem parseInternal_assemble (hkey : KeyPair c sign secret origin.publicKey)
    (h : assemble c sign secret originValues data payloadGroups = .ok bytes)
    (hnonzero : ∀ value ∈ originValues, value.typeCode ≠ 0)
    (horigin : ∀ header : OwnedTlv, header.typeCode = Types.signedTlv → ∀ rest,
      Bundle.takeOuterOrigin (originValues ++ header :: rest) resolver mode =
        .ok (origin, advertised, header :: rest))
    (hdata : validateHeader data resolver = .ok (destination, requested, timestamp))
    : ∃ bundle, ReadsAs c bundle origin destination advertised requested timestamp payloadGroups ∧
        Bundle.parseInternal c bytes resolver mode false =
          if (requested.isSome || asksForKey payloadGroups) && !isDedicated payloadGroups then
            .error (.unexpected "PublicKeyRequest outside its dedicated Bundle")
          else
            .ok bundle := by
  obtain ⟨header, values, headerHash, hvalues, hparse, hheaderType, hheader, hhash⟩ :=
    assemble_values h hnonzero
  have hverify := verifySignedTlv_buildSignedTlv hkey hheader resolver
  obtain ⟨payloads, htake, hpayloads⟩ := takePayloads_buildPayloads hkey hvalues resolver
  refine ⟨?_, ?_, ?_⟩
  . exact
      { encoded := bytes
        origin
        advertisedOriginKey := advertised
        destination
        requestedDestinationKey := requested
        timestamp
        header := ⟨header.encode, origin, data⟩
        payloads
        unknownTopLevel := [] }
  . exact ⟨rfl, rfl, rfl, rfl, rfl, ⟨headerHash, hhash, hpayloads⟩, rfl⟩
  . rw [Bundle.parseInternal, hparse]
    simp only [Except.bind_of_ok, horigin header hheaderType values, takeHeader_signed hheaderType,
      hverify, hdata, hhash,
      Except.mapError, htake, containsPublicKeyRequest_eq hpayloads, isPublicKeyRequest_eq hpayloads]
    simp

-- An origin that the parser refuses is refused before anything is verified.
theorem parseInternal_assemble_error (h : assemble c sign secret originValues data payloadGroups = .ok bytes)
    (hnonzero : ∀ value ∈ originValues, value.typeCode ≠ 0) {error : BundleError}
    (horigin : ∀ header : OwnedTlv, header.typeCode = Types.signedTlv → ∀ rest,
      Bundle.takeOuterOrigin (originValues ++ header :: rest) resolver mode = .error error)
    : Bundle.parseInternal c bytes resolver mode false = .error error := by
  obtain ⟨header, values, _, _, hparse, hheaderType, _⟩ := assemble_values h hnonzero
  rw [Bundle.parseInternal, hparse, Except.bind_of_ok, horigin header hheaderType values]
  rfl

-- Whoever the origin turns out to be, the payloads that the parser accepts are the ones assembled.
theorem carries_of_parseInternal (h : assemble c sign secret originValues data payloadGroups = .ok bytes)
    (hnonzero : ∀ value ∈ originValues, value.typeCode ≠ 0)
    (horigin : ∀ header : OwnedTlv, header.typeCode = Types.signedTlv → ∀ rest result,
      Bundle.takeOuterOrigin (originValues ++ header :: rest) resolver mode = .ok result →
        result.2.2 = header :: rest)
    {allow : Bool} {bundle : Bundle} (hparse : Bundle.parseInternal c bytes resolver mode allow = .ok bundle)
    : ∃ headerHash, List.Forall₂ (Carries bundle.origin headerHash) payloadGroups bundle.payloads := by
  obtain ⟨header, values, headerHash, hvalues, htop, hheaderType, _⟩ := assemble_values h hnonzero
  rw [Bundle.parseInternal, htop, Except.bind_of_ok, Except.bind_ok_iff] at hparse
  obtain ⟨⟨origin, advertised, rest⟩, hrest, hparse⟩ := hparse
  have hrest' := horigin header hheaderType values _ hrest
  dsimp only at hrest'
  subst hrest'
  simp only [takeHeader_signed hheaderType, Except.bind_of_ok, Except.bind_ok_iff] at hparse
  obtain ⟨_, _, _, _, _, _, ⟨payloads, unknown⟩, htake, hparse⟩ := hparse
  split at hparse
  . cases hparse
  . injection hparse with hparse
    subst hparse
    exact ⟨headerHash, carries_of_takePayloads hvalues htake⟩

end Assemble

section Builders

variable {c : Crypto} {sign : SignTlv} {secret : SecretKey} {origin : Identity} {timestamp : UInt64}
  {resolver : KeyResolver} {bytes : List UInt8} (hkey : KeyPair c sign secret origin.publicKey)

include hkey

theorem parse_buildBundle {destination : Identity} {payloadGroups : List (List OwnedTlv)}
    (horigin : Resolves resolver origin) (hdestination : Resolves resolver destination)
    (h : buildBundle c sign origin secret destination timestamp payloadGroups = .ok bytes)
    : ∃ bundle, ReadsAs c bundle origin destination none none timestamp payloadGroups ∧
        Bundle.parse c bytes resolver =
          if asksForKey payloadGroups && !isDedicated payloadGroups then
            .error (.unexpected "PublicKeyRequest outside its dedicated Bundle")
          else
            .ok bundle := by
  simp only [buildBundle, Except.bind_ok_iff] at h
  obtain ⟨originValues, hvalues, data, hdata, h⟩ := h
  apply parseInternal_assemble hkey h
  . exact nonzero_of_addressed (by decide) hvalues
  . intro header hheader rest
    exact takeOuterOrigin_embedded hheader rest horigin hvalues _
  . exact validateHeader_embedded hdestination hdata

omit hkey in
theorem carries_of_parse {destination : Identity} {payloadGroups : List (List OwnedTlv)}
    (h : buildBundle c sign origin secret destination timestamp payloadGroups = .ok bytes)
    {bundle : Bundle} (hparse : Bundle.parse c bytes resolver = .ok bundle)
    : ∃ headerHash, List.Forall₂ (Carries bundle.origin headerHash) payloadGroups bundle.payloads := by
  simp only [buildBundle, Except.bind_ok_iff] at h
  obtain ⟨originValues, hvalues, data, hdata, h⟩ := h
  apply carries_of_parseInternal h (nonzero_of_addressed (by decide) hvalues) _ hparse
  intro header hheader rest result hresult
  exact takeOuterOrigin_rest hheader rest hvalues hresult

theorem parse_buildPublicKeyProbe {destination : Address} {requested : Option PublicKey}
    {requestIdentifier : UInt64} {key : PublicKey} (horigin : Resolves resolver origin)
    (hdestination : requested = some key ∨ (requested = none ∧ resolver destination = some key))
    (h : buildPublicKeyProbe c sign origin secret destination requested timestamp requestIdentifier =
      .ok bytes)
    : ∃ bundle, Bundle.parse c bytes resolver = .ok bundle ∧
        ReadsAs c bundle origin ⟨destination, key⟩ none requested timestamp
          [[publicKeyRequest requestIdentifier]] := by
  -- A probe is read back whatever key it requests. Without one the receiver has to know the destination.
  unfold buildPublicKeyProbe at h
  split at h
  . cases h
  . next hanonymous =>
    rw [Bool.not_eq_true] at hanonymous
    simp only [Except.bind_ok_iff] at h
    obtain ⟨originValues, hvalues, data, hdata, h⟩ := h
    have hheader : validateHeader data resolver = .ok (⟨destination, key⟩, requested, timestamp) := by
      rcases hdestination with rfl | ⟨rfl, hresolver⟩
      . exact validateHeader_requested hanonymous hdata
      . have hembedded : (⟨destination, key⟩ : Identity).embeddedKey = none := by
          simp [Identity.embeddedKey, hanonymous]
        rw [← hembedded] at hdata
        exact validateHeader_embedded (fun _ => hresolver) hdata
    obtain ⟨bundle, hreads, hparse⟩ := parseInternal_assemble hkey h
      (nonzero_of_addressed (by decide) hvalues)
      (fun header hheader rest => takeOuterOrigin_embedded hheader rest horigin hvalues .prohibited)
      hheader
    refine ⟨bundle, ?_, hreads⟩
    have hdedicated : isDedicated [[publicKeyRequest requestIdentifier]] = true := by
      simp [isDedicated, publicKeyRequest]
    rw [Bundle.parse, hparse, hdedicated]
    simp

omit hkey in
theorem ReadsAs.single {bundle : Bundle} {destination : Identity} {advertised requested : Option PublicKey}
    {item : OwnedTlv} (h : ReadsAs c bundle origin destination advertised requested timestamp [[item]])
    : ∃ payload hashTlv, bundle.payloads = [payload] ∧ payload.data = [hashTlv, item] := by
  obtain ⟨headerHash, _, hcarries⟩ := h.carries
  generalize bundle.payloads = payloads at hcarries
  cases hcarries with
  | cons hfirst hrest =>
    cases hrest
    exact ⟨_, _, rfl, hfirst.2⟩

omit hkey in
theorem publicKeyRequest_probe {bundle : Bundle} {destination : Identity} {requested : Option PublicKey}
    {requestIdentifier : UInt64}
    (h : ReadsAs c bundle origin destination none requested timestamp
      [[publicKeyRequest requestIdentifier]])
    : ∃ payload, bundle.payloads = [payload] ∧ ∀ hash, c.hashTlv payload.encoded = .ok hash →
        bundle.publicKeyRequest c = .ok (some (requestIdentifier, hash)) := by
  obtain ⟨payload, hashTlv, hpayloads, hdata⟩ := h.single
  refine ⟨payload, hpayloads, ?_⟩
  intro hash hhash
  have htype : (publicKeyRequest requestIdentifier).typeCode = Types.publicKeyRequest := by
    simp [publicKeyRequest]
  rw [Bundle.publicKeyRequest, hpayloads]
  simp [hdata, htype, validatePublicKeyRequest_publicKeyRequest, hhash, Except.mapError,
    ValidatedItem.ofKind]

section Reply

variable {destination : Identity} {requestIdentifier : UInt64} {responseTo : TlvHash}
  {currentKey : PublicKey}

omit hkey in
theorem validateItem_acceptedPublicKey
    : validateItem c (acceptedPublicKey requestIdentifier responseTo currentKey) resolver =
        .ok (some { ValidatedItem.ofKind .accepted requestIdentifier
            (acceptedPublicKey requestIdentifier responseTo currentKey) with
          responseTo := some responseTo
          responsePublicKey := some currentKey }) := by
  have htype : (acceptedPublicKey requestIdentifier responseTo currentKey).typeCode = Types.accepted := by
    simp [acceptedPublicKey]
  rw [validateItem, htype, if_neg (by decide), if_neg (by decide), if_neg (by decide), if_pos rfl,
    validateResponse, if_pos rfl, validateAccepted_acceptedPublicKey]
  rfl

omit hkey in
theorem parsePublicKeyReply_of_readsAs {bundle : Bundle} {advertised expected : Option PublicKey}
    (hparse : Bundle.parseInternal c bytes resolver
      ((expected.map NonAnonymousOriginKey.exact).getD .any) false = .ok bundle)
    (hreads : ReadsAs c bundle origin destination advertised none timestamp
      [[acceptedPublicKey requestIdentifier responseTo currentKey]])
    : (∃ bundle, Bundle.parsePublicKeyReply c bytes resolver expected = .ok bundle) ↔
        ∃ key, advertised = some key ∧ (expected = none → key = currentKey) := by
  obtain ⟨payload, hashTlv, hpayloads, hdata⟩ := hreads.single
  have htype : (acceptedPublicKey requestIdentifier responseTo currentKey).typeCode = Types.accepted := by
    simp [acceptedPublicKey]
  rw [Bundle.parsePublicKeyReply, hparse, Except.bind_of_ok, hreads.advertised_eq, hpayloads]
  cases advertised with
  | none => simp
  | some key =>
    simp only [List.map_cons, List.map_nil, hdata, htype, validateItem_acceptedPublicKey,
      Except.bind_of_ok, Option.okOr_some, ne_eq, not_true_eq_false, if_false, Option.some.injEq,
      exists_eq_left']
    by_cases hcurrent : expected = none ∧ ¬key = currentKey
    . simp [hcurrent]
    . rw [if_neg hcurrent]
      simpa using hcurrent

omit hkey in
theorem parsePublicKeyReply_of_unexpected (hanonymous : origin.address.isAnonymous = false)
    (h : buildPublicKeyReply c sign origin secret destination timestamp requestIdentifier responseTo
      currentKey = .ok bytes) {expected : PublicKey} (hexpected : expected ≠ origin.publicKey)
    : Bundle.parsePublicKeyReply c bytes resolver (some expected) = .error .invalidSignature := by
  simp only [buildPublicKeyReply, Except.bind_ok_iff] at h
  obtain ⟨originValues, hvalues, data, hdata, h⟩ := h
  rw [Bundle.parsePublicKeyReply,
    parseInternal_assemble_error h (nonzero_of_addressed (by decide) hvalues)]
  . rfl
  . intro header _ rest
    rw [takeOuterOrigin_advertised rest hanonymous hvalues, if_pos]
    simp [hexpected]

theorem parsePublicKeyReply_buildPublicKeyReply (hanonymous : origin.address.isAnonymous = false)
    (hdestination : Resolves resolver destination)
    (h : buildPublicKeyReply c sign origin secret destination timestamp requestIdentifier responseTo
      currentKey = .ok bytes) (expected : Option PublicKey)
    : (∃ bundle, Bundle.parsePublicKeyReply c bytes resolver expected = .ok bundle) ↔
        origin.publicKey = expected.getD currentKey := by
  -- The key of a reply has to be the expected one. Without an expectation it has to be the current one.
  by_cases hexpected : expected.any (· ≠ origin.publicKey)
  . cases expected with
    | none => simp at hexpected
    | some expected =>
      rw [Option.any_some, decide_eq_true_iff] at hexpected
      rw [parsePublicKeyReply_of_unexpected hanonymous h hexpected]
      simp [Ne.symm hexpected]
  . simp only [buildPublicKeyReply, Except.bind_ok_iff] at h
    obtain ⟨originValues, hvalues, data, hdata, h⟩ := h
    obtain ⟨bundle, hreads, hparse⟩ := parseInternal_assemble hkey h
      (nonzero_of_addressed (by decide) hvalues)
      (fun header _ rest => by
        rw [takeOuterOrigin_advertised rest hanonymous hvalues expected, if_neg hexpected])
      (validateHeader_embedded hdestination hdata)
    have hasks : asksForKey [[acceptedPublicKey requestIdentifier responseTo currentKey]] = false := by
      simp [asksForKey, acceptedPublicKey, Types.accepted, Types.publicKeyRequest]
    rw [hasks] at hparse
    rw [parsePublicKeyReply_of_readsAs hparse hreads]
    cases expected with
    | none => simp
    | some expected =>
      simp only [Option.any_some, decide_eq_true_iff, not_not] at hexpected
      simp [hexpected]

/--
An anonymous origin carries its key as any anonymous origin does, which is no advertisement.
-/
theorem parsePublicKeyReply_anonymous (hanonymous : origin.address.isAnonymous = true)
    (hdestination : Resolves resolver destination)
    (h : buildPublicKeyReply c sign origin secret destination timestamp requestIdentifier responseTo
      currentKey = .ok bytes) (expected : Option PublicKey)
    : ¬∃ bundle, Bundle.parsePublicKeyReply c bytes resolver expected = .ok bundle := by
  simp only [buildPublicKeyReply, Except.bind_ok_iff] at h
  obtain ⟨originValues, hvalues, data, hdata, h⟩ := h
  obtain ⟨hembedded, hresolves⟩ := embeddedKey_of_anonymous hanonymous resolver
  rw [← hembedded] at hvalues
  obtain ⟨bundle, hreads, hparse⟩ := parseInternal_assemble hkey h
    (nonzero_of_addressed (by decide) hvalues)
    (fun header hheader rest => takeOuterOrigin_embedded hheader rest hresolves hvalues _)
    (validateHeader_embedded hdestination hdata)
  have hasks : asksForKey [[acceptedPublicKey requestIdentifier responseTo currentKey]] = false := by
    simp [asksForKey, acceptedPublicKey, Types.accepted, Types.publicKeyRequest]
  rw [hasks] at hparse
  rw [parsePublicKeyReply_of_readsAs hparse hreads]
  simp

omit hkey in
theorem typeCode_rejected {reason : RejectionReason} {retryAfter : Option UInt64} {description : String}
    {refusal : OwnedTlv} (h : rejected requestIdentifier responseTo retryAfter reason description = .ok refusal)
    : refusal.typeCode = Types.rejected := by
  unfold rejected at h
  split at h
  . cases h
  . injection h with h
    rw [← h, typeCode_carrierValue]

omit hkey in
theorem parsePublicKeyReply_of_refusal {bundle : Bundle} {advertised expected : Option PublicKey}
    {refusal : OwnedTlv} (htype : refusal.typeCode = Types.rejected)
    (hparse : Bundle.parseInternal c bytes resolver
      ((expected.map NonAnonymousOriginKey.exact).getD .any) false = .ok bundle)
    (hreads : ReadsAs c bundle origin destination advertised none timestamp [[refusal]])
    : ¬∃ bundle, Bundle.parsePublicKeyReply c bytes resolver expected = .ok bundle := by
  have hrejected : Types.rejected ≠ Types.accepted := by decide
  obtain ⟨payload, hashTlv, hpayloads, hpayload⟩ := hreads.single
  rw [Bundle.parsePublicKeyReply, hparse, Except.bind_of_ok, hreads.advertised_eq, hpayloads]
  cases advertised with
  | none => simp
  | some key => simp [hpayload, htype, hrejected]

theorem parsePublicKeyReply_unavailable (hdestination : Resolves resolver destination)
    (h : buildPublicKeyUnavailableReply c sign origin secret destination timestamp requestIdentifier
      responseTo = .ok bytes) (expected : Option PublicKey)
    : ¬∃ bundle, Bundle.parsePublicKeyReply c bytes resolver expected = .ok bundle := by
  -- A refusal certifies no key, so that it is no reply that could be accepted.
  simp only [buildPublicKeyUnavailableReply, Except.bind_ok_iff] at h
  obtain ⟨originValues, hvalues, data, hdata, refusal, hrefusal, h⟩ := h
  have htype := typeCode_rejected hrefusal
  have hasks : asksForKey [[refusal]] = false := by
    simp [asksForKey, htype, Types.rejected, Types.publicKeyRequest]
  cases hanonymous : origin.address.isAnonymous with
  | true =>
    obtain ⟨hembedded, hresolves⟩ := embeddedKey_of_anonymous hanonymous resolver
    rw [← hembedded] at hvalues
    obtain ⟨bundle, hreads, hparse⟩ := parseInternal_assemble hkey h
      (nonzero_of_addressed (by decide) hvalues)
      (fun header hheader rest => takeOuterOrigin_embedded hheader rest hresolves hvalues _)
      (validateHeader_embedded hdestination hdata)
    rw [hasks] at hparse
    exact parsePublicKeyReply_of_refusal htype hparse hreads
  | false =>
    by_cases hexpected : expected.any (· ≠ origin.publicKey)
    . rw [Bundle.parsePublicKeyReply,
        parseInternal_assemble_error h (nonzero_of_addressed (by decide) hvalues)
          (fun header _ rest => by
            rw [takeOuterOrigin_advertised rest hanonymous hvalues expected, if_pos hexpected])]
      simp
    . obtain ⟨bundle, hreads, hparse⟩ := parseInternal_assemble hkey h
        (nonzero_of_addressed (by decide) hvalues)
        (fun header _ rest => by
          rw [takeOuterOrigin_advertised rest hanonymous hvalues expected, if_neg hexpected])
        (validateHeader_embedded hdestination hdata)
      rw [hasks] at hparse
      exact parsePublicKeyReply_of_refusal htype hparse hreads

end Reply

end Builders

/--
What the builders write is read back by the parsers, for every key pair of the origin. A request for
a public key has its own bundle, and the parser refuses it in any other. A probe is taken whatever key
it requests. The reply to a probe is taken exactly if its origin has a known address and signs with the
expected key, or with the current one where none is expected.
-/
theorem bundle_round_trip (c : Crypto) (sign : SignTlv) (secret : SecretKey) (origin : Identity)
    (hkey : KeyPair c sign secret origin.publicKey) (resolver : KeyResolver) (timestamp : UInt64)
    (bytes : List UInt8)
    : (∀ destination payloadGroups,
        Resolves resolver origin → Resolves resolver destination →
        (asksForKey payloadGroups → isDedicated payloadGroups) →
        buildBundle c sign origin secret destination timestamp payloadGroups = .ok bytes →
        ∃ bundle, Bundle.parse c bytes resolver = .ok bundle ∧
          ReadsAs c bundle origin destination none none timestamp payloadGroups) ∧
      (∀ destination requested key requestIdentifier,
        Resolves resolver origin →
        requested = some key ∨ (requested = none ∧ resolver destination = some key) →
        buildPublicKeyProbe c sign origin secret destination requested timestamp requestIdentifier =
          .ok bytes →
        ∃ bundle, Bundle.parse c bytes resolver = .ok bundle ∧
          ReadsAs c bundle origin ⟨destination, key⟩ none requested timestamp
            [[publicKeyRequest requestIdentifier]] ∧
          ∃ payload, bundle.payloads = [payload] ∧ ∀ hash, c.hashTlv payload.encoded = .ok hash →
            bundle.publicKeyRequest c = .ok (some (requestIdentifier, hash))) ∧
      (∀ destination requestIdentifier responseTo currentKey expected,
        Resolves resolver destination →
        buildPublicKeyReply c sign origin secret destination timestamp requestIdentifier responseTo
          currentKey = .ok bytes →
        ((∃ bundle, Bundle.parsePublicKeyReply c bytes resolver expected = .ok bundle) ↔
          origin.address.isAnonymous = false ∧ origin.publicKey = expected.getD currentKey)) ∧
      (∀ destination requestIdentifier responseTo expected,
        Resolves resolver destination →
        buildPublicKeyUnavailableReply c sign origin secret destination timestamp requestIdentifier
          responseTo = .ok bytes →
        ¬∃ bundle, Bundle.parsePublicKeyReply c bytes resolver expected = .ok bundle) := by
  refine ⟨?_, ?_, ?_, ?_⟩
  . intro destination payloadGroups horigin hdestination hdedicated h
    obtain ⟨bundle, hreads, hparse⟩ := parse_buildBundle hkey horigin hdestination h
    refine ⟨bundle, ?_, hreads⟩
    rw [hparse, if_neg]
    simpa using hdedicated
  . intro destination requested key requestIdentifier horigin hdestination h
    obtain ⟨bundle, hparse, hreads⟩ := parse_buildPublicKeyProbe hkey horigin hdestination h
    exact ⟨bundle, hparse, hreads, publicKeyRequest_probe hreads⟩
  . intro destination requestIdentifier responseTo currentKey expected hdestination h
    cases hanonymous : origin.address.isAnonymous with
    | true =>
      have hrefused := parsePublicKeyReply_anonymous hkey hanonymous hdestination h expected
      simp [hrefused]
    | false =>
      rw [parsePublicKeyReply_buildPublicKeyReply hkey hanonymous hdestination h expected]
      simp
  . intro destination requestIdentifier responseTo expected hdestination h
    exact parsePublicKeyReply_unavailable hkey hdestination h expected

namespace SharedRequest

def crypto : Crypto where
  verifyTlv := fun _ _ _ => .ok true
  hashTlv := fun _ => .ok (Vector.replicate 32 0)
  hashInboundItem := fun _ => .ok (Vector.replicate 32 0)

def sign : SignTlv := fun _ _ => .ok (Vector.replicate 64 0)

theorem origin_valid : validateAddress "fidonet" 1 2 3 0 = .ok () := by decide

def origin : Identity := ⟨⟨"fidonet", 1, 2, 3, 0, origin_valid⟩, Vector.replicate 32 1⟩

theorem destination_valid : validateAddress "fidonet" 1 2 4 0 = .ok () := by decide

def destination : Identity := ⟨⟨"fidonet", 1, 2, 4, 0, destination_valid⟩, Vector.replicate 32 2⟩

def resolver : KeyResolver := fun address =>
  if address = origin.address then some origin.publicKey
  else if address = destination.address then some destination.publicKey
  else none

def secret : SecretKey := Vector.replicate 64 0

-- Two requests for a public key in one payload.
def payloadGroups : List (List OwnedTlv) := [[publicKeyRequest 1, publicKeyRequest 2]]

theorem keyPair : KeyPair crypto sign secret origin.publicKey := by
  intro _ _ _
  rfl

end SharedRequest

theorem shared_public_key_request_refused
    : ¬∀ (c : Crypto) (sign : SignTlv) (secret : SecretKey) (origin destination : Identity)
        (resolver : KeyResolver) (timestamp : UInt64) (payloadGroups : List (List OwnedTlv))
        (bytes : List UInt8),
        KeyPair c sign secret origin.publicKey → Resolves resolver origin →
        Resolves resolver destination →
        buildBundle c sign origin secret destination timestamp payloadGroups = .ok bytes →
        ∃ bundle, Bundle.parse c bytes resolver = .ok bundle := by
  intro h
  have hbuilt : ∀ bytes ∈ (buildBundle SharedRequest.crypto SharedRequest.sign SharedRequest.origin
      SharedRequest.secret SharedRequest.destination 0 SharedRequest.payloadGroups).toOption,
      (Bundle.parse SharedRequest.crypto bytes SharedRequest.resolver).toOption = none := by
    decide +kernel
  have hsome : (buildBundle SharedRequest.crypto SharedRequest.sign SharedRequest.origin
      SharedRequest.secret SharedRequest.destination 0
      SharedRequest.payloadGroups).toOption.isSome := by
    decide
  cases hbuild : buildBundle SharedRequest.crypto SharedRequest.sign SharedRequest.origin
      SharedRequest.secret SharedRequest.destination 0 SharedRequest.payloadGroups with
  | error error =>
    rw [hbuild] at hsome
    cases hsome
  | ok bytes =>
    rw [hbuild] at hbuilt
    obtain ⟨bundle, hparse⟩ := h SharedRequest.crypto SharedRequest.sign SharedRequest.secret
      SharedRequest.origin SharedRequest.destination SharedRequest.resolver 0
      SharedRequest.payloadGroups bytes SharedRequest.keyPair (fun _ => by decide)
      (fun _ => by decide) hbuild
    have hnone := hbuilt bytes rfl
    rw [hparse] at hnone
    cases hnone

namespace PollGroups

theorem destination_valid : validateAddress "fidonet" (-1) (-1) (-1) 0 = .ok () := by decide

-- A system without an address, known by its key alone.
def destination : Identity := ⟨⟨"fidonet", -1, -1, -1, 0, destination_valid⟩, Vector.replicate 32 2⟩

def poll (typeCode requestIdentifier : UInt64) : OwnedTlv :=
  carrierValue typeCode (carrierValue Types.requestIdentifier (encodeU64 requestIdentifier)).encode

-- Two polls in one payload and a third one in another.
def payloadGroups : List (List OwnedTlv) :=
  [[poll Types.pollMessages 1, poll Types.pollFiles 2], [poll Types.pollFileRequests 300]]

end PollGroups

open SharedRequest in
theorem bundle_round_trip_polls
    : ∃ bytes bundle, buildBundle crypto sign origin secret PollGroups.destination 0 PollGroups.payloadGroups =
          .ok bytes ∧
        Bundle.parse crypto bytes resolver = .ok bundle ∧
        ReadsAs crypto bundle origin PollGroups.destination none none 0 PollGroups.payloadGroups := by
  have hsome : (buildBundle crypto sign origin secret PollGroups.destination 0
      PollGroups.payloadGroups).toOption.isSome := by
    decide +kernel
  cases hbuild : buildBundle crypto sign origin secret PollGroups.destination 0 PollGroups.payloadGroups with
  | error error =>
    rw [hbuild] at hsome
    cases hsome
  | ok bytes =>
    obtain ⟨bundle, hparse, hreads⟩ := (bundle_round_trip crypto sign secret origin keyPair resolver 0 bytes).1
      PollGroups.destination PollGroups.payloadGroups (fun _ => by decide)
      (fun hknown => absurd hknown (by decide)) (by decide) hbuild
    exact ⟨bytes, bundle, rfl, hparse, hreads⟩

end Tith
