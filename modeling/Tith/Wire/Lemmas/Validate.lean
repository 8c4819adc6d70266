import Tith.Wire.Lemmas.Cursor

/-!
This module contains the runs of the validator: what it has read from an item, part by part, and the
cursors between the parts.
-/

namespace Tith

open Cursor StateExcept

structure MessageRun (c : Crypto) (value : OwnedTlv) (resolver : KeyResolver) where
  children : List OwnedTlv
  origin : AddressPart
  signedOrigin : Option AddressPart
  destination : Option Identity
  area : Option AreaData
  signed : ItemSignature
  requestIdentifier : UInt64
  afterHead : Cursor
  afterText : Cursor
  afterBody : Cursor
  afterSignature : Cursor
  last : Cursor
  hchildren : parseChildren value.value = .ok children
  head : readMessageHead children resolver (Cursor.new children) =
    .ok ((origin, signedOrigin, destination), afterHead)
  text : readMessageText destination afterHead = .ok (area, afterText)
  body : readMessageBody c resolver destination afterText = .ok ((), afterBody)
  signature : readMessageSignature c children resolver origin signedOrigin afterBody =
    .ok (signed, afterSignature)
  suffix : readMessageSuffix afterSignature = .ok (requestIdentifier, last)

def MessageRun.item {c : Crypto} {value : OwnedTlv} {resolver : KeyResolver}
    (run : MessageRun c value resolver)
    : ValidatedItem :=
  { ValidatedItem.ofKind (if run.destination.isSome then .netMail else .echoMail)
      run.requestIdentifier value with
    duplicateIdentity := run.signed.duplicateIdentity
    authentication := some run.signed.authentication
    provenance := some run.signed.provenance
    destination := run.destination
    area := run.area.map AreaData.name }

theorem validateMessage_iff {c : Crypto} {value : OwnedTlv} {resolver : KeyResolver}
    {item : ValidatedItem}
    : validateMessage c value resolver = .ok item ↔
        ∃ run : MessageRun c value resolver, run.item = item := by
  constructor
  . intro h
    simp only [validateMessage, Cursor.read, Except.bind_ok_iff, bind_run_iff, Prod.exists,
      pure_run_iff] at h
    obtain ⟨children, hchildren, result, last, ⟨origin, signedOrigin, destination, afterHead, head, area,
      afterText, text, _, afterBody, body, signed, afterSignature, signature, requestIdentifier, last',
      suffix, hresult, _⟩, hitem⟩ := h
    injection hitem with hitem
    subst hitem
    exact ⟨⟨children, origin, signedOrigin, destination, area, signed, requestIdentifier, afterHead,
      afterText, afterBody, afterSignature, last', hchildren, head, text, body, signature, suffix⟩,
      hresult⟩
  . rintro ⟨run, rfl⟩
    simp only [validateMessage, Cursor.read, run.hchildren, Except.bind_of_ok, bind_of_ok run.head,
      bind_of_ok run.text, bind_of_ok run.body, bind_of_ok run.signature, bind_of_ok run.suffix]
    rfl

structure FileRun (c : Crypto) (value : OwnedTlv) (resolver : KeyResolver) where
  children : List OwnedTlv
  area : Option AreaData
  originEntry : Nat × OwnedTlv
  origin : AddressPart
  signedOrigin : Option AddressPart
  signed : ItemSignature
  requestIdentifier : UInt64
  afterHead : Cursor
  atOrigin : Cursor
  afterOrigin : Cursor
  afterSigned : Cursor
  afterMetadata : Cursor
  afterSignature : Cursor
  afterRequest : Cursor
  afterRoute : Cursor
  last : Cursor
  hchildren : parseChildren value.value = .ok children
  head : readFileHead true children (Cursor.new children) = .ok (area, afterHead)
  found : optional Types.origin afterHead = .ok (some originEntry, atOrigin)
  readOrigin : readAddressPart originEntry.2 atOrigin = .ok (origin, afterOrigin)
  readSigned : optionalAddressPart Types.signedOrigin afterOrigin = .ok (signedOrigin, afterSigned)
  metadata : readFileMetadata afterSigned = .ok ((), afterMetadata)
  signature : readFileSignature c children resolver origin signedOrigin afterMetadata =
    .ok (signed, afterSignature)
  request : takeNumber Types.requestIdentifier "File RequestIdentifier" afterSignature =
    .ok (requestIdentifier, afterRequest)
  route : readFileRoute area afterRequest = .ok ((), afterRoute)
  finished : finish afterRoute = .ok ((), last)

def FileRun.item {c : Crypto} {value : OwnedTlv} {resolver : KeyResolver}
    (run : FileRun c value resolver)
    : ValidatedItem :=
  { ValidatedItem.ofKind .file run.requestIdentifier value with
    duplicateIdentity := run.signed.duplicateIdentity
    authentication := some run.signed.authentication
    provenance := some run.signed.provenance
    area := run.area.map AreaData.name }

theorem validateStandaloneFile_iff {c : Crypto} {value : OwnedTlv} {resolver : KeyResolver}
    {item : ValidatedItem}
    : validateStandaloneFile c value resolver = .ok item ↔
        ∃ run : FileRun c value resolver, run.item = item := by
  constructor
  . intro h
    simp only [validateStandaloneFile, Cursor.read, Except.bind_ok_iff, bind_run_iff, Prod.exists] at h
    obtain ⟨children, hchildren, result, last, ⟨area, afterHead, head, found, atOrigin, hfound, hrest⟩,
      hitem⟩ := h
    injection hitem with hitem
    subst hitem
    cases found with
    | none => simp at hrest
    | some originEntry =>
      simp only [bind_run_iff, pure_run_iff] at hrest
      obtain ⟨origin, afterOrigin, readOrigin, signedOrigin, afterSigned, readSigned, _, afterMetadata,
        metadata, signed, afterSignature, signature, requestIdentifier, afterRequest, request, _,
        afterRoute, route, _, last', finished, hresult, _⟩ := hrest
      exact ⟨⟨children, area, originEntry, origin, signedOrigin, signed, requestIdentifier, afterHead,
        atOrigin, afterOrigin, afterSigned, afterMetadata, afterSignature, afterRequest, afterRoute,
        last', hchildren, head, hfound, readOrigin, readSigned, metadata, signature, request, route,
        finished⟩, hresult⟩
  . rintro ⟨run, rfl⟩
    simp only [validateStandaloneFile, Cursor.read, run.hchildren, Except.bind_of_ok,
      bind_of_ok run.head, bind_of_ok run.found, bind_of_ok run.readOrigin, bind_of_ok run.readSigned,
      bind_of_ok run.metadata, bind_of_ok run.signature, bind_of_ok run.request, bind_of_ok run.route,
      bind_of_ok run.finished]
    rfl

theorem parseIdentity_key {value : OwnedTlv} {publicKey : Option OwnedTlv} {resolver : KeyResolver}
    {result : Identity} (h : parseIdentity value publicKey resolver = .ok result)
    : addressValue value = .ok result.address ∧
        (result.address.isAnonymous = true →
          ∃ keyTlv, publicKey = some keyTlv ∧ publicKeyValue keyTlv = .ok result.publicKey) ∧
        (result.address.isAnonymous = false →
          publicKey = none ∧ resolver result.address = some result.publicKey) := by
  simp only [parseIdentity, Except.bind_ok_iff] at h
  obtain ⟨address, haddress, h⟩ := h
  split at h
  . next hanonymous =>
    simp only [Except.bind_ok_iff, Option.okOr_eq_ok] at h
    obtain ⟨keyTlv, hkeyTlv, key, hkey, heq⟩ := h
    cases heq
    refine ⟨haddress, fun _ => ⟨keyTlv, hkeyTlv, hkey⟩, ?_⟩
    intro hlisted
    rw [hanonymous] at hlisted
    cases hlisted
  . next hlisted =>
    split at h
    . cases h
    . next hnone =>
      simp only [Except.bind_ok_iff, Option.okOr_eq_ok] at h
      obtain ⟨key, hkey, heq⟩ := h
      cases heq
      refine ⟨haddress, ?_, fun _ => ⟨by simpa using hnone, hkey⟩⟩
      intro hanonymous
      exact absurd hanonymous hlisted

theorem readMessageHead_destination {children : List OwnedTlv} {resolver : KeyResolver}
    {origin : AddressPart} {signedOrigin : Option AddressPart} {destination : Identity}
    {cursor next : Cursor}
    (h : readMessageHead children resolver cursor = .ok ((origin, signedOrigin, some destination), next))
    : ∃ part : AddressPart, parseIdentity part.value part.publicKey resolver = .ok destination := by
  unfold readMessageHead at h
  split at h
  . simp at h
  . simp only [bind_run_iff, Prod.exists] at h
    obtain ⟨_, _, _, _, _, _, _, _, _, _, part, _, _, h⟩ := h
    cases part with
    | none => simp at h
    | some part =>
      simp only [bind_run_iff, lift_run_iff, pure_run_iff, Prod.mk.injEq] at h
      obtain ⟨found, _, ⟨hfound, _⟩, ⟨_, _, heq⟩, _⟩ := h
      cases heq
      exact ⟨part, hfound⟩

theorem MessageRun.destination_key {c : Crypto} {value : OwnedTlv} {resolver : KeyResolver}
    (run : MessageRun c value resolver) {destination : Identity}
    (hdestination : run.destination = some destination)
    (hlisted : destination.address.isAnonymous = false)
    : resolver destination.address = some destination.publicKey := by
  have head := run.head
  rw [hdestination] at head
  obtain ⟨part, hpart⟩ := readMessageHead_destination head
  exact ((parseIdentity_key hpart).2.2 hlisted).2

theorem map_some_eq_ok {x : Except BundleError ValidatedItem} {item : ValidatedItem}
    : x.map some = .ok (some item) ↔ x = .ok item := by
  cases x with
  | error e => simp [Except.map]
  | ok result => simp [Except.map]

theorem read_kind {value : OwnedTlv} {reader : List OwnedTlv → Reader ValidatedItem} {kind : ItemKind}
    {item : ValidatedItem}
    (hreader : ∀ children, Ensures (fun _ => ()) (reader children) (fun _ item => item.kind = kind))
    (h : Cursor.read value reader = .ok item)
    : item.kind = kind := by
  obtain ⟨children, cursor, _, hrun⟩ := read_ok h
  exact ((hreader children).run _ _ _ hrun).2

theorem validateResponse_kind {value : OwnedTlv} {isAccepted : Bool} {item : ValidatedItem}
    (h : validateResponse value isAccepted = .ok item)
    : item.kind = if isAccepted then .accepted else .rejected := by
  unfold validateResponse at h
  split at h
  . apply read_kind _ h
    intro children
    repeat' first
      | (apply ensures_pure; intro _; rfl)
      | (apply ensures_of_keeps (keeps_unit _); intro _)
      | split
  . apply read_kind _ h
    intro children
    repeat' first
      | (apply ensures_pure; intro _; rfl)
      | (apply ensures_of_keeps (keeps_unit _); intro _)
      | split

theorem validateItem_cases {c : Crypto} {value : OwnedTlv} {resolver : KeyResolver} {item : ValidatedItem}
    (h : validateItem c value resolver = .ok (some item))
    : (value.typeCode = Types.message ∧ validateMessage c value resolver = .ok item) ∨
        (value.typeCode = Types.file ∧ validateStandaloneFile c value resolver = .ok item) ∨
        (item.kind ≠ .netMail ∧ item.kind ≠ .echoMail ∧ item.kind ≠ .file) := by
  -- Only messages and files become items of their kinds.
  have hother : ∀ kind, item.kind = kind → kind ≠ .netMail ∧ kind ≠ .echoMail ∧ kind ≠ .file →
      item.kind ≠ .netMail ∧ item.kind ≠ .echoMail ∧ item.kind ≠ .file := by
    rintro _ rfl h
    exact h
  unfold validateItem at h
  split at h
  . next htype => exact .inl ⟨htype, map_some_eq_ok.mp h⟩
  split at h
  . next htype =>
    unfold validateFile at h
    rw [if_pos rfl] at h
    exact .inr (.inl ⟨htype, map_some_eq_ok.mp h⟩)
  right
  right
  split at h
  . exact hother .fileRequest
      (List.mem_singleton.mp (validateFileRequest_identified (map_some_eq_ok.mp h)).1) (by decide)
  split at h
  . exact hother .accepted (validateResponse_kind (map_some_eq_ok.mp h)) (by decide)
  split at h
  . exact hother .rejected (validateResponse_kind (map_some_eq_ok.mp h)) (by decide)
  split at h
  . exact hother .pollMessages
      (List.mem_singleton.mp (simpleRequest_identified (map_some_eq_ok.mp h)).1) (by decide)
  split at h
  . exact hother .pollFiles
      (List.mem_singleton.mp (simpleRequest_identified (map_some_eq_ok.mp h)).1) (by decide)
  split at h
  . exact hother .pollFileRequests
      (List.mem_singleton.mp (simpleRequest_identified (map_some_eq_ok.mp h)).1) (by decide)
  split at h
  . exact hother .publicKeyRequest
      (List.mem_singleton.mp (simpleRequest_identified (map_some_eq_ok.mp h)).1) (by decide)
  split at h
  . cases h
  . cases h

theorem validateItem_of_message {c : Crypto} {value : OwnedTlv} {resolver : KeyResolver}
    {item : ValidatedItem} (htype : value.typeCode = Types.message)
    : validateItem c value resolver = .ok (some item) ↔
        ∃ run : MessageRun c value resolver, run.item = item := by
  rw [← validateMessage_iff, validateItem, if_pos htype, map_some_eq_ok]

theorem validateItem_of_file {c : Crypto} {value : OwnedTlv} {resolver : KeyResolver}
    {item : ValidatedItem} (htype : value.typeCode = Types.file)
    : validateItem c value resolver = .ok (some item) ↔
        ∃ run : FileRun c value resolver, run.item = item := by
  have hne : value.typeCode ≠ Types.message := by
    rw [htype]
    decide
  rw [← validateStandaloneFile_iff, validateItem, if_neg hne, if_pos htype, validateFile, if_pos rfl,
    map_some_eq_ok]

theorem validateItem_of_fileRequest {c : Crypto} {value : OwnedTlv} {resolver : KeyResolver}
    {item : ValidatedItem} (htype : value.typeCode = Types.fileRequest)
    : validateItem c value resolver = .ok (some item) ↔ validateFileRequest value = .ok item := by
  have hmessage : value.typeCode ≠ Types.message := by
    rw [htype]
    decide
  have hfile : value.typeCode ≠ Types.file := by
    rw [htype]
    decide
  rw [validateItem, if_neg hmessage, if_neg hfile, if_pos htype, map_some_eq_ok]

theorem validateItem_message {c : Crypto} {value : OwnedTlv} {resolver : KeyResolver}
    {item : ValidatedItem} (h : validateItem c value resolver = .ok (some item))
    (hkind : item.kind = .netMail ∨ item.kind = .echoMail)
    : value.typeCode = Types.message ∧ ∃ run : MessageRun c value resolver, run.item = item := by
  rcases validateItem_cases h with ⟨htype, hmessage⟩ | ⟨_, hfile⟩ | ⟨hnet, hecho, _⟩
  . exact ⟨htype, validateMessage_iff.mp hmessage⟩
  . obtain ⟨run, rfl⟩ := validateStandaloneFile_iff.mp hfile
    rcases hkind with hkind | hkind <;> cases hkind
  . rcases hkind with hkind | hkind
    . exact absurd hkind hnet
    . exact absurd hkind hecho

inductive SignatureRead (c : Crypto) (kind : SignedItemKind) (children : List OwnedTlv)
    (resolver : KeyResolver) (origin : AddressPart) (signedOrigin : Option AddressPart) (cursor : Cursor)
    : ItemSignature → Cursor → Prop where
  | unsigned (hnone : signedOrigin = none)
      (hhead : ∀ value ∈ cursor.defined.head?, value.typeCode ≠ Types.signature)
      : SignatureRead c kind children resolver origin signedOrigin cursor
          ⟨⟨origin.address, none⟩, .unsigned, none⟩ cursor
  | signed {index : Nat} {value : OwnedTlv} {signer : Identity} {signature : Signature}
      {authenticated : Bool} (hfinds : cursor.Finds index value)
      (htype : value.typeCode = Types.signature) (hsignature : signatureValue value = .ok signature)
      (hsigner : parseProvenance origin signedOrigin resolver = .ok signer)
      (hverified :
        c.verifyTlv (encodedPrefix children index) signature signer.publicKey = .ok authenticated)
      : SignatureRead c kind children resolver origin signedOrigin cursor
          ⟨⟨origin.address, some signer⟩, itemAuthentication origin.address signer authenticated,
            if authenticated then some ⟨kind, signer, signature⟩ else none⟩
          ⟨cursor.values, index + 1⟩

section Signature

variable {c : Crypto} {children : List OwnedTlv} {resolver : KeyResolver} {origin : AddressPart}
  {signedOrigin : Option AddressPart} {cursor next : Cursor} {result : ItemSignature}

theorem unsignedItem_eq_ok (h : unsignedItem origin signedOrigin = .ok result)
    : signedOrigin = none ∧ result = ⟨⟨origin.address, none⟩, .unsigned, none⟩ := by
  unfold unsignedItem at h
  split at h
  . cases h
  . next hnone =>
    cases h
    exact ⟨by simpa using hnone, rfl⟩

theorem verifyItem_eq_ok {kind : SignedItemKind} {signer : Identity} {index : Nat}
    {signature : Signature} (h : verifyItem c kind children origin signer index signature = .ok result)
    : ∃ authenticated,
        c.verifyTlv (encodedPrefix children index) signature signer.publicKey = .ok authenticated ∧
        result = ⟨⟨origin.address, some signer⟩, itemAuthentication origin.address signer authenticated,
          if authenticated then some ⟨kind, signer, signature⟩ else none⟩ := by
  simp only [verifyItem, Except.bind_ok_iff, Except.mapError_eq_ok] at h
  obtain ⟨authenticated, hverified, heq⟩ := h
  cases heq
  exact ⟨authenticated, hverified, rfl⟩

theorem readMessageSignature_run
    (h : readMessageSignature c children resolver origin signedOrigin cursor = .ok (result, next))
    : SignatureRead c .message children resolver origin signedOrigin cursor result next := by
  simp only [readMessageSignature, bind_run_iff] at h
  obtain ⟨entry, cursor', hentry, h⟩ := h
  obtain ⟨rfl, rfl, hhead⟩ | ⟨index, value, rfl, rfl, hfinds, htype⟩ := optional_run hentry
  . obtain ⟨hunsigned, rfl⟩ := lift_run_iff.mp h
    obtain ⟨hnone, hresult⟩ := unsignedItem_eq_ok hunsigned
    dsimp only at hresult
    rw [hresult]
    exact .unsigned hnone hhead
  . simp only [bind_run_iff, lift_run_iff] at h
    obtain ⟨signer, _, ⟨hsigner, rfl⟩, signature, _, ⟨hsignature, rfl⟩, hverify, rfl⟩ := h
    obtain ⟨authenticated, hverified, rfl⟩ := verifyItem_eq_ok hverify
    exact .signed hfinds htype hsignature hsigner hverified

theorem readFileSignature_run
    (h : readFileSignature c children resolver origin signedOrigin cursor = .ok (result, next))
    : SignatureRead c .file children resolver origin signedOrigin cursor result next := by
  simp only [readFileSignature, bind_run_iff] at h
  obtain ⟨entry, cursor', hentry, h⟩ := h
  obtain ⟨rfl, rfl, hhead⟩ | ⟨index, value, rfl, rfl, hfinds, htype⟩ := optional_run hentry
  . obtain ⟨hunsigned, rfl⟩ := lift_run_iff.mp h
    obtain ⟨hnone, hresult⟩ := unsignedItem_eq_ok hunsigned
    dsimp only at hresult
    rw [hresult]
    exact .unsigned hnone hhead
  . simp only [bind_run_iff, lift_run_iff] at h
    obtain ⟨signature, _, ⟨hsignature, rfl⟩, signer, _, ⟨hsigner, rfl⟩, hverify, rfl⟩ := h
    obtain ⟨authenticated, hverified, rfl⟩ := verifyItem_eq_ok hverify
    exact .signed hfinds htype hsignature hsigner hverified

end Signature

/--
A signature among the children of a value that the key of its signer verifies for the children in front
of it.
-/
def SignatureValid (c : Crypto) (value : OwnedTlv) (signed : SignedItemIdentity) : Prop :=
  ∃ children index signatureTlv, parseChildren value.value = .ok children ∧
    children[index]? = some signatureTlv ∧ signatureTlv.typeCode = Types.signature ∧
    signatureValue signatureTlv = .ok signed.signature ∧
    c.verifyTlv (encodedPrefix children index) signed.signature signed.signer.publicKey = .ok true

theorem MessageRun.afterBody_values {c : Crypto} {value : OwnedTlv} {resolver : KeyResolver}
    (run : MessageRun c value resolver)
    : run.afterBody.values = run.children := by
  rw [((readMessageBody_keeps c resolver run.destination).run _ _ _ run.body).1,
    ((readMessageText_keeps run.destination).run _ _ _ run.text).1,
    ((readMessageHead_keeps run.children resolver).run _ _ _ run.head).1]
  rfl

theorem MessageRun.signatureValid {c : Crypto} {value : OwnedTlv} {resolver : KeyResolver}
    (run : MessageRun c value resolver) {signed : SignedItemIdentity}
    (h : run.signed.duplicateIdentity = some signed)
    : SignatureValid c value signed := by
  have hread := readMessageSignature_run run.signature
  generalize run.signed = result at h hread
  generalize run.afterSignature = next at hread
  cases hread with
  | unsigned => cases h
  | @signed index signatureTlv signer signature authenticated hfinds htype hsignature _ hverified =>
    cases authenticated with
    | false => cases h
    | true =>
      cases h
      exact ⟨run.children, index, signatureTlv, run.hchildren, run.afterBody_values ▸ hfinds.here, htype,
        hsignature, hverified⟩

end Tith
