import Tith.Wire.Carrier
import Tith.Wire.Lemmas.Layout
import Tith.Wire.Lemmas.Tlv

/-!
This module contains the agreement of the validator and the readers: which accepted items can be read,
and that what is read is what was accepted.
-/

namespace Tith

open Cursor StateExcept

/--
An item without a signature whose origin is followed by something that is not a key. The validator does
not look at that key, but the readers do.
-/
def Unreadable (children : List OwnedTlv) : Prop :=
  BrokenKey children ∧ ∀ child ∈ children, child.typeCode ≠ Types.signature

/--
What is read about the signer is what the validator has found and verified.
-/
def SigningAgrees (c : Crypto) (children : List OwnedTlv) (item : ValidatedItem) (signing : ItemSigning)
    : Prop :=
  ∃ provenance, item.provenance = some provenance ∧ signing.origin = provenance.origin ∧
    ((provenance.signer = none ∧ item.authentication = some .unsigned ∧ signing.signature = none ∧
        signing.signedOrigin = none ∧ signing.signedRegion = []) ∨
      ∃ signer signature index authenticated, provenance.signer = some signer ∧
        (signer.address = signing.origin ∨ signing.signedOrigin = some signer.address) ∧
        signing.signature = some signature ∧
        (children[index]?).map OwnedTlv.typeCode = some Types.signature ∧
        signing.signedRegion = encodedPrefix children index ∧
        c.verifyTlv signing.signedRegion signature signer.publicKey = .ok authenticated ∧
        item.authentication = some (itemAuthentication provenance.origin signer authenticated))

section Signature

variable {c : Crypto} {kind : SignedItemKind} {children : List OwnedTlv} {resolver : KeyResolver}
  {origin : AddressPart} {signedOrigin : Option AddressPart} {before after : Cursor} {result : ItemSignature}

theorem SignatureRead.parseKey_iff
    (h : SignatureRead c kind children resolver origin signedOrigin before result after)
    (layout : Layout children origin before after)
    : (∃ key, parseKey origin.publicKey = .ok key) ↔ ¬Unreadable children := by
  rw [layout.parseKey_iff h.passes]
  constructor
  . intro hkey hunreadable
    exact hkey hunreadable.1
  . intro hreadable hbroken
    apply hreadable
    refine ⟨hbroken, ?_⟩
    intro child hmem htype
    obtain ⟨j, hj⟩ := List.getElem?_of_mem hmem
    cases h with
    | unsigned =>
      obtain ⟨hle, hlt⟩ := layout.signature_index (Passes.refl _ _) hj htype
      omega
    | signed hfinds hsignature hvalue hsigner =>
      have hkey := (parseProvenance_run hsigner).1
      exact (layout.parseKey_iff (hfinds.passes (by simp [hsignature]))).mp hkey hbroken

theorem SignatureRead.signedOrigin_parts
    (h : SignatureRead c kind children resolver origin signedOrigin before result after)
    : ∃ parts : SignedOriginParts, parts.Of signedOrigin := by
  cases h with
  | unsigned hnone => exact ⟨⟨none, none, []⟩, by rw [hnone]; rfl⟩
  | signed _ _ _ hsigner =>
    cases signedOrigin with
    | none => exact ⟨⟨none, none, []⟩, rfl⟩
    | some part =>
      obtain ⟨key, hkey⟩ := (parseProvenance_run hsigner).2.1 part rfl
      exact ⟨⟨some part.address, key, _⟩, rfl, hkey, rfl⟩

theorem SignatureRead.agrees {parts : SignedOriginParts} (item : ValidatedItem)
    (originKey : Option PublicKey)
    (h : SignatureRead c kind children resolver origin signedOrigin before result after)
    (hvalues : before.values = children)
    (hsignedOrigin : ∀ part ∈ signedOrigin, addressValue part.value = .ok part.address)
    (hparts : parts.Of signedOrigin) (hprovenance : item.provenance = some result.provenance)
    (hauthentication : item.authentication = some result.authentication)
    : ∃ read, readSignature children before = .ok (read, after) ∧
        SigningAgrees c children item (itemSigning (origin.address, originKey) parts read) := by
  cases h with
  | unsigned hnone hhead =>
    rw [hnone] at hparts
    obtain rfl : parts = ⟨none, none, []⟩ := hparts
    refine ⟨(none, []), ?_, _, hprovenance, rfl, .inl ⟨rfl, hauthentication, rfl, rfl, rfl⟩⟩
    rw [readSignature, bind_of_ok (optional_eq_none hhead)]
    rfl
  | @signed index value signer signature authenticated hfinds htype hsignature hsigner hverified =>
    refine ⟨(some signature, encodedPrefix children index), ?_, _, hprovenance, rfl, .inr ⟨signer, signature,
      index, authenticated, rfl, ?_, rfl, ?_, rfl, hverified, hauthentication⟩⟩
    . rw [readSignature, bind_of_ok (htype ▸ hfinds.optional)]
      dsimp only
      rw [bind_of_ok (lift_of_ok hsignature)]
      rfl
    . rcases (parseProvenance_run hsigner).2.2 with hsame | ⟨part, hpart, haddress⟩
      . exact .inl hsame
      . right
        rw [Option.mem_def.mp hpart] at hparts
        rw [hsignedOrigin part hpart] at haddress
        rw [← Except.ok.inj haddress]
        exact hparts.1
    . rw [← hvalues, hfinds.here, Option.map_some, htype]

end Signature

/--
A message that is read has the values that were accepted.
-/
structure MessageAgrees (c : Crypto) (children : List OwnedTlv) (item : ValidatedItem) (read : ReadMessage)
    : Prop where
  requestIdentifier : read.requestIdentifier = item.requestIdentifier
  area : read.data.area.map AreaData.name = item.area
  destination : read.data.destination = item.destination
  signing : SigningAgrees c children item read.signing

structure FileAgrees (c : Crypto) (children : List OwnedTlv) (item : ValidatedItem) (read : ReadFile)
    : Prop where
  requestIdentifier : read.requestIdentifier = item.requestIdentifier
  area : read.data.area.map AreaData.name = item.area
  signing : SigningAgrees c children item read.signing

theorem optionalAddressPart_address {typeCode : UInt64} {cursor next : Cursor} {found : Option AddressPart}
    (h : optionalAddressPart typeCode cursor = .ok (found, next))
    : ∀ part ∈ found, addressValue part.value = .ok part.address := by
  rcases optionalAddressPart_run.mp h with ⟨_, rfl⟩ | ⟨entry, mid, part, _, hpart, rfl⟩
  . simp
  . obtain ⟨haddress, hvalue, _⟩ := readAddressPart_run.mp hpart
    rintro _ ⟨⟩
    rw [hvalue]
    exact haddress

section Message

variable {c : Crypto} {value : OwnedTlv} {resolver : KeyResolver} (run : MessageRun c value resolver)

theorem MessageRun.read_of_key (htype : value.typeCode = Types.message) {originKey : Option PublicKey}
    (hkey : parseKey run.origin.publicKey = .ok originKey)
    : ∃ read, readMessage value resolver = .ok read ∧ MessageAgrees c run.children run.item read := by
  obtain ⟨layout⟩ := run.layout
  have hsignature := readMessageSignature_run run.signature
  obtain ⟨_, entry, m₁, m₂, m₃, hentry, hpart, hsigned, hdestination⟩ := readMessageHead_iff.mp run.head
  obtain ⟨words, hwords, harea, _⟩ := readMessageText_iff.mp run.text
  obtain ⟨controls, hcontrols, _⟩ := readMessageBody_iff.mp run.body
  obtain ⟨m₄, m₅, m₆, route, lines, hnumber, hroute, hlines, _, hfinish⟩ := readMessageSuffix_iff.mp run.suffix
  obtain ⟨parts, hparts⟩ := hsignature.signedOrigin_parts
  obtain ⟨signature, hread, hagrees⟩ := hsignature.agrees run.item originKey layout.before_values
    (optionalAddressPart_address hsigned) hparts rfl rfl
  have horigin : readOrigin "Message Origin" (Cursor.new run.children) =
      .ok ((run.origin.address, originKey), m₂) :=
    readOrigin_run.mpr ⟨entry, m₁, run.origin, hentry, hpart, rfl, hkey⟩
  have hsignedOrigin := readSignedOrigin_run.mpr ⟨run.signedOrigin, hsigned, hparts⟩
  let reading : MessageReading value resolver :=
    ⟨run.children, (run.origin.address, originKey), parts, run.destination, words, controls, signature,
      run.requestIdentifier, route, lines, m₂, m₃, run.afterHead, run.afterText, run.afterBody,
      run.afterSignature, m₄, m₅, m₆, run.last, run.hchildren, horigin, hsignedOrigin, hdestination, hwords,
      hcontrols, hread, hnumber, hroute, hlines, hfinish⟩
  exact ⟨reading.message, (readMessage_iff htype).mpr ⟨reading, rfl⟩, rfl,
    congrArg (Option.map AreaData.name) harea, rfl, hagrees⟩

theorem MessageRun.key_of_read (htype : value.typeCode = Types.message) {reading : KeyResolver} {read : ReadMessage}
    (h : readMessage value reading = .ok read)
    : ∃ key, parseKey run.origin.publicKey = .ok key := by
  obtain ⟨reading, _⟩ := (readMessage_iff htype).mp h
  obtain ⟨_, entry, m₁, m₂, m₃, hentry, hpart, _⟩ := readMessageHead_iff.mp run.head
  obtain ⟨entry', m₁', part, hentry', hpart', _, hkey⟩ := readOrigin_run.mp reading.readOrigin
  rw [Except.ok.inj (reading.hchildren.symm.trans run.hchildren)] at hentry'
  obtain ⟨rfl, rfl⟩ := Prod.mk.inj (Except.ok.inj (hentry.symm.trans hentry'))
  obtain ⟨rfl, _⟩ := Prod.mk.inj (Except.ok.inj (hpart.symm.trans hpart'))
  exact ⟨_, hkey⟩

theorem MessageRun.read_iff (htype : value.typeCode = Types.message)
    : (∃ read, readMessage value resolver = .ok read ∧ MessageAgrees c run.children run.item read) ↔
        ¬Unreadable run.children := by
  obtain ⟨layout⟩ := run.layout
  rw [← (readMessageSignature_run run.signature).parseKey_iff layout]
  constructor
  . rintro ⟨read, hread, _⟩
    exact run.key_of_read htype hread
  . rintro ⟨key, hkey⟩
    exact run.read_of_key htype hkey

end Message

section File

variable {c : Crypto} {value : OwnedTlv} {resolver : KeyResolver} (run : FileRun c value resolver)

theorem FileRun.take_origin
    : take Types.origin "standalone File Origin" run.afterHead = .ok (run.originEntry, run.atOrigin) := by
  rcases optional_run run.found with ⟨hnone, _⟩ | ⟨index, originTlv, hsome, hcursor, hfinds, htype⟩
  . cases hnone
  . rw [Option.some.inj hsome, hcursor]
    simp only [take, hfinds.nextDefined]
    rw [if_pos htype]

theorem FileRun.read_of_key (htype : value.typeCode = Types.file) {originKey : Option PublicKey}
    (hkey : parseKey run.origin.publicKey = .ok originKey)
    : ∃ read, readStandaloneFile value = .ok read ∧ FileAgrees c run.children run.item read := by
  obtain ⟨layout⟩ := run.layout
  have hsignature := readFileSignature_run run.signature
  obtain ⟨body, mid, hbody, harea, _⟩ := (readFileHead_iff "File Contents").mp run.head
  obtain ⟨metadata, hmetadata, _⟩ := readFileMetadata_iff.mp run.metadata
  obtain ⟨vias, afterVias, seenBy, hvias, hseenBy, _⟩ := readFileRoute_iff.mp run.route
  obtain ⟨parts, hparts⟩ := hsignature.signedOrigin_parts
  obtain ⟨signature, hread, hagrees⟩ := hsignature.agrees run.item originKey layout.before_values
    (optionalAddressPart_address run.readSigned) hparts rfl rfl
  have horigin : Tith.readOrigin "standalone File Origin" run.afterHead =
      .ok ((run.origin.address, originKey), run.afterOrigin) :=
    readOrigin_run.mpr ⟨_, _, run.origin, run.take_origin, run.readOrigin, rfl, hkey⟩
  have hsignedOrigin := readSignedOrigin_run.mpr ⟨run.signedOrigin, run.readSigned, hparts⟩
  let reading : FileReading value :=
    ⟨run.children, body, run.area, (run.origin.address, originKey), parts, metadata, signature,
      run.requestIdentifier, vias, seenBy, mid, run.afterHead, run.afterOrigin, run.afterSigned,
      run.afterMetadata, run.afterSignature, run.afterRequest, afterVias, run.afterRoute, run.last,
      run.hchildren, hbody, harea, horigin, hsignedOrigin, hmetadata, hread, run.request, hvias, hseenBy,
      run.finished⟩
  exact ⟨reading.file, (readStandaloneFile_iff htype).mpr ⟨reading, rfl⟩, rfl, rfl, hagrees⟩

theorem FileRun.key_of_read (htype : value.typeCode = Types.file) {read : ReadFile}
    (h : readStandaloneFile value = .ok read)
    : ∃ key, parseKey run.origin.publicKey = .ok key := by
  obtain ⟨reading, _⟩ := (readStandaloneFile_iff htype).mp h
  obtain ⟨body, mid, hbody, harea, _⟩ := (readFileHead_iff "File Contents").mp run.head
  obtain ⟨entry', m₁', part, hentry', hpart', _, hkey⟩ := readOrigin_run.mp reading.readOrigin
  have hbody' := reading.readBody
  rw [Except.ok.inj (reading.hchildren.symm.trans run.hchildren), hbody] at hbody'
  obtain ⟨_, hmid⟩ := Prod.mk.inj (Except.ok.inj hbody')
  have harea' := reading.readArea
  rw [← hmid, harea] at harea'
  obtain ⟨_, hafter⟩ := Prod.mk.inj (Except.ok.inj harea')
  rw [← hafter, run.take_origin] at hentry'
  obtain ⟨rfl, rfl⟩ := Prod.mk.inj (Except.ok.inj hentry')
  obtain ⟨rfl, _⟩ := Prod.mk.inj (Except.ok.inj (run.readOrigin.symm.trans hpart'))
  exact ⟨_, hkey⟩

theorem FileRun.read_iff (htype : value.typeCode = Types.file)
    : (∃ read, readStandaloneFile value = .ok read ∧ FileAgrees c run.children run.item read) ↔
        ¬Unreadable run.children := by
  obtain ⟨layout⟩ := run.layout
  rw [← (readFileSignature_run run.signature).parseKey_iff layout]
  constructor
  . rintro ⟨read, hread, _⟩
    exact run.key_of_read htype hread
  . rintro ⟨key, hkey⟩
    exact run.read_of_key htype hkey

end File

theorem readFileRequest_of_validate {value : OwnedTlv} {item : ValidatedItem}
    (htype : value.typeCode = Types.fileRequest) (h : validateFileRequest value = .ok item)
    : ∃ read, readFileRequest value = .ok read ∧ read.requestIdentifier = item.requestIdentifier := by
  simp only [validateFileRequest, Cursor.read, Except.bind_ok_iff, bind_run_iff, guard_run_iff, lift_run_iff,
    Prod.exists, pure_run_iff, optionalTimestamp_iff] at h
  obtain ⟨children, hchildren, result, _, ⟨index, filenameTlv, _, hfilenameTlv, filename, _, ⟨hfilename, rfl⟩,
    _, _, _, ⟨timestamp, htimestamp⟩, request, _, hrequest, _, _, hfinish, rfl, rfl⟩, hitem⟩ := h
  injection hitem with hitem
  subst hitem
  have htext := takeText_run.mpr ⟨_, hfilenameTlv, hfilename⟩
  refine ⟨⟨filename, timestamp, request⟩, ?_, rfl⟩
  unfold readFileRequest
  rw [if_neg (by simp [htype])]
  simp only [Cursor.read, hchildren, Except.bind_of_ok, bind_of_ok htext, bind_of_ok htimestamp,
    bind_of_ok hrequest, bind_of_ok hfinish]
  rfl

/--
What the claim of a reader about an accepted item is.
-/
structure ReadersAgree (c : Crypto) (value : OwnedTlv) (resolver : KeyResolver) (children : List OwnedTlv)
    (item : ValidatedItem)
    : Prop where
  message : value.typeCode = Types.message →
    ∃ read, readMessage value resolver = .ok read ∧ MessageAgrees c children item read
  file : value.typeCode = Types.file →
    ∃ read, readStandaloneFile value = .ok read ∧ FileAgrees c children item read
  fileRequest : value.typeCode = Types.fileRequest →
    ∃ read, readFileRequest value = .ok read ∧ read.requestIdentifier = item.requestIdentifier
  model : ∃ model, ItemModel.parse c value resolver = .ok model ∧ model.toTlv = .ok value

theorem toTlv_of_children {value : OwnedTlv} {children : List OwnedTlv} {kind : ItemModelKind}
    (hchildren : parseChildren value.value = .ok children)
    (htype : (ItemModel.mk kind children).typeCode = value.typeCode)
    : (ItemModel.mk kind children).toTlv = .ok value := by
  rw [parseChildren, Except.mapError_eq_ok, parseSequence_eq_ok] at hchildren
  have hne : value.typeCode ≠ 0 := by
    rw [← htype]
    cases kind <;> simp [ItemModel.typeCode, Types.message, Types.file, Types.fileRequest]
  unfold ItemModel.toTlv OwnedTlv.new
  dsimp only
  rw [hchildren.1, htype, dif_pos value.length_lt, requireDefinedType, if_neg hne]

section Model

variable {c : Crypto} {value : OwnedTlv} {resolver : KeyResolver} {children : List OwnedTlv}
  {item : ValidatedItem}

theorem parse_message (htype : value.typeCode = Types.message)
    (hchildren : parseChildren value.value = .ok children) (h : validateMessage c value resolver = .ok item)
    : ∃ model, ItemModel.parse c value resolver = .ok model ∧ model.toTlv = .ok value := by
  refine ⟨⟨.message, children⟩, ?_, toTlv_of_children hchildren htype.symm⟩
  simp [ItemModel.parse, ItemModel.parseKind, htype, h, hchildren]

theorem parse_file (htype : value.typeCode = Types.file)
    (hchildren : parseChildren value.value = .ok children)
    (h : validateStandaloneFile c value resolver = .ok item)
    : ∃ model, ItemModel.parse c value resolver = .ok model ∧ model.toTlv = .ok value := by
  have hne : Types.file ≠ Types.message := by decide
  refine ⟨⟨.standaloneFile, children⟩, ?_, toTlv_of_children hchildren htype.symm⟩
  simp [ItemModel.parse, ItemModel.parseKind, htype, hne, validateFile, h, hchildren, Except.map]

theorem parse_fileRequest (htype : value.typeCode = Types.fileRequest)
    (hchildren : parseChildren value.value = .ok children) (h : validateFileRequest value = .ok item)
    : ∃ model, ItemModel.parse c value resolver = .ok model ∧ model.toTlv = .ok value := by
  have hmessage : Types.fileRequest ≠ Types.message := by decide
  have hfile : Types.fileRequest ≠ Types.file := by decide
  refine ⟨⟨.fileRequest, children⟩, ?_, toTlv_of_children hchildren htype.symm⟩
  simp [ItemModel.parse, ItemModel.parseKind, htype, hmessage, hfile, h, hchildren]

end Model

/--
The readers take every accepted item as it was accepted, but for the unsigned items with a broken key.
-/
theorem readers_agree_iff (c : Crypto) (value : OwnedTlv) (resolver : KeyResolver) (item : ValidatedItem)
    (hitem : value.typeCode ∈ [Types.message, Types.file, Types.fileRequest])
    (hvalid : validateItem c value resolver = .ok (some item))
    : ∃ children, parseChildren value.value = .ok children ∧
        (ReadersAgree c value resolver children item ↔
          value.typeCode = Types.fileRequest ∨ ¬Unreadable children) := by
  have hcases : value.typeCode = Types.message ∨ value.typeCode = Types.file ∨
      value.typeCode = Types.fileRequest := by simpa using hitem
  rcases hcases with htype | htype | htype
  . obtain ⟨run, rfl⟩ := (validateItem_of_message htype).mp hvalid
    refine ⟨run.children, run.hchildren, ?_⟩
    have hmodel := parse_message htype run.hchildren (validateMessage_iff.mpr ⟨run, rfl⟩)
    rw [or_iff_right (by rw [htype]; decide), ← run.read_iff htype]
    constructor
    . intro h
      exact h.message htype
    . intro h
      refine ⟨fun _ => h, ?_, ?_, hmodel⟩
      . rw [htype]
        exact fun heq => absurd heq (by decide)
      . rw [htype]
        exact fun heq => absurd heq (by decide)
  . obtain ⟨run, rfl⟩ := (validateItem_of_file htype).mp hvalid
    refine ⟨run.children, run.hchildren, ?_⟩
    have hmodel := parse_file htype run.hchildren (validateStandaloneFile_iff.mpr ⟨run, rfl⟩)
    rw [or_iff_right (by rw [htype]; decide), ← run.read_iff htype]
    constructor
    . intro h
      exact h.file htype
    . intro h
      refine ⟨?_, fun _ => h, ?_, hmodel⟩
      . rw [htype]
        exact fun heq => absurd heq (by decide)
      . rw [htype]
        exact fun heq => absurd heq (by decide)
  . have hrequest := (validateItem_of_fileRequest htype).mp hvalid
    obtain ⟨children, _, hchildren, _⟩ := read_ok hrequest
    have hparsed : parseChildren value.value = .ok children := Except.mapError_eq_ok.mpr hchildren
    refine ⟨children, hparsed, ?_⟩
    refine ⟨fun _ => .inl htype, fun _ => ⟨?_, ?_, ?_, parse_fileRequest htype hparsed hrequest⟩⟩
    . rw [htype]
      exact fun heq => absurd heq (by decide)
    . rw [htype]
      exact fun heq => absurd heq (by decide)
    . intro _
      exact readFileRequest_of_validate htype hrequest

namespace AnonymousEcho

def crypto : Crypto where
  verifyTlv _ _ _ := .ok true
  hashTlv _ := .ok (Vector.replicate 32 0)
  hashInboundItem _ := .ok (Vector.replicate 32 0)

def resolver : KeyResolver := fun _ => none

/--
An unsigned message of an anonymous node, with the bytes of its key.
-/
def message (key : List UInt8) : OwnedTlv :=
  carrierValue Types.message (concatenate
    [ carrierValue Types.origin (Bytes.ofString "fidonet#-1"),
      carrierValue Types.publicKey key,
      carrierValue Types.timestamp [1],
      carrierValue Types.toUserName [],
      carrierValue Types.fromUserName [],
      carrierValue Types.subject [],
      carrierValue Types.messageText [],
      carrierValue Types.area (concatenate [carrierValue Types.areaName (Bytes.ofString "AREA")]),
      carrierValue Types.requestIdentifier [1],
      carrierValue Types.via (concatenate
        [ carrierValue Types.address (Bytes.ofString "fidonet#1"),
          carrierValue Types.timestamp [1] ]) ])

end AnonymousEcho

theorem readers_agree_anonymousEcho
    : ∃ item children,
        validateItem AnonymousEcho.crypto (AnonymousEcho.message (List.replicate 32 0))
          AnonymousEcho.resolver = .ok (some item) ∧
        parseChildren (AnonymousEcho.message (List.replicate 32 0)).value = .ok children ∧
        (ReadersAgree AnonymousEcho.crypto (AnonymousEcho.message (List.replicate 32 0))
            AnonymousEcho.resolver children item ↔
          (AnonymousEcho.message (List.replicate 32 0)).typeCode = Types.fileRequest ∨
            ¬Unreadable children) := by
  obtain ⟨item, hvalid⟩ := @Except.exists_of_isSome _ _ (validateItem AnonymousEcho.crypto
    (AnonymousEcho.message (List.replicate 32 0)) AnonymousEcho.resolver) (by decide)
  obtain ⟨children, hchildren, hagree⟩ := readers_agree_iff AnonymousEcho.crypto
    (AnonymousEcho.message (List.replicate 32 0)) AnonymousEcho.resolver item (by decide) hvalid
  exact ⟨item, children, hvalid, hchildren, hagree⟩

/--
The validator accepts the key of one byte, and the reader does not.
-/
theorem readers_disagree_anonymousEcho
    : ∃ item, validateItem AnonymousEcho.crypto (AnonymousEcho.message [0]) AnonymousEcho.resolver =
          .ok (some item) ∧
        readMessage (AnonymousEcho.message [0]) AnonymousEcho.resolver = .error (.wrongLength "PublicKey") := by
  obtain ⟨item, hvalid⟩ := @Except.exists_of_isSome _ _ (validateItem AnonymousEcho.crypto (AnonymousEcho.message [0])
    AnonymousEcho.resolver) (by decide)
  exact ⟨item, hvalid, by decide⟩

end Tith
