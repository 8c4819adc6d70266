import Tith.Wire.Lemmas.ReadBack
import Tith.Wire.Lemmas.Trimmed

/-!
This module contains the proofs that every value of an item is read back as it was written, and that what
is written passes the checks of the validator.
-/

namespace Tith

open Cursor StateExcept

theorem and_one_eq_zero_iff (mapped : UInt64) : mapped &&& 1 = 0 ↔ mapped.toNat % 2 = 0 := by
  rw [← UInt64.toNat_inj, UInt64.toNat_and]
  simp [Nat.and_one_is_mod]

theorem decodeI64_encodeI64 (value : Int64) : decodeI64 (encodeI64 value) = .ok value.toInt := by
  have hword : value.toInt = if 2 * value.toUInt64.toNat < 2 ^ 64 then (value.toUInt64.toNat : Int)
      else (value.toUInt64.toNat : Int) - (2 ^ 64 : Nat) := BitVec.toInt_eq_toNat_cond value.toBitVec
  have hlt := value.toUInt64.toNat_lt
  unfold decodeI64 encodeI64
  rw [decodeU64_encodeU64]
  dsimp only
  split
  . next hnonneg =>
    have hmapped : (value.toUInt64 * 2).toNat = 2 * value.toInt.toNat := by
      rw [UInt64.toNat_mul]
      change value.toUInt64.toNat * 2 % 2 ^ 64 = _
      split at hword <;> omega
    rw [if_pos]
    . rw [hmapped]
      congr 1
      omega
    . rw [and_one_eq_zero_iff, hmapped]
      omega
  . next hneg =>
    have hmapped : ((UInt64.ofNat value.toInt.natAbs - 1) * 2 + 1).toNat = 2 * (value.toInt.natAbs - 1) + 1 := by
      have habs : value.toInt.natAbs ≤ 2 ^ 63 := by
        split at hword <;> omega
      have hnat : (UInt64.ofNat value.toInt.natAbs).toNat = value.toInt.natAbs := by
        apply UInt64.toNat_ofNat_of_lt'
        have hsize : UInt64.size = 2 ^ 64 := rfl
        omega
      have hsub : (UInt64.ofNat value.toInt.natAbs - 1).toNat = value.toInt.natAbs - 1 := by
        have hone : (1 : UInt64) ≤ UInt64.ofNat value.toInt.natAbs := by
          rw [UInt64.le_iff_toNat_le, hnat]
          change 1 ≤ _
          omega
        rw [UInt64.toNat_sub_of_le _ _ hone, hnat]
        rfl
      rw [UInt64.toNat_add, UInt64.toNat_mul, hsub]
      change ((value.toInt.natAbs - 1) * 2 % 2 ^ 64 + 1) % 2 ^ 64 = _
      omega
    rw [if_neg]
    . rw [hmapped]
      congr 1
      omega
    . rw [and_one_eq_zero_iff, hmapped]
      omega

theorem takeEncodedTlv_encode {tlv : OwnedTlv} {rest : List UInt8} (h : tlv.typeCode ≠ 0)
    (hlength : (tlv.encode ++ rest).length < 2 ^ 64)
    : takeEncodedTlv (tlv.encode ++ rest) = .ok (tlv, rest) := by
  have hlen := length_toUInt64 tlv
  have hbytes : tlv.encode ++ rest = encodeU64 tlv.typeCode ++
      (encodeU64 (UInt64.ofNat tlv.value.length) ++ (tlv.value ++ rest)) := by
    simp [OwnedTlv.encode]
  rw [hbytes] at hlength ⊢
  simp only [List.length_append] at hlength
  have hsecond : (encodeU64 tlv.typeCode ++
      (encodeU64 (UInt64.ofNat tlv.value.length) ++ (tlv.value ++ rest))).drop
        ((encodeU64 tlv.typeCode).length + (encodeU64 (UInt64.ofNat tlv.value.length)).length) =
      tlv.value ++ rest := by
    rw [← List.drop_drop, List.drop_left, List.drop_left]
  unfold takeEncodedTlv
  simp only [decodeU64Prefix_encodeU64, Except.mapError, Except.bind_of_ok, List.drop_left, hsecond, hlen]
  rw [if_neg (by omega), if_neg (by simp), List.take_left]
  have hnew : OwnedTlv.new tlv.typeCode tlv.value = .ok tlv := by
    rw [OwnedTlv.new, dif_pos tlv.length_lt, requireDefinedType_eq_ok.mpr h]
  rw [hnew]
  rfl

section Codecs

variable {typeCode : UInt64}

theorem codec_text (typeCode : UInt64) : Codec typeCode (textTlv typeCode) textValue := by
  intro text tlv h
  obtain ⟨htype, hvalue⟩ := assigned_ok h
  refine ⟨htype, ?_⟩
  rw [textValue, hvalue, Bytes.toString?_ofString, Option.okOr_some]

theorem codec_number (typeCode : UInt64) : Codec typeCode (numberTlv typeCode) numberValue := by
  intro number tlv h
  obtain ⟨htype, hvalue⟩ := assigned_ok h
  exact ⟨htype, numberValue_encodeU64 hvalue⟩

theorem codec_offset
    : Codec Types.timestampOffset (fun value => assigned Types.timestampOffset (encodeI64 value))
        offsetValue := by
  intro offset tlv h
  obtain ⟨htype, hvalue⟩ := assigned_ok h
  refine ⟨htype, ?_⟩
  simp only [offsetValue, hvalue, decodeI64_encodeI64, Except.mapError, Except.bind_of_ok, Int64.ofInt_toInt]

theorem lineTlv_ok {message text : String} {tlv : OwnedTlv} (h : lineTlv typeCode message text = .ok tlv)
    : IsLine text ∧ textTlv typeCode text = .ok tlv := by
  unfold lineTlv at h
  split at h
  . cases h
  . next hline => exact ⟨hline, h⟩

theorem codec_line (typeCode : UInt64) (message : String)
    : Codec typeCode (lineTlv typeCode message) textValue := by
  intro text tlv h
  exact codec_text typeCode text tlv (lineTlv_ok h).2

theorem filenameTlv_ok {name : String} {tlv : OwnedTlv} (h : filenameTlv name = .ok tlv)
    : filenameHasPathComponent name = false ∧ textTlv Types.filename name = .ok tlv := by
  simp only [filenameTlv, Except.bind_ok_iff] at h
  obtain ⟨_, hvalid, h⟩ := h
  refine ⟨?_, h⟩
  unfold validateProducedFilename at hvalid
  split at hvalid
  . cases hvalid
  . next hpath => simpa using hpath

theorem codec_filename : Codec Types.filename filenameTlv textValue := by
  intro name tlv h
  exact codec_text Types.filename name tlv (filenameTlv_ok h).2

theorem kludgeTlv_ok {line : String} {tlv : OwnedTlv} (h : kludgeTlv line = .ok tlv)
    : line.toList.contains '\x01' = false ∧ textTlv Types.additionalKludgeLine line = .ok tlv := by
  unfold kludgeTlv at h
  split at h
  . cases h
  . next hcontrol => exact ⟨by simpa using hcontrol, h⟩

theorem codec_kludge : Codec Types.additionalKludgeLine kludgeTlv textValue := by
  intro line tlv h
  exact codec_text Types.additionalKludgeLine line tlv (kludgeTlv_ok h).2

theorem codec_area : Codec Types.area areaValue validateArea := by
  intro area tlv h
  simp only [areaValue, Except.bind_ok_iff] at h
  obtain ⟨name, hname, description, hdescription, h⟩ := h
  obtain ⟨htype, hvalue⟩ := assigned_ok h
  obtain ⟨hnameType, hnameText⟩ := codec_text _ _ _ hname
  have hdescriptionField := field_optionalText (codec_text _) (by decide) hdescription
  have hkinds : Kinds [Types.areaName, Types.areaDescription] (name :: description) := by
    have hfirst : Kinds [Types.areaName, Types.areaDescription] [name] := by simp [Kinds, hnameType]
    exact hfirst.append (hdescriptionField.kinds.mono (by decide))
  refine ⟨htype, ReadsOut.read _ ⟨hkinds, ?_⟩ hvalue (by decide)⟩
  apply readsBack_take hnameType (by decide)
  intro _
  exact ReadsBack.lift hnameText hdescriptionField.finish.reads

end Codecs

theorem optionalTlv_mem {α : Type} {value : Option α} {encode : α → Except BundleError OwnedTlv}
    {part : List OwnedTlv} (h : optionalTlv value encode = .ok part) {a : α} (ha : a ∈ value)
    : ∃ tlv, encode a = .ok tlv := by
  rw [Option.mem_def] at ha
  subst ha
  simp only [optionalTlv, Except.bind_ok_iff] at h
  obtain ⟨tlv, htlv, _⟩ := h
  exact ⟨tlv, htlv⟩

section File

variable {part rest : List OwnedTlv}

def bodyTypes : List UInt64 := [Types.filename, Types.timestamp, Types.contents]

theorem field_readFileBody {body : FileBody} (h : bodyTlvs body = .ok part) (name : String)
    : Field (readFileBody name) [Types.filename, Types.timestamp] bodyTypes part body := by
  simp only [bodyTlvs, Except.bind_ok_iff, Except.ok.injEq] at h
  obtain ⟨filename, hfilename, timestamp, htimestamp, contents, hcontents, rfl⟩ := h
  obtain ⟨htype, hvalue⟩ := assigned_ok hcontents
  have hlast : Field (pure ⟨body.filename, body.timestamp, contents.value⟩) [] [] [] body := by
    rw [hvalue]
    exact field_pure body
  rw [List.append_assoc]
  exact
    (field_optionalText codec_filename (by decide) hfilename).bind
      ((field_optionalValue (codec_number _) (by decide) htimestamp).bind
        (Field.take htype (by decide) (fun _ => hlast))
        (by decide))
      (by decide)

theorem bodyTlvs_valid {body : FileBody} (h : bodyTlvs body = .ok part) : body.Valid := by
  simp only [bodyTlvs, Except.bind_ok_iff] at h
  obtain ⟨filename, hfilename, _⟩ := h
  intro name hname
  obtain ⟨tlv, htlv⟩ := optionalTlv_mem hfilename hname
  exact (filenameTlv_ok htlv).1

theorem field_readMetadata {metadata : FileMetadata} (h : metadataTlvs metadata = .ok part)
    : Field readMetadata metadataTypes metadataTypes part metadata := by
  simp only [metadataTlvs, Except.bind_ok_iff, Except.ok.injEq] at h
  obtain ⟨short, hshort, long, hlong, tearLine, htearLine, magicWord, hmagicWord, replaces, hreplaces,
    rfl⟩ := h
  simp only [List.append_assoc]
  exact
    (field_optionalText (codec_line _ _) (by decide) hshort).bind
      ((field_repeatedValues (codec_line _ _) (by decide) hlong).bind
        ((field_optionalText (codec_text _) (by decide) htearLine).bind
          ((field_optionalText (codec_text _) (by decide) hmagicWord).bind
            ((field_optionalText (codec_text _) (by decide) hreplaces).last rfl)
            (by decide))
          (by decide))
        (by decide))
      (by decide)

theorem metadataTlvs_valid {metadata : FileMetadata} (h : metadataTlvs metadata = .ok part)
    : metadata.Valid := by
  simp only [metadataTlvs, Except.bind_ok_iff] at h
  obtain ⟨short, hshort, long, hlong, _⟩ := h
  constructor
  . intro text htext
    obtain ⟨tlv, htlv⟩ := optionalTlv_mem hshort htext
    exact (lineTlv_ok htlv).1
  . intro text htext
    obtain ⟨tlv, htlv⟩ := Except.mapM_of_mem hlong htext
    exact (lineTlv_ok htlv).1

theorem codec_attachment : Codec Types.file attachmentTlv readAttachment := by
  intro data tlv h
  simp only [attachmentTlv, Except.bind_ok_iff] at h
  obtain ⟨body, hbody, metadata, hmetadata, h⟩ := h
  obtain ⟨htype, hvalue⟩ := assigned_ok h
  refine ⟨htype, ReadsOut.read (bodyTypes ++ metadataTypes) ?_ hvalue (by decide)⟩
  exact (field_readFileBody hbody _).close (field_readMetadata hmetadata).finish (by decide)

theorem attachmentTlv_valid {data : AttachmentData} {tlv : OwnedTlv} (h : attachmentTlv data = .ok tlv)
    : data.Valid := by
  simp only [attachmentTlv, Except.bind_ok_iff] at h
  obtain ⟨body, hbody, metadata, hmetadata, h⟩ := h
  have hlines := metadataTlvs_valid hmetadata
  exact ⟨bodyTlvs_valid hbody, hlines.short, hlines.long⟩

end File

theorem codec_replyTo : Codec Types.replyTo replyToTlv readReplyTo := by
  rintro ⟨address, identifier⟩ tlv h
  simp only [replyToTlv, Except.bind_ok_iff] at h
  obtain ⟨addressTlv, haddress, h⟩ := h
  obtain ⟨htype, hvalue⟩ := assigned_ok h
  obtain ⟨haddressType, haddressValue⟩ := assigned_ok haddress
  have hnonzero : addressTlv.typeCode ≠ 0 := by
    rw [haddressType]
    decide
  have hlength := tlv.length_lt
  rw [hvalue] at hlength
  refine ⟨htype, ?_⟩
  unfold readReplyTo
  rw [hvalue, takeEncodedTlv_encode hnonzero hlength, Except.bind_of_ok]
  dsimp only
  rw [if_neg (by simp [haddressType]), addressValue_display haddressValue, Except.bind_of_ok,
    Bytes.toString?_ofString, Option.okOr_some, Except.bind_of_ok]

def viaData (identity : Identity) (timestamp : UInt64) (software : String) : ViaData where
  address := identity.address
  publicKey := identity.embeddedKey
  timestamp
  software

theorem embeddedKey_eq_none {identity : Identity} (h : identity.embeddedKey = none)
    : identity.address.isAnonymous = false := by
  unfold Identity.embeddedKey at h
  split at h
  . cases h
  . next hlisted => simpa using hlisted

theorem embeddedKey_eq_some {identity : Identity} {key : PublicKey} (h : identity.embeddedKey = some key)
    : identity.address.isAnonymous = true ∧ identity.publicKey = key := by
  unfold Identity.embeddedKey at h
  split at h
  . next hanonymous =>
    cases h
    exact ⟨hanonymous, rfl⟩
  . cases h

section Via

variable {address : Address} {timestampTlv : OwnedTlv} {rest : List UInt8}

theorem takeViaKey_listed (hlisted : address.isAnonymous = false)
    (htype : timestampTlv.typeCode = Types.timestamp)
    (hlength : (timestampTlv.encode ++ rest).length < 2 ^ 64)
    : takeViaKey address (timestampTlv.encode ++ rest) = .ok (none, timestampTlv, rest) := by
  have hnonzero : timestampTlv.typeCode ≠ 0 := by
    rw [htype]
    decide
  have hother : timestampTlv.typeCode ≠ Types.publicKey := by
    rw [htype]
    decide
  unfold takeViaKey
  rw [takeEncodedTlv_encode hnonzero hlength, Except.bind_of_ok]
  dsimp only
  rw [if_neg (by simp [hlisted]), if_neg hother]

theorem takeViaKey_anonymous (hanonymous : address.isAnonymous = true) {keyTlv : OwnedTlv} {key : PublicKey}
    (hkeyType : keyTlv.typeCode = Types.publicKey) (hkey : publicKeyValue keyTlv = .ok key)
    (htype : timestampTlv.typeCode = Types.timestamp)
    (hlength : (keyTlv.encode ++ (timestampTlv.encode ++ rest)).length < 2 ^ 64)
    : takeViaKey address (keyTlv.encode ++ (timestampTlv.encode ++ rest)) =
        .ok (some key, timestampTlv, rest) := by
  have hnonzero : timestampTlv.typeCode ≠ 0 := by
    rw [htype]
    decide
  have hkeyNonzero : keyTlv.typeCode ≠ 0 := by
    rw [hkeyType]
    decide
  have hshorter : (timestampTlv.encode ++ rest).length < 2 ^ 64 := by
    rw [List.length_append] at hlength
    omega
  unfold takeViaKey
  rw [takeEncodedTlv_encode hkeyNonzero hlength, Except.bind_of_ok]
  dsimp only
  rw [if_pos hanonymous, if_neg (by simp [hkeyType]), hkey, Except.bind_of_ok,
    takeEncodedTlv_encode hnonzero hshorter, Except.bind_of_ok]

theorem readVia_of_parts {tlv addressTlv : OwnedTlv} {bytes : List UInt8} {key : Option PublicKey}
    {timestamp : UInt64} {software : String} (hvalue : tlv.value = addressTlv.encode ++ bytes)
    (haddressType : addressTlv.typeCode = Types.address) (haddress : addressValue addressTlv = .ok address)
    (hkey : takeViaKey address bytes = .ok (key, timestampTlv, Bytes.ofString software))
    (htype : timestampTlv.typeCode = Types.timestamp) (htimestamp : numberValue timestampTlv = .ok timestamp)
    : readVia tlv = .ok ⟨address, key, timestamp, software⟩ := by
  have hnonzero : addressTlv.typeCode ≠ 0 := by
    rw [haddressType]
    decide
  have hlength := tlv.length_lt
  rw [hvalue] at hlength
  unfold readVia
  rw [hvalue, takeEncodedTlv_encode hnonzero hlength, Except.bind_of_ok]
  dsimp only
  rw [if_neg (by simp [haddressType]), haddress, Except.bind_of_ok, hkey, Except.bind_of_ok]
  dsimp only
  rw [if_neg (by simp [htype]), htimestamp, Except.bind_of_ok, Bytes.toString?_ofString, Option.okOr_some,
    Except.bind_of_ok]

end Via

theorem viaValue_ok {identity : Identity} {timestamp : UInt64} {software : String} {tlv : OwnedTlv}
    (h : viaValue identity timestamp software = .ok tlv)
    : tlv.typeCode = Types.via ∧ readVia tlv = .ok (viaData identity timestamp software) := by
  simp only [viaValue, Except.bind_ok_iff] at h
  obtain ⟨addressValues, haddress, timestampTlv, htimestamp, h⟩ := h
  obtain ⟨htype, hvalue⟩ := assigned_ok h
  obtain ⟨htimestampType, htimestampValue⟩ := assigned_ok htimestamp
  have hnumber := numberValue_encodeU64 htimestampValue
  obtain ⟨addressTlv, haddressType, haddressValue, hkey⟩ := addressed_ok haddress
  have hlength := tlv.length_lt
  rw [hvalue] at hlength
  refine ⟨htype, ?_⟩
  unfold viaData
  rcases hkey with ⟨hlisted, rfl⟩ | ⟨publicKey, keyTlv, hanonymous, hkeyType, hkeyValue, rfl⟩
  . have hbytes : concatenate ([addressTlv] ++ [timestampTlv]) ++ Bytes.ofString software =
        addressTlv.encode ++ (timestampTlv.encode ++ Bytes.ofString software) := by
      simp [concatenate]
    rw [hbytes] at hvalue hlength
    rw [hlisted]
    refine readVia_of_parts hvalue haddressType haddressValue ?_ htimestampType hnumber
    apply takeViaKey_listed (embeddedKey_eq_none hlisted) htimestampType
    rw [List.length_append] at hlength
    omega
  . have hbytes : concatenate ([addressTlv, keyTlv] ++ [timestampTlv]) ++ Bytes.ofString software =
        addressTlv.encode ++ (keyTlv.encode ++ (timestampTlv.encode ++ Bytes.ofString software)) := by
      simp [concatenate]
    rw [hbytes] at hvalue hlength
    rw [hanonymous]
    refine readVia_of_parts hvalue haddressType haddressValue ?_ htimestampType hnumber
    apply takeViaKey_anonymous (embeddedKey_eq_some hanonymous).1 hkeyType hkeyValue htimestampType
    rw [List.length_append] at hlength
    omega

section SeenBy

variable {addresses : List Address} {part : List OwnedTlv}

theorem seenByAddresses_collection {tlv : OwnedTlv}
    (hvalue : tlv.value = Bytes.ofString (String.ofList (formatTrimmedCollection addresses)))
    : seenByAddresses tlv = .ok (sortedSet addresses) ↔ ∀ address ∈ addresses, PlainDomain address.domain := by
  rw [← parseTrimmedCollection_format_iff]
  simp only [seenByAddresses, textValue, hvalue, Bytes.toString?_ofString, Option.okOr_some, Except.bind_of_ok,
    Except.mapError_eq_ok, String.toList_ofList]

theorem seenByValue_ok (h : seenByValue addresses = .ok part)
    : (addresses = [] ∧ part = []) ∨
        ∃ tlv, part = [tlv] ∧ tlv.typeCode = Types.seenBy ∧
          tlv.value = Bytes.ofString (String.ofList (formatTrimmedCollection addresses)) := by
  unfold seenByValue at h
  split at h
  . next hnil =>
    cases h
    exact .inl ⟨hnil, rfl⟩
  . simp only [Except.bind_ok_iff, Except.ok.injEq] at h
    obtain ⟨tlv, htlv, rfl⟩ := h
    obtain ⟨htype, hvalue⟩ := assigned_ok htlv
    exact .inr ⟨tlv, rfl, htype, hvalue⟩

theorem kinds_seenByValue (h : seenByValue addresses = .ok part) : Kinds [Types.seenBy] part := by
  rcases seenByValue_ok h with ⟨_, rfl⟩ | ⟨tlv, rfl, htype, _⟩
  . simp [Kinds]
  . simp [Kinds, htype]

theorem field_seenByValue (h : seenByValue addresses = .ok part)
    (hplain : ∀ address ∈ addresses, PlainDomain address.domain)
    : ∃ result, Field (optionalValue Types.seenBy seenByAddresses) [Types.seenBy] [Types.seenBy] part result ∧
        result.getD [] = sortedSet addresses := by
  rcases seenByValue_ok h with ⟨rfl, rfl⟩ | ⟨tlv, rfl, htype, hvalue⟩
  . exact ⟨none, field_optionalValue_none, rfl⟩
  . exact ⟨_, field_optionalValue_some (by decide) htype ((seenByAddresses_collection hvalue).mpr hplain), rfl⟩

theorem sortedSet_singleton (address : Address) : sortedSet [address] = [address] := by
  simp [sortedSet]

theorem formatTrimmedCollection_singleton (address : Address)
    : formatTrimmedCollection [address] = address.display.toList := by
  rw [formatTrimmedCollection_eq, sortedSet_singleton]
  simp [formatTrimmedList, formatTrimmedList.go, formatTrimmedElement]

theorem seenByAddresses_display {tlv : OwnedTlv} {address : Address}
    (hvalue : tlv.value = Bytes.ofString address.display)
    : seenByAddresses tlv = .ok [address] ↔ PlainDomain address.domain := by
  have hcollection : tlv.value = Bytes.ofString (String.ofList (formatTrimmedCollection [address])) := by
    rw [hvalue, formatTrimmedCollection_singleton, String.ofList_toList]
  have hiff := seenByAddresses_collection hcollection
  rw [List.forall_mem_singleton, sortedSet_singleton] at hiff
  exact hiff

end SeenBy

section Message

variable {data : MessageData} {part : List OwnedTlv}

def MessageData.words (data : MessageData) : MessageWords where
  timestamp := data.timestamp
  toUser := data.toUser
  fromUser := data.fromUser
  subject := data.subject
  text := data.text
  area := data.area

def MessageData.controls (data : MessageData) : MessageControls where
  attachments := data.attachments
  legacyAttributes := data.legacyAttributes
  timestampOffset := data.timestampOffset
  tearLine := data.tearLine
  originLine := data.originLine
  messageId := data.messageId
  replyTo := data.replyTo
  originalCharacterSet := data.originalCharacterSet

theorem field_optionalArea {area : Option AreaData} (h : optionalTlv area areaValue = .ok part)
    : Field optionalArea [Types.area] [Types.area] part area := by
  rw [optionalArea_eq]
  exact field_optionalValue codec_area (by decide) h

def wordsTypes : List UInt64 :=
  [Types.timestamp, Types.toUserName, Types.fromUserName, Types.subject, Types.messageText, Types.area]

theorem field_readWords (h : wordsTlvs data = .ok part)
    : Field readWords [Types.area] wordsTypes part data.words := by
  simp only [wordsTlvs, Except.bind_ok_iff, Except.ok.injEq] at h
  obtain ⟨timestamp, htimestamp, toUser, htoUser, fromUser, hfromUser, subject, hsubject, text, htext, area,
    harea, rfl⟩ := h
  exact
    (field_takeNumber (by decide) htimestamp).bind
      ((field_takeText (by decide) htoUser).bind
        ((field_takeText (by decide) hfromUser).bind
          ((field_takeText (by decide) hsubject).bind
            ((field_takeText (by decide) htext).bind
              ((field_optionalArea harea).last rfl)
              (by decide))
            (by decide))
          (by decide))
        (by decide))
      (by decide)

def controlsTypes : List UInt64 :=
  [Types.file, Types.legacyAttributes, Types.timestampOffset, Types.tearLine, Types.originLine,
    Types.messageId, Types.replyTo, Types.originalCharacterSet]

theorem field_readControls (h : controlsTlvs data = .ok part)
    : Field readControls controlsTypes controlsTypes part data.controls := by
  simp only [controlsTlvs, Except.bind_ok_iff, Except.ok.injEq] at h
  obtain ⟨attachments, hattachments, legacyAttributes, hlegacyAttributes, timestampOffset, htimestampOffset,
    tearLine, htearLine, originLine, horiginLine, messageId, hmessageId, replyTo, hreplyTo,
    originalCharacterSet, horiginalCharacterSet, rfl⟩ := h
  simp only [List.append_assoc]
  exact
    (field_repeatedValues codec_attachment (by decide) hattachments).bind
      ((field_optionalValue (codec_number _) (by decide) hlegacyAttributes).bind
        ((field_optionalValue codec_offset (by decide) htimestampOffset).bind
          ((field_optionalText (codec_text _) (by decide) htearLine).bind
            ((field_optionalText (codec_text _) (by decide) horiginLine).bind
              ((field_optionalText (codec_text _) (by decide) hmessageId).bind
                ((field_optionalValue codec_replyTo (by decide) hreplyTo).bind
                  ((field_optionalText (codec_text _) (by decide) horiginalCharacterSet).last rfl)
                  (by decide))
                (by decide))
              (by decide))
            (by decide))
          (by decide))
        (by decide))
      (by decide)

theorem validateOriginatedMessageData_ok (h : validateOriginatedMessageData data = .ok ())
    : data.destination.isSome ≠ data.area.isSome ∧ validateMessageText data.text = .ok () ∧
        (∀ value ∈ data.legacyAttributes, validateLegacyAttributes value = .ok ()) ∧
        (∀ value ∈ data.timestampOffset, validateTimestampOffset value.toInt = .ok ()) ∧
        (data.destination.isSome = true → data.tearLine = none ∧ data.originLine = none) := by
  unfold validateOriginatedMessageData at h
  split at h
  . cases h
  next hkind =>
  have hchecks : (∀ value ∈ data.legacyAttributes, validateLegacyAttributes value = .ok ()) ∧
      (∀ value ∈ data.timestampOffset, validateTimestampOffset value.toInt = .ok ()) ∧
      (if data.area.isNone ∧ (data.tearLine.isSome ∨ data.originLine.isSome) then
        .error (.unexpected "a NetMail TearLine or OriginLine")
      else
        validateMessageText data.text) = .ok () := by
    cases hlegacy : data.legacyAttributes with
    | none =>
      cases hoffset : data.timestampOffset with
      | none =>
        rw [hlegacy, hoffset] at h
        exact ⟨by simp, by simp, h⟩
      | some offset =>
        rw [hlegacy, hoffset] at h
        obtain ⟨_, hvalid, h⟩ := Except.bind_ok_iff.mp h
        exact ⟨by simp, by simpa using hvalid, h⟩
    | some legacy =>
      rw [hlegacy] at h
      obtain ⟨_, hvalid, h⟩ := Except.bind_ok_iff.mp h
      cases hoffset : data.timestampOffset with
      | none =>
        rw [hoffset] at h
        exact ⟨by simpa using hvalid, by simp, h⟩
      | some offset =>
        rw [hoffset] at h
        obtain ⟨_, hvalid', h⟩ := Except.bind_ok_iff.mp h
        exact ⟨by simpa using hvalid, by simpa using hvalid', h⟩
  obtain ⟨hlegacy, hoffset, h⟩ := hchecks
  split at h
  . cases h
  next hlines =>
  refine ⟨hkind, h, hlegacy, hoffset, ?_⟩
  intro hnetMail
  have hnone : data.area.isNone = true := by
    cases harea : data.area <;> simp_all
  simpa [hnone, not_or] using hlines

theorem controlsTlvs_valid (h : controlsTlvs data = .ok part)
    (hdata : validateOriginatedMessageData data = .ok ())
    : data.controls.Valid data.destination := by
  simp only [controlsTlvs, Except.bind_ok_iff] at h
  obtain ⟨attachments, hattachments, _⟩ := h
  obtain ⟨_, _, hlegacyAttributes, htimestampOffset, hlines⟩ := validateOriginatedMessageData_ok hdata
  refine ⟨?_, hlegacyAttributes, htimestampOffset, hlines⟩
  intro attachment hmem
  obtain ⟨tlv, htlv⟩ := Except.mapM_of_mem hattachments hmem
  exact attachmentTlv_valid htlv

end Message

end Tith
