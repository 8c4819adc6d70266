import Tith.Ledger.Basic
import Tith.Store.Lossless

/-!
This module contains the byte formats of the ledger, and that the records of the store and of the ledger are
read back from what they are written as.
-/

namespace Tith

namespace Ledger

open Decoder

abbrev Take := Decoder LedgerError

def u32Max : Nat := 4294967295

/--
The count of a list, or the largest one there is.
-/
def count32 (length : Nat) : UInt32 := if length ≤ u32Max then UInt32.ofNat length else UInt32.ofNat u32Max

def pushString (value : String) : List UInt8 :=
  let length := count32 (Bytes.ofString value).length
  Bytes.ofLittleWord32 length ++ (Bytes.ofString value).take length.toNat

def takeString : Take String := text .corruptRecord (do
  let length ← littleWord32 .corruptRecord
  Decoder.fixed .corruptRecord length.toNat)

def pushBytes (value : List UInt8) : List UInt8 := Bytes.ofLittleWord (UInt64.ofNat value.length) ++ value

def takeBytes : Take (List UInt8) := do
  let length ← littleWord .corruptRecord
  Decoder.fixed .corruptRecord length.toNat

def pushText (value : String) : List UInt8 := pushBytes (Bytes.ofString value)

def takeText : Take String := text .corruptRecord takeBytes

def pushQuarantineObject (object : QuarantineObject) : List UInt8 :=
  pushText object.name ++ pushBytes object.contents

def takeQuarantineObject : Take QuarantineObject := do
  let name ← takeText
  let contents ← takeBytes
  pure ⟨name, contents⟩

def takeFlag : Take Bool := code .corruptRecord (fun b =>
  match b with
  | 0 => some false
  | 1 => some true
  | _ => none)

/--
The notice and whether it has been published, which is not written without one.
-/
def pushNotice (notice : Option QuarantineObject) (published : Bool) : List UInt8 :=
  match notice with
  | some notice => 1 :: (pushQuarantineObject notice ++ [if published then 1 else 0])
  | none => [0]

def takeNotice : Take (Option QuarantineObject × Bool) := do
  let present ← byte .corruptRecord
  if present = 0 then
    pure (none, false)
  else if present = 1 then do
    let notice ← takeQuarantineObject
    let published ← takeFlag
    pure (some notice, published)
  else
    fail .corruptRecord

def encodeOrphan (orphan : Orphan) : List UInt8 :=
  pushText orphan.inboundId ++ (pushText orphan.authentication ++ (pushText orphan.reason ++
    (pushBytes orphan.payload ++ (Bytes.ofLittleWord (UInt64.ofNat orphan.objects.length) ++
    (orphan.objects.flatMap pushQuarantineObject ++ pushNotice orphan.notice orphan.noticePublished)))))

def takeOrphan : Take Orphan := do
  let inboundId ← takeText
  let authentication ← takeText
  let reason ← takeText
  let payload ← takeBytes
  let count ← littleWord .corruptRecord
  let objects ← many takeQuarantineObject count.toNat
  -- Older records end here.
  let (notice, noticePublished) ← trailing (none, false) takeNotice
  pure ⟨inboundId, authentication, reason, payload, objects, notice, noticePublished⟩

def decodeOrphan (input : List UInt8) : Except LedgerError Orphan := whole .corruptRecord takeOrphan input

def pushObject (object : Object) : List UInt8 := pushString object.name ++ Bytes.ofLittleWord object.digest

def takeObject : Take Object := do
  let name ← takeString
  let digest ← littleWord .corruptRecord
  pure ⟨name, digest⟩

/--
A list behind its count, as far as that reaches.
-/
def pushList (push : α → List UInt8) (values : List α) : List UInt8 :=
  let count := count32 values.length
  Bytes.ofLittleWord32 count ++ (values.take count.toNat).flatMap push

def takeList (value : Take α) : Take (List α) := do
  let count ← littleWord32 .corruptRecord
  many value count.toNat

def encode (record : Record) : List UInt8 :=
  [record.state.code] ++ (record.payloadHash.toList ++ (pushString record.inboundId ++
    (pushString record.note ++ (pushString record.claimToken ++ (pushString record.distribution ++
    (pushString record.forwardJob ++ (pushList pushObject record.objects ++
    pushList pushString record.cleanup)))))))

def takeRecord : Take Record := do
  let state ← code .corruptRecord State.fromCode
  let payloadHash ← vector .corruptRecord 32
  let inboundId ← takeString
  let note ← takeString
  let claimToken ← takeString
  let distribution ← takeString
  let forwardJob ← takeString
  let objects ← takeList takeObject
  -- Older records end here.
  let cleanup ← trailing [] (takeList takeString)
  pure ⟨inboundId, payloadHash, state, objects, note, claimToken, distribution, forwardJob, cleanup⟩

def decode (input : List UInt8) : Except LedgerError Record := whole .corruptRecord takeRecord input

/-!
What the ledger can write whole.
-/

def Short (text : String) : Prop := text.utf8ByteSize < 2 ^ 32

structure ShortRecord (record : Record) : Prop where
  inboundId : Short record.inboundId
  note : Short record.note
  claimToken : Short record.claimToken
  distribution : Short record.distribution
  forwardJob : Short record.forwardJob
  objects : record.objects.length < 2 ^ 32
  names : ∀ object ∈ record.objects, Short object.name
  cleanup : record.cleanup.length < 2 ^ 32
  paths : ∀ path ∈ record.cleanup, Short path

structure MeasuredObject (object : QuarantineObject) : Prop where
  name : Codec.Measured object.name
  contents : object.contents.length < 2 ^ 64

structure MeasuredOrphan (orphan : Orphan) : Prop where
  inboundId : Codec.Measured orphan.inboundId
  authentication : Codec.Measured orphan.authentication
  reason : Codec.Measured orphan.reason
  payload : orphan.payload.length < 2 ^ 64
  count : orphan.objects.length < 2 ^ 64
  objects : ∀ object ∈ orphan.objects, MeasuredObject object
  notice : ∀ notice ∈ orphan.notice, MeasuredObject notice

theorem count32_toNat {length : Nat} (h : length < 2 ^ 32) : (count32 length).toNat = length := by
  unfold count32 u32Max
  rw [if_pos (by omega)]
  exact UInt32.toNat_ofNat_of_lt' h

theorem reads_string {value : String} (h : Short value) : Reads takeString (pushString value) value := by
  have hcount : (count32 (Bytes.ofString value).length).toNat = (Bytes.ofString value).length := by
    apply count32_toNat
    rw [Bytes.length_ofString]
    exact h
  apply reads_text
  unfold pushString
  refine (reads_littleWord32 _ _).bind ?_
  rw [hcount, List.take_length]
  exact reads_fixed _ _

theorem reads_bytes {value : List UInt8} (h : value.length < 2 ^ 64)
    : Reads takeBytes (pushBytes value) value := by
  refine (reads_littleWord _ _).bind ?_
  rw [UInt64.toNat_ofNat_of_lt' h]
  exact reads_fixed _ value

theorem reads_takeText {value : String} (h : Codec.Measured value) : Reads takeText (pushText value) value := by
  apply reads_text
  apply reads_bytes
  rw [Bytes.length_ofString]
  exact h

theorem reads_quarantineObject {object : QuarantineObject} (h : MeasuredObject object)
    : Reads takeQuarantineObject (pushQuarantineObject object) object := by
  refine (reads_takeText h.name).bind ?_
  exact (reads_bytes h.contents).last (reads_pure _)

theorem reads_notice {notice : Option QuarantineObject} {published : Bool}
    (h : ∀ object ∈ notice, MeasuredObject object) (hpublished : notice = none → published = false)
    : Reads takeNotice (pushNotice notice published) (notice, published) := by
  cases notice with
  | none =>
    rw [hpublished rfl]
    exact (reads_byte _ 0).last (reads_pure _)
  | some notice =>
    refine (reads_byte _ 1).bind ?_
    rw [if_neg (by decide), if_pos rfl]
    refine (reads_quarantineObject (h notice rfl)).bind ?_
    have hflag : Reads takeFlag [if published then 1 else 0] published := by
      apply reads_code
      cases published <;> rfl
    exact hflag.last (reads_pure _)

theorem reads_orphan {orphan : Orphan} (h : MeasuredOrphan orphan)
    (hpublished : orphan.notice = none → orphan.noticePublished = false)
    : Reads takeOrphan (encodeOrphan orphan) orphan := by
  refine (reads_takeText h.inboundId).bind ?_
  refine (reads_takeText h.authentication).bind ?_
  refine (reads_takeText h.reason).bind ?_
  refine (reads_bytes h.payload).bind ?_
  refine (reads_littleWord _ _).bind ?_
  rw [UInt64.toNat_ofNat_of_lt' h.count]
  refine (reads_many fun object hobject => reads_quarantineObject (h.objects object hobject)).bind ?_
  have hnotice : pushNotice orphan.notice orphan.noticePublished ≠ [] := by
    cases orphan.notice <;> simp [pushNotice]
  exact (reads_trailing _ (reads_notice h.notice hpublished) hnotice).last (reads_pure _)

theorem reads_object {object : Object} (h : Short object.name) : Reads takeObject (pushObject object) object := by
  refine (reads_string h).bind ?_
  exact (reads_littleWord _ object.digest).last (reads_pure _)

theorem reads_list {take : Take α} {push : α → List UInt8} {values : List α} (hlength : values.length < 2 ^ 32)
    (h : ∀ a ∈ values, Reads take (push a) a)
    : Reads (takeList take) (pushList push values) values := by
  unfold pushList
  refine (reads_littleWord32 _ _).bind ?_
  rw [count32_toNat hlength, List.take_length]
  exact reads_many h

theorem reads_record {record : Record} (h : ShortRecord record) : Reads takeRecord (encode record) record := by
  have hstate : State.fromCode record.state.code = some record.state := by
    cases record.state <;> rfl
  refine (reads_code _ hstate).bind ?_
  refine (reads_vector _ record.payloadHash).bind ?_
  refine (reads_string h.inboundId).bind ?_
  refine (reads_string h.note).bind ?_
  refine (reads_string h.claimToken).bind ?_
  refine (reads_string h.distribution).bind ?_
  refine (reads_string h.forwardJob).bind ?_
  refine (reads_list h.objects fun object hobject => reads_object (h.names object hobject)).bind ?_
  have hcleanup : pushList pushString record.cleanup ≠ [] := by
    simp [pushList, Bytes.ofLittleWord32]
  refine (reads_trailing _ (reads_list h.cleanup fun path hpath => reads_string (h.paths path hpath)) hcleanup).last ?_
  exact reads_pure _

end Ledger

/--
A format is lossless: what it writes is read back, and is refused as corrupt with more bytes behind it.
-/
def Lossless (encode : α → List UInt8) (decode : List UInt8 → Except ε α) (corrupt : ε) (value : α) : Prop :=
  decode (encode value) = .ok value ∧ ∀ extra, extra ≠ [] → decode (encode value ++ extra) = .error corrupt

theorem lossless_of_reads {d : Decoder ε α} {encode : α → List UInt8} {corrupt : ε} {value : α}
    (h : Decoder.Reads d (encode value) value)
    : Lossless encode (Decoder.whole corrupt d) corrupt value :=
  ⟨Decoder.whole_of_reads corrupt h, fun _ hextra => Decoder.whole_append_of_reads corrupt h hextra⟩

theorem lossless_keyPin (pin : KeyPin) : Lossless Codec.encodeKeyPin Codec.decodeKeyPin .corruptRecord pin := by
  have hlength := Codec.length_encodeKeyPin pin
  constructor
  . unfold Codec.decodeKeyPin
    rw [if_neg (not_not.mpr hlength)]
    exact Decoder.whole_of_reads _ (Codec.reads_keyPin pin)
  . intro extra hextra
    unfold Codec.decodeKeyPin
    rw [if_pos]
    have hpos := List.length_pos_of_ne_nil hextra
    rw [List.length_append, hlength]
    omega

/--
All durable records are read back from what they are written as, with nothing left over.
-/
theorem durable_records_lossless
    : (∀ value, Codec.MeasuredRecord value →
          Lossless Codec.encodeRecord Codec.decodeRecord .corruptRecord value) ∧
        (∀ value, Codec.MeasuredJob value →
          Lossless Codec.encodeJob Codec.decodeJob .corruptRecord value) ∧
        (∀ value : EventEntry, Codec.MeasuredEvent value.event →
          Lossless Codec.encodeEvent Codec.decodeEvent .corruptRecord value) ∧
        (∀ value : SubmissionEntry, Codec.Measured value.jobId →
          Lossless Codec.encodeSubmission Codec.decodeSubmission .corruptRecord value) ∧
        (∀ value, Codec.MeasuredMapping value →
          Lossless Codec.encodeMapping Codec.decodeMapping .corruptRecord value) ∧
        (∀ value : TokenResolution, Codec.Measured value.inboundId →
          Lossless Codec.encodeTokenResolution Codec.decodeTokenResolution .corruptRecord value) ∧
        (∀ pin, Lossless Codec.encodeKeyPin Codec.decodeKeyPin .corruptRecord pin) ∧
        (∀ record, Ledger.ShortRecord record →
          Lossless Ledger.encode Ledger.decode .corruptRecord record) ∧
        ∀ orphan : Ledger.Orphan, Ledger.MeasuredOrphan orphan →
          (orphan.notice = none → orphan.noticePublished = false) →
          Lossless Ledger.encodeOrphan Ledger.decodeOrphan .corruptRecord orphan := by
  refine ⟨?_, ?_, ?_, ?_, ?_, ?_, lossless_keyPin, ?_, ?_⟩
  . exact fun value h => lossless_of_reads (Codec.reads_record h)
  . exact fun value h => lossless_of_reads (Codec.reads_job h)
  . exact fun value h => lossless_of_reads (Codec.reads_event h)
  . exact fun value h => lossless_of_reads (Codec.reads_submission h)
  . exact fun value h => lossless_of_reads (Codec.reads_mapping h)
  . exact fun value h => lossless_of_reads (Codec.reads_tokenResolution h)
  . exact fun record h => lossless_of_reads (Ledger.reads_record h)
  . exact fun orphan h hpublished => lossless_of_reads (Ledger.reads_orphan h hpublished)

end Tith
