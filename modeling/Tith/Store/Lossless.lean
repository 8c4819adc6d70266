import Tith.Store.Codec

/-!
This module contains the proof that every durable record of the store is read back from what it is written
as.
-/

namespace Tith

namespace Codec

open Decoder

/-!
What a Rust `String` or `Vec` can hold: a 64 bit word can count it.
-/

def Measured (text : String) : Prop := text.utf8ByteSize < 2 ^ 64

structure MeasuredRecord (value : InboundRecord) : Prop where
  inboundId : Measured value.inboundId
  localIdentity : Measured value.localIdentity
  peer : Measured value.peer
  claimKey : ∀ text ∈ value.claimKey, Measured text
  claimToken : ∀ text ∈ value.claimToken, Measured text
  lastResult : ∀ text ∈ value.lastResult, Measured text
  forwardJob : ∀ text ∈ value.forwardJob, Measured text

structure MeasuredMapping (value : ClaimMapping) : Prop where
  inboundId : Measured value.inboundId
  token : Measured value.token

structure MeasuredEvent (value : OutboundEvent) : Prop where
  eventId : Measured value.eventId
  jobId : Measured value.jobId
  lastResult : Measured value.lastResult

structure MeasuredDelivery (copy : DeliveryRecord) : Prop where
  localIdentity : Measured copy.localIdentity
  nextHop : Measured copy.nextHop
  deliveryClass : Measured copy.deliveryClass
  lastResult : Measured copy.lastResult
  workerToken : ∀ text ∈ copy.workerToken, Measured text

structure MeasuredSource (source : SourceRecord) : Prop where
  wireFilename : Measured source.wireFilename
  path : ∀ text ∈ source.path, Measured text
  fileIdentity : source.fileIdentity.length < 2 ^ 64

def JobTarget.text (target : JobTarget) : String :=
  match target with
  | .destination text => text
  | .area text => text

structure MeasuredJob (value : OutboundJob) : Prop where
  jobId : Measured value.jobId
  idempotencyKey : Measured value.idempotencyKey
  target : Measured (JobTarget.text value.target)
  lastResult : Measured value.lastResult
  forwardInbound : ∀ text ∈ value.forwardInbound, Measured text
  copies : value.deliveries.length < 2 ^ 64
  deliveries : ∀ copy ∈ value.deliveries, MeasuredDelivery copy
  count : value.sources.length < 2 ^ 64
  sources : ∀ source ∈ value.sources, MeasuredSource source
  localIdentity : Measured value.localIdentity

/-!
The parts of records.
-/

theorem reads_u64 (value : UInt64) : Reads takeU64 (putU64 value) value := reads_word _ value

theorem reads_bytes {value : List UInt8} (h : value.length < 2 ^ 64)
    : Reads takeBytes (putBytes value) value := by
  apply (reads_u64 (UInt64.ofNat value.length)).bind
  rw [UInt64.toNat_ofNat_of_lt' h]
  exact reads_fixed _ value

theorem reads_string {value : String} (h : Measured value) : Reads takeString (putString value) value := by
  apply reads_text
  apply reads_bytes
  rw [Bytes.length_ofString]
  exact h

theorem reads_bytesFixed (value : Vector UInt8 n) : Reads (takeBytesFixed n) value.toList value :=
  reads_vector _ value

theorem reads_optional {take : Take α} {put : α → List UInt8} {value : Option α}
    (h : ∀ a ∈ value, Reads take (put a) a)
    : Reads (option .corruptRecord take) (putOptional put value) value := by
  cases value with
  | none => exact reads_option_none _ take
  | some a => exact reads_option_some _ (h a rfl)

theorem reads_optionalString {value : Option String} (h : ∀ text ∈ value, Measured text)
    : Reads takeOptionalString (putOptionalString value) value :=
  reads_optional (fun text htext => reads_string (h text htext))

theorem reads_optionalU64 (value : Option UInt64) : Reads takeOptionalU64 (putOptionalU64 value) value :=
  reads_optional (fun number _ => reads_u64 number)

theorem reads_count {count : Nat} (h : count < 2 ^ 64) : Reads takeCount (putCount count) count := by
  apply (reads_u64 (UInt64.ofNat count)).last
  rw [UInt64.toNat_ofNat_of_lt' h]
  exact reads_pure count

theorem reads_bool (value : Bool) : Reads takeBool (putBool value) value := by
  apply reads_code
  cases value <;> rfl

theorem reads_application (application : Application)
    : Reads takeApplication (putString application.name) application := by
  apply (reads_string application.size_lt).last
  rw [dif_pos application.size_lt]
  exact reads_pure application

theorem reads_version (record : String) (version : UInt8) : Reads (takeVersion record version) [version] () := by
  apply (reads_byte _ version).last
  rw [if_pos rfl]
  exact reads_pure ()

/--
The list has all values of an enumeration, whose positions are bytes.
-/
structure Complete (values : List α) : Prop where
  length : values.length ≤ 256
  mem : ∀ a, a ∈ values

theorem reads_takeCode [DecidableEq α] {values : List α} (h : Complete values) (value : α)
    : Reads (takeCode values) (putCode values value) value := by
  apply reads_code
  have hindex : values.idxOf value < values.length := List.idxOf_lt_length_of_mem (h.mem value)
  have hlength := h.length
  unfold atPosition position
  rw [UInt8.toNat_ofNat_of_lt' (by change _ < 256; omega)]
  exact List.getElem?_idxOf (h.mem value)

theorem complete_itemKinds : Complete itemKinds := ⟨by decide, by intro a; cases a <;> decide⟩

theorem complete_itemAuthentications : Complete itemAuthentications :=
  ⟨by decide, by intro a; cases a <;> decide⟩

theorem complete_inboundStates : Complete inboundStates := ⟨by decide, by intro a; cases a <;> decide⟩

theorem complete_jobKinds : Complete jobKinds := ⟨by decide, by intro a; cases a <;> decide⟩

theorem complete_jobStates : Complete jobStates := ⟨by decide, by intro a; cases a <;> decide⟩

theorem complete_deliveryModes : Complete deliveryModes := ⟨by decide, by intro a; cases a <;> decide⟩

theorem complete_failureDispositions : Complete failureDispositions :=
  ⟨by decide, by intro a; cases a <;> decide⟩

theorem complete_failureNotifications : Complete failureNotifications :=
  ⟨by decide, by intro a; cases a <;> decide⟩

theorem complete_failureKinds : Complete failureKinds := ⟨by decide, by intro a; cases a <;> decide⟩

theorem complete_sourceKinds : Complete sourceKinds := ⟨by decide, by intro a; cases a <;> decide⟩

theorem complete_sourceDispositions : Complete sourceDispositions :=
  ⟨by decide, by intro a; cases a <;> decide⟩

theorem complete_cleanupStates : Complete cleanupStates := ⟨by decide, by intro a; cases a <;> decide⟩

/-!
The records.
-/

theorem reads_record {value : InboundRecord} (h : MeasuredRecord value)
    : Reads takeRecord (encodeRecord value) value := by
  refine (reads_version _ 1).bind ?_
  refine (reads_string h.inboundId).bind ?_
  refine (reads_application value.application).bind ?_
  refine (reads_string h.localIdentity).bind ?_
  refine (reads_string h.peer).bind ?_
  refine (reads_bytesFixed value.peerKey).bind ?_
  refine (reads_u64 value.received).bind ?_
  refine (reads_u64 value.changed).bind ?_
  refine (reads_u64 value.payloadSize).bind ?_
  refine (reads_u64 value.attempts).bind ?_
  refine (reads_u64 value.eligibleAt).bind ?_
  refine (reads_takeCode complete_itemKinds value.kind).bind ?_
  refine (reads_takeCode complete_itemAuthentications value.authentication).bind ?_
  refine (reads_takeCode complete_inboundStates value.state).bind ?_
  refine (reads_bytesFixed value.payloadHash).bind ?_
  refine (reads_optionalString h.claimKey).bind ?_
  refine (reads_optionalString h.claimToken).bind ?_
  refine (reads_optionalString h.lastResult).bind ?_
  refine (reads_optionalU64 value.claimExpires).bind ?_
  have hforward : putOptionalString value.forwardJob ≠ [] := by
    cases value.forwardJob <;> simp [putOptionalString, putOptional]
  exact (reads_trailing none (reads_optionalString h.forwardJob) hforward).last (reads_pure _)

theorem reads_mapping {value : ClaimMapping} (h : MeasuredMapping value)
    : Reads takeMapping (encodeMapping value) value := by
  refine (reads_string h.inboundId).bind ?_
  refine (reads_string h.token).bind ?_
  exact (reads_optional fun state _ => reads_takeCode complete_inboundStates state).last (reads_pure _)

theorem reads_tokenResolution {value : TokenResolution} (h : Measured value.inboundId)
    : Reads takeTokenResolution (encodeTokenResolution value) value := by
  refine (reads_string h).bind ?_
  refine (reads_takeCode complete_inboundStates value.state).bind ?_
  exact (reads_bool value.completed).last (reads_pure _)

theorem reads_submission {value : SubmissionEntry} (h : Measured value.jobId)
    : Reads takeSubmission (encodeSubmission value) value := by
  refine (reads_string h).bind ?_
  exact (reads_bytesFixed value.digest).last (reads_pure _)

theorem reads_event {value : EventEntry} (h : MeasuredEvent value.event)
    : Reads takeEvent (encodeEvent value) value := by
  refine (reads_application value.application).bind ?_
  refine (reads_bool value.acknowledged).bind ?_
  refine (reads_string h.eventId).bind ?_
  refine (reads_string h.jobId).bind ?_
  refine (reads_optional fun state _ => reads_takeCode complete_jobStates state).bind ?_
  refine (reads_takeCode complete_jobStates value.event.current).bind ?_
  refine (reads_u64 value.event.changed).bind ?_
  exact (reads_string h.lastResult).last (reads_pure _)

theorem reads_target {value : JobTarget} (h : Measured (JobTarget.text value))
    : Reads takeTarget (putTarget value) value := by
  cases value with
  | destination text =>
    refine (reads_byte _ 0).bind ?_
    exact (reads_string h).last (reads_pure _)
  | area text =>
    refine (reads_byte _ 1).bind ?_
    exact (reads_string h).last (reads_pure _)

theorem reads_policy (value : FailurePolicy) : Reads takePolicy (putPolicy value) value := by
  refine (reads_takeCode complete_failureDispositions value.disposition).bind ?_
  exact (reads_takeCode complete_failureNotifications value.notification).last (reads_pure _)

theorem reads_delivery {copy : DeliveryRecord} (h : MeasuredDelivery copy)
    : Reads takeDelivery (putDelivery copy) copy := by
  refine (reads_u64 copy.index).bind ?_
  refine (reads_string h.localIdentity).bind ?_
  refine (reads_string h.nextHop).bind ?_
  refine (reads_optional fun key _ => reads_bytesFixed key).bind ?_
  refine (reads_takeCode complete_deliveryModes copy.mode).bind ?_
  refine (reads_string h.deliveryClass).bind ?_
  refine (reads_optionalU64 copy.retryAt).bind ?_
  refine (reads_policy copy.policies[0]).bind ?_
  refine (reads_policy copy.policies[1]).bind ?_
  refine (reads_takeCode complete_jobStates copy.state).bind ?_
  refine (reads_u64 copy.attempts).bind ?_
  refine (reads_string h.lastResult).bind ?_
  refine (reads_optional fun kind _ => reads_takeCode complete_failureKinds kind).bind ?_
  have hpolicies : #v[copy.policies[0], copy.policies[1]] = copy.policies := by
    apply Vector.ext
    intro i hi
    rcases Nat.le_one_iff_eq_zero_or_eq_one.mp (Nat.le_of_lt_succ hi) with rfl | rfl
    . rfl
    . rfl
  refine (reads_optionalString h.workerToken).last ?_
  rw [hpolicies]
  exact reads_pure _

theorem reads_source {source : SourceRecord} (h : MeasuredSource source)
    : Reads takeSource (putSource source) source := by
  refine (reads_u64 source.index).bind ?_
  refine (reads_takeCode complete_sourceKinds source.kind).bind ?_
  refine (reads_string h.wireFilename).bind ?_
  refine (reads_optionalString h.path).bind ?_
  refine (reads_takeCode complete_sourceDispositions source.disposition).bind ?_
  refine (reads_takeCode complete_cleanupStates source.cleanup).bind ?_
  exact (reads_bytes h.fileIdentity).last (reads_pure _)

theorem reads_job {value : OutboundJob} (h : MeasuredJob value) : Reads takeJob (encodeJob value) value := by
  refine (reads_version _ 4).bind ?_
  refine (reads_string h.jobId).bind ?_
  refine (reads_application value.application).bind ?_
  refine (reads_string h.idempotencyKey).bind ?_
  refine (reads_bytesFixed value.digest).bind ?_
  refine (reads_takeCode complete_jobKinds value.kind).bind ?_
  refine (reads_target h.target).bind ?_
  refine (reads_takeCode complete_jobStates value.state).bind ?_
  refine (reads_u64 value.created).bind ?_
  refine (reads_u64 value.changed).bind ?_
  refine (reads_string h.lastResult).bind ?_
  refine (reads_optionalString h.forwardInbound).bind ?_
  refine (reads_count h.copies).bind ?_
  refine (reads_many fun copy hcopy => reads_delivery (h.deliveries copy hcopy)).bind ?_
  refine (reads_count h.count).bind ?_
  refine (reads_many fun source hsource => reads_source (h.sources source hsource)).bind ?_
  have hlocal : putString value.localIdentity ≠ [] := by
    simp [putString, putBytes, Bytes.withLength, Bytes.ofWord]
  exact (reads_trailing _ (reads_string h.localIdentity) hlocal).last (reads_pure _)

theorem reads_key (key : Option PublicKey) : Reads takeKey (putKey key) key := by
  refine (reads_bool key.isSome).bind ?_
  refine (reads_bytesFixed _).last ?_
  cases key with
  | none => exact reads_pure _
  | some key => exact reads_pure _

theorem reads_keyPin (pin : KeyPin) : Reads takeKeyPin (encodeKeyPin pin) pin := by
  refine (reads_byte _ 1).bind ?_
  rw [if_neg (by decide)]
  have hevidence : keyPinEvidence (position keyPinEvidences pin.evidence) = some pin.evidence := by
    cases pin.evidence <;> decide
  refine (reads_code _ hevidence).bind ?_
  refine (reads_bytesFixed pin.current).bind ?_
  refine (reads_key pin.anchor).bind ?_
  refine (reads_key pin.predecessor).bind ?_
  exact (reads_u64 pin.observed).last (reads_pure _)

theorem length_encodeKeyPin (pin : KeyPin) : (encodeKeyPin pin).length = keyPinLength := by
  simp [encodeKeyPin, putCode, putKey, putBool, putU64, keyPinLength]

end Codec

end Tith
