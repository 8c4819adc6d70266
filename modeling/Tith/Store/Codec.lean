import Tith.Lib.Decoder
import Tith.Store.KeyPins

/-!
This module contains the byte formats of the durable records of the store.
-/

namespace Tith

inductive RecordError where
  | corruptRecord
  | unsupportedRecordVersion (record : String) (version : UInt8)
  deriving DecidableEq, Repr

namespace Codec

open Decoder

abbrev Take := Decoder RecordError

/-!
The parts of records. A text is written behind its length.
-/

def putU64 (value : UInt64) : List UInt8 := Bytes.ofWord value

def takeU64 : Take UInt64 := word .corruptRecord

def putBytes (value : List UInt8) : List UInt8 := Bytes.withLength value

def takeBytes : Take (List UInt8) := do
  let length ← takeU64
  Decoder.fixed .corruptRecord length.toNat

def putString (value : String) : List UInt8 := putBytes (Bytes.ofString value)

def takeString : Take String := text .corruptRecord takeBytes

def takeBytesFixed (n : Nat) : Take (Vector UInt8 n) := vector .corruptRecord n

def putOptional (put : α → List UInt8) (value : Option α) : List UInt8 :=
  match value with
  | some value => 1 :: put value
  | none => [0]

def putOptionalString (value : Option String) : List UInt8 := putOptional putString value

def takeOptionalString : Take (Option String) := option .corruptRecord takeString

def putOptionalU64 (value : Option UInt64) : List UInt8 := putOptional putU64 value

def takeOptionalU64 : Take (Option UInt64) := option .corruptRecord takeU64

def takeCount : Take Nat := do
  let count ← takeU64
  pure count.toNat

def putBool (value : Bool) : List UInt8 := [if value then 1 else 0]

def takeBool : Take Bool := code .corruptRecord (fun b =>
  match b with
  | 0 => some false
  | 1 => some true
  | _ => none)

/--
The name of an application. Its length was a 64 bit word.
-/
def takeApplication : Take Application := do
  let name ← takeString
  if h : name.utf8ByteSize < 2 ^ 64 then pure ⟨name, h⟩ else fail .corruptRecord

def takeVersion (record : String) (version : UInt8) : Take Unit := do
  let found ← byte .corruptRecord
  if found = version then pure () else fail (.unsupportedRecordVersion record found)

/-!
The codes of enumerations, which are the positions of their values.
-/

/--
The position of a value among all values of its type.
-/
def position [DecidableEq α] (values : List α) (value : α) : UInt8 := UInt8.ofNat (values.idxOf value)

def atPosition (values : List α) (b : UInt8) : Option α := values[b.toNat]?

def itemKinds : List StoredKind := [.message, .file, .fileRequest]

def itemAuthentications : List ItemAuthentication :=
  [.originValid, .originInvalid, .transport, .unsigned, .signedOriginInvalid, .signedOriginValid]

def inboundStates : List InboundState := [.available, .claimed, .deferred, .consumed, .rejected, .failed]

def jobKinds : List JobKind := [.netMail, .echoMail, .file, .peerFile, .fileRequest]

def jobStates : List JobState :=
  [.queued, .active, .deferred, .delivered, .rejected, .failed, .cancelled]

def deliveryModes : List DeliveryMode := [.active, .passive]

def failureDispositions : List FailureDisposition := [.deadLetter, .discard]

def failureNotifications : List FailureNotification := [.none, .sender, .originSysop, .both]

def failureKinds : List PermanentFailureKind := [.relayDenied, .rejected]

def sourceKinds : List SourceKind := [.attachment, .file]

def sourceDispositions : List SourceDisposition := [.keep, .delete, .truncate]

def cleanupStates : List CleanupState := [.notRequested, .pending, .complete, .notFound, .replaced, .failed]

def keyPinEvidences : List KeyPinEvidence := [.authorizedInitialObservation, .authenticatedContinuityProof]

def putCode [DecidableEq α] (values : List α) (value : α) : List UInt8 := [position values value]

def takeCode (values : List α) : Take α := code .corruptRecord (atPosition values)

/-!
Inbound items.
-/

def encodeRecord (value : InboundRecord) : List UInt8 :=
  [1] ++ (putString value.inboundId ++ (putString value.application.name ++
    (putString value.localIdentity ++ (putString value.peer ++ (value.peerKey.toList ++
    (putU64 value.received ++ (putU64 value.changed ++ (putU64 value.payloadSize ++
    (putU64 value.attempts ++ (putU64 value.eligibleAt ++ (putCode itemKinds value.kind ++
    (putCode itemAuthentications value.authentication ++ (putCode inboundStates value.state ++
    (value.payloadHash.toList ++ (putOptionalString value.claimKey ++
    (putOptionalString value.claimToken ++ (putOptionalString value.lastResult ++
    (putOptionalU64 value.claimExpires ++ putOptionalString value.forwardJob))))))))))))))))))

def takeRecord : Take InboundRecord := do
  takeVersion "inbound item" 1
  let inboundId ← takeString
  let application ← takeApplication
  let localIdentity ← takeString
  let peer ← takeString
  let peerKey ← takeBytesFixed 32
  let received ← takeU64
  let changed ← takeU64
  let payloadSize ← takeU64
  let attempts ← takeU64
  let eligibleAt ← takeU64
  let kind ← takeCode itemKinds
  let authentication ← takeCode itemAuthentications
  let state ← takeCode inboundStates
  let payloadHash ← takeBytesFixed 32
  let claimKey ← takeOptionalString
  let claimToken ← takeOptionalString
  let lastResult ← takeOptionalString
  let claimExpires ← takeOptionalU64
  -- Older records end here.
  let forwardJob ← trailing none takeOptionalString
  pure
    { inboundId := inboundId
      application := application
      localIdentity := localIdentity
      peer := peer
      peerKey := peerKey
      received := received
      changed := changed
      kind := kind
      authentication := authentication
      payloadSize := payloadSize
      payloadHash := payloadHash
      state := state
      attempts := attempts
      eligibleAt := eligibleAt
      claimKey := claimKey
      claimToken := claimToken
      claimExpires := claimExpires
      lastResult := lastResult
      forwardJob := forwardJob }

def decodeRecord (input : List UInt8) : Except RecordError InboundRecord :=
  whole .corruptRecord takeRecord input

def encodeMapping (value : ClaimMapping) : List UInt8 :=
  putString value.inboundId ++ (putString value.token ++
    putOptional (putCode inboundStates) value.outcome)

def takeMapping : Take ClaimMapping := do
  let inboundId ← takeString
  let token ← takeString
  let outcome ← option .corruptRecord (takeCode inboundStates)
  pure ⟨inboundId, token, outcome⟩

def decodeMapping (input : List UInt8) : Except RecordError ClaimMapping :=
  whole .corruptRecord takeMapping input

def encodeTokenResolution (value : TokenResolution) : List UInt8 :=
  putString value.inboundId ++ (putCode inboundStates value.state ++ putBool value.completed)

def takeTokenResolution : Take TokenResolution := do
  let inboundId ← takeString
  let state ← takeCode inboundStates
  let completed ← takeBool
  pure ⟨inboundId, state, completed⟩

def decodeTokenResolution (input : List UInt8) : Except RecordError TokenResolution :=
  whole .corruptRecord takeTokenResolution input

/-!
Outbound jobs.
-/

def encodeSubmission (value : SubmissionEntry) : List UInt8 := putString value.jobId ++ value.digest.toList

def takeSubmission : Take SubmissionEntry := do
  let jobId ← takeString
  let digest ← takeBytesFixed 32
  pure ⟨jobId, digest⟩

def decodeSubmission (input : List UInt8) : Except RecordError SubmissionEntry :=
  whole .corruptRecord takeSubmission input

def encodeEvent (value : EventEntry) : List UInt8 :=
  putString value.application.name ++ (putBool value.acknowledged ++ (putString value.event.eventId ++
    (putString value.event.jobId ++ (putOptional (putCode jobStates) value.event.previous ++
    (putCode jobStates value.event.current ++ (putU64 value.event.changed ++
    putString value.event.lastResult))))))

def takeEvent : Take EventEntry := do
  let application ← takeApplication
  let acknowledged ← takeBool
  let eventId ← takeString
  let jobId ← takeString
  let previous ← option .corruptRecord (takeCode jobStates)
  let current ← takeCode jobStates
  let changed ← takeU64
  let lastResult ← takeString
  pure ⟨application, acknowledged, ⟨eventId, jobId, previous, current, changed, lastResult⟩⟩

def decodeEvent (input : List UInt8) : Except RecordError EventEntry :=
  whole .corruptRecord takeEvent input

def putTarget (value : JobTarget) : List UInt8 :=
  match value with
  | .destination text => 0 :: putString text
  | .area text => 1 :: putString text

/--
The text is taken before the kind of the target is looked at.
-/
def takeTarget : Take JobTarget := do
  let kind ← byte .corruptRecord
  let text ← takeString
  if kind = 0 then
    pure (.destination text)
  else if kind = 1 then
    pure (.area text)
  else
    fail .corruptRecord

def putPolicy (value : FailurePolicy) : List UInt8 :=
  putCode failureDispositions value.disposition ++ putCode failureNotifications value.notification

def takePolicy : Take FailurePolicy := do
  let disposition ← takeCode failureDispositions
  let notification ← takeCode failureNotifications
  pure ⟨disposition, notification⟩

def putDelivery (copy : DeliveryRecord) : List UInt8 :=
  putU64 copy.index ++ (putString copy.localIdentity ++ (putString copy.nextHop ++
    (putOptional (fun key : PublicKey => key.toList) copy.nextHopKey ++
    (putCode deliveryModes copy.mode ++ (putString copy.deliveryClass ++
    (putOptionalU64 copy.retryAt ++ (putPolicy copy.policies[0] ++ (putPolicy copy.policies[1] ++
    (putCode jobStates copy.state ++ (putU64 copy.attempts ++ (putString copy.lastResult ++
    (putOptional (putCode failureKinds) copy.lastFailure ++ putOptionalString copy.workerToken))))))))))))

def takeDelivery : Take DeliveryRecord := do
  let index ← takeU64
  let localIdentity ← takeString
  let nextHop ← takeString
  let nextHopKey ← option .corruptRecord (takeBytesFixed 32)
  let mode ← takeCode deliveryModes
  let deliveryClass ← takeString
  let retryAt ← takeOptionalU64
  let first ← takePolicy
  let second ← takePolicy
  let state ← takeCode jobStates
  let attempts ← takeU64
  let lastResult ← takeString
  let lastFailure ← option .corruptRecord (takeCode failureKinds)
  let workerToken ← takeOptionalString
  pure
    { index := index
      localIdentity := localIdentity
      nextHop := nextHop
      nextHopKey := nextHopKey
      mode := mode
      deliveryClass := deliveryClass
      retryAt := retryAt
      policies := #v[first, second]
      state := state
      attempts := attempts
      lastResult := lastResult
      lastFailure := lastFailure
      workerToken := workerToken }

def putSource (source : SourceRecord) : List UInt8 :=
  putU64 source.index ++ (putCode sourceKinds source.kind ++ (putString source.wireFilename ++
    (putOptionalString source.path ++ (putCode sourceDispositions source.disposition ++
    (putCode cleanupStates source.cleanup ++ putBytes source.fileIdentity)))))

def takeSource : Take SourceRecord := do
  let index ← takeU64
  let kind ← takeCode sourceKinds
  let wireFilename ← takeString
  let path ← takeOptionalString
  let disposition ← takeCode sourceDispositions
  let cleanup ← takeCode cleanupStates
  let fileIdentity ← takeBytes
  pure ⟨index, kind, wireFilename, path, disposition, cleanup, fileIdentity⟩

def putCount (count : Nat) : List UInt8 := putU64 (UInt64.ofNat count)

def encodeJob (value : OutboundJob) : List UInt8 :=
  [4] ++ (putString value.jobId ++ (putString value.application.name ++
    (putString value.idempotencyKey ++ (value.digest.toList ++ (putCode jobKinds value.kind ++
    (putTarget value.target ++ (putCode jobStates value.state ++ (putU64 value.created ++
    (putU64 value.changed ++ (putString value.lastResult ++ (putOptionalString value.forwardInbound ++
    (putCount value.deliveries.length ++ (value.deliveries.flatMap putDelivery ++
    (putCount value.sources.length ++ (value.sources.flatMap putSource ++
    putString value.localIdentity)))))))))))))))

def takeJob : Take OutboundJob := do
  takeVersion "outbound job" 4
  let jobId ← takeString
  let application ← takeApplication
  let idempotencyKey ← takeString
  let digest ← takeBytesFixed 32
  let kind ← takeCode jobKinds
  let target ← takeTarget
  let state ← takeCode jobStates
  let created ← takeU64
  let changed ← takeU64
  let lastResult ← takeString
  let forwardInbound ← takeOptionalString
  let deliveryCount ← takeCount
  let deliveries ← many takeDelivery deliveryCount
  let sourceCount ← takeCount
  let sources ← many takeSource sourceCount
  -- Older records end here, and belong to the identity of their first copy.
  let localIdentity ← trailing ((deliveries.head?.map (·.localIdentity)).getD "") takeString
  pure
    { jobId := jobId
      application := application
      idempotencyKey := idempotencyKey
      digest := digest
      kind := kind
      target := target
      localIdentity := localIdentity
      state := state
      created := created
      changed := changed
      deliveries := deliveries
      sources := sources
      forwardInbound := forwardInbound
      lastResult := lastResult }

def decodeJob (input : List UInt8) : Except RecordError OutboundJob := whole .corruptRecord takeJob input

/-!
Key pins. The record has a fixed length, and a key that is missing is written as zeros.
-/

def putKey (key : Option PublicKey) : List UInt8 :=
  putBool key.isSome ++ (key.getD (Vector.replicate 32 0)).toList

def encodeKeyPin (pin : KeyPin) : List UInt8 :=
  [1] ++ (putCode keyPinEvidences pin.evidence ++ (pin.current.toList ++ (putKey pin.anchor ++
    (putKey pin.predecessor ++ putU64 pin.observed))))

def keyPinLength : Nat := 108

/--
The evidence of a code. An older code stands for the observation.
-/
def keyPinEvidence (b : UInt8) : Option KeyPinEvidence :=
  if b = 0 ∨ b = 2 then
    some .authorizedInitialObservation
  else if b = 1 then
    some .authenticatedContinuityProof
  else
    none

def takeKey : Take (Option PublicKey) := do
  let present ← takeBool
  let key ← takeBytesFixed 32
  pure (if present then some key else none)

def takeKeyPin : Take KeyPin := do
  let version ← byte .corruptRecord
  if version ≠ 1 then
    fail .corruptRecord
  else
    let evidence ← code .corruptRecord keyPinEvidence
    let current ← takeBytesFixed 32
    let anchor ← takeKey
    let predecessor ← takeKey
    let observed ← takeU64
    pure ⟨current, anchor, predecessor, observed, evidence⟩

def decodeKeyPin (value : List UInt8) : Except RecordError KeyPin :=
  if value.length ≠ keyPinLength then .error .corruptRecord else whole .corruptRecord takeKeyPin value

end Codec

end Tith
