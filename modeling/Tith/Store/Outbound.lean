import Tith.Lib.Text
import Tith.Store.Basic
import Tith.Wire.Tlv
import Tith.Wire.Types

/-!
This module contains the outbound half of the store: submission of jobs, the claims of delivery
workers and polls, the control operations and the log of events. A function that returns the store
in its result is one transaction, an error aborts it.
-/

namespace Tith

def aggregateState (copies : List DeliveryRecord) : JobState :=
  if copies.any (·.state = .active) then
    .active
  else if copies.any (·.state = .queued) then
    .queued
  else if copies.any (·.state = .deferred) then
    .deferred
  else if copies.any (·.state = .failed) then
    .failed
  else if copies.any (·.state = .rejected) then
    .rejected
  else if copies.any (·.state = .cancelled) then
    .cancelled
  else
    .delivered

def eventPrefix (jobId : String) : List Char := jobId.toList ++ [':']

def eventId (jobId : String) (sequence : UInt64) : String :=
  String.ofList (eventPrefix jobId ++ Nat.toDigits 10 sequence.toNat)

/--
The sequence number that a key of the event table carries for a job, if it is a key of that job.
-/
def keySequence (jobId : String) (key : String) : Option UInt64 :=
  match (eventPrefix jobId).isPrefixOf? key.toList with
  | none => none
  | some number => Text.parseU64 number

def lastSequence (events : Table String EventEntry) (jobId : String) : UInt64 :=
  events.keys.foldl
    (fun sequence key =>
      match keySequence jobId key with
      | none => sequence
      | some number => max sequence number)
    0

def eventOf (job : OutboundJob) (previous : Option JobState) (sequence : UInt64) : EventEntry where
  application := job.application
  acknowledged := false
  event :=
    {
      eventId := eventId job.jobId sequence
      jobId := job.jobId
      previous
      current := job.state
      changed := job.changed
      lastResult := job.lastResult
    }

def appendEvent (events : Table String EventEntry) (job : OutboundJob) (previous : Option JobState)
    : Except StoreError (Table String EventEntry) := do
  let sequence ← (checkedAdd (lastSequence events job.jobId) 1).okOr .corruptRecord
  .ok (events.insert (eventId job.jobId sequence) (eventOf job previous sequence))

def acknowledgeEvent (application : Application) (eventId : String) (s : Store)
    : Except StoreError Store := do
  let entry ← s.events[eventId]?.okOr .notFound
  if entry.application ≠ application then
    .error .notFound
  else
    .ok { s with events := s.events.insert eventId { entry with acknowledged := true } }

def itemMatches (kind : JobKind) (typeCode : UInt64) : Bool :=
  match kind with
  | .netMail | .echoMail => typeCode = Types.message
  | .file | .peerFile => typeCode = Types.file
  | .fileRequest => typeCode = Types.fileRequest

def JobTarget.isDestination : JobTarget → Bool
  | .destination _ => true
  | .area _ => false

def validateNewJob (value : NewOutboundJob) : Except StoreError Unit :=
  match parseSequence value.item with
  | .ok [tlv] =>
    if ¬itemMatches value.kind tlv.typeCode then
      .error .invalidPayload
    else if value.kind.hasDestination ≠ value.target.isDestination ∨
        (¬value.kind.hasDestination ∧ value.target.isDestination) ∨
        (value.deliveries = [] ∧ value.forwardInbound = none) ∨
        (value.kind.isDirect ∧ value.deliveries.length ≠ 1) ∨
        (value.forwardInbound.isSome ≠ value.forwardClaimToken.isSome) ∨
        value.localIdentity = "" then
      .error .corruptRecord
    else if value.sources.zipIdx.any (fun (source, index) => source.index ≠ UInt64.ofNat (index + 1)) then
      .error .corruptRecord
    else
      .ok ()
  | _ => .error .invalidPayload

def makeCopy (copy : NewDelivery) (index : Nat) : DeliveryRecord where
  index := UInt64.ofNat (index + 1)
  localIdentity := copy.localIdentity
  nextHop := copy.nextHop
  nextHopKey := copy.nextHopKey
  mode := copy.mode
  deliveryClass := copy.deliveryClass
  retryAt := copy.retryAt
  policies := copy.policies
  state := if copy.retryAt.isSome then .deferred else .queued
  attempts := 0
  lastResult := ""
  lastFailure := none
  workerToken := none

def makeJob (jobId : String) (value : NewOutboundJob) : OutboundJob :=
  let deliveries := value.deliveries.zipIdx.map (fun (copy, index) => makeCopy copy index)
  {
    jobId
    application := value.identity.application
    idempotencyKey := value.identity.idempotencyKey
    digest := value.identity.digest
    kind := value.kind
    target := value.target
    localIdentity := value.localIdentity
    state := if deliveries = [] then .delivered else aggregateState deliveries
    created := value.created
    changed := value.created
    deliveries
    sources := value.sources
    forwardInbound := value.forwardInbound
    lastResult := ""
  }

/--
`BatchContext::claimed_inbound`.
-/
def claimedInbound (s : Store) (application : Application) (inboundId claimToken : String)
    (now : UInt64)
    : Except StoreError ForwardInbound := do
  let record ← s.records[inboundId]?.okOr .notFound
  if record.application ≠ application ∨ record.state ≠ .claimed ∨
      record.claimToken ≠ some claimToken ∨ ¬record.claimExpires.any (now < ·) then
    .error (.stale record.state)
  else if record.forwardJob.isSome then
    .error .corruptRecord
  else do
    let payload ← s.payloads[inboundId]?.okOr .corruptRecord
    .ok { record, payload }

/--
What the builder of a batch can see of the transaction.
-/
abbrev BatchContext := Application → String → String → UInt64 → Except StoreError ForwardInbound

abbrev BatchBuilder :=
  List SubmissionClass → BatchContext → Except StoreError (List NewOutboundJob)

def identitiesValid (identities : List SubmissionIdentity) : Prop :=
  identities ≠ [] ∧
    (∀ identity ∈ identities, identity.application.name ≠ "" ∧ identity.idempotencyKey ≠ "") ∧
    (identities.map (fun identity => submissionKey identity.application identity.idempotencyKey)).Nodup

instance (identities : List SubmissionIdentity) : Decidable (identitiesValid identities) :=
  inferInstanceAs (Decidable (_ ∧ _ ∧ _))

def classify (s : Store) (identity : SubmissionIdentity) : Except StoreError SubmissionClass :=
  match s.submissions[submissionKey identity.application identity.idempotencyKey]? with
  | none => .ok (.new "")
  | some entry =>
    if entry.digest = identity.digest then do
      let job ← s.jobs[entry.jobId]?.okOr .corruptRecord
      .ok (.existing entry.jobId job.state)
    else
      .ok .conflict

def conflictPositions (classes : List SubmissionClass) : List Nat :=
  classes.zipIdx.filterMap (fun (cls, position) =>
    if cls = .conflict then some (position + 1) else none)

def assignIds (s : Store) (classes : List SubmissionClass) (assigned : List String) (rng : Rng)
    : Except StoreError (List SubmissionClass) :=
  match classes with
  | [] => .ok []
  | .new _ :: rest => do
    let (jobId, rng) ←
      freshIdentifier 'J'
        (fun candidate => s.jobs[candidate]?.isSome || assigned.contains candidate) rng
    let rest ← assignIds s rest (jobId :: assigned) rng
    .ok (.new jobId :: rest)
  | cls :: rest => do
    let rest ← assignIds s rest assigned rng
    .ok (cls :: rest)

/--
Links a claimed inbound record to the job that forwards it.
-/
def linkForward (identity : SubmissionIdentity) (jobId : String) (value : NewOutboundJob) (s : Store)
    : Except StoreError Store :=
  match value.forwardInbound with
  | none => .ok s
  | some inboundId => do
    let token ← value.forwardClaimToken.okOr .corruptRecord
    let forward ← claimedInbound s identity.application inboundId token value.created
    let record := { forward.record with forwardJob := some jobId }
    .ok { s with records := s.records.insert inboundId record }

def commitJob (identity : SubmissionIdentity) (jobId : String) (value : NewOutboundJob) (s : Store)
    : Except StoreError (JobState × Store) :=
  if value.identity ≠ identity then
    .error .corruptRecord
  else do
    validateNewJob value
    let s ← linkForward identity jobId value s
    let job := makeJob jobId value
    let key := submissionKey identity.application identity.idempotencyKey
    let events ← appendEvent s.events job none
    let s :=
      { s with
        jobs := s.jobs.insert jobId job
        items := s.items.insert jobId value.item
        submissions := s.submissions.insert key ⟨jobId, identity.digest⟩
        events }
    .ok (job.state, s)

def commitJobs (batch : List (SubmissionIdentity × SubmissionClass)) (newJobs : List NewOutboundJob)
    (s : Store)
    : Except StoreError (List CommitOutcome × Store) :=
  match batch, newJobs with
  | [], _ => .ok ([], s)
  | (_, .existing jobId state) :: rest, newJobs => do
    let (outcomes, s) ← commitJobs rest newJobs s
    .ok (.existing jobId state :: outcomes, s)
  | (identity, .new jobId) :: rest, value :: newJobs => do
    let (state, s) ← commitJob identity jobId value s
    let (outcomes, s) ← commitJobs rest newJobs s
    .ok (.new jobId state :: outcomes, s)
  | (_, .new _) :: _, [] => .error .corruptRecord
  | (_, .conflict) :: _, _ => .error .corruptRecord

def SubmissionClass.isNew : SubmissionClass → Bool
  | .new _ => true
  | _ => false

def commitBatch (identities : List SubmissionIdentity) (build : BatchBuilder) (rng : Rng) (s : Store)
    : Except StoreError (BatchCommit × Store) :=
  if ¬identitiesValid identities then
    .error .corruptRecord
  else do
    let classes ← identities.mapM (classify s)
    if conflictPositions classes ≠ [] then
      .ok (.conflict (conflictPositions classes), s)
    else do
      let classes ← assignIds s classes [] rng
      let newJobs ← build classes (claimedInbound s)
      if newJobs.length ≠ classes.countP SubmissionClass.isNew then
        .error .corruptRecord
      else do
        let (outcomes, s) ← commitJobs (identities.zip classes) newJobs s
        .ok (.committed outcomes, s)

end Tith
