import Tith.Ipc.Marks
import Tith.Nodelist.Server
import Tith.Store.Basic

/-!
This module contains the result documents that the daemon builds from the records of the store, and the
nesting of their blocks.
-/

namespace Tith.Ipc

def quoted (text : String) : Field := ⟨text, true⟩

def decimal (n : Nat) : String := String.ofList (Nat.toDigits 10 n)

def result (lines : List Line) : List UInt8 := Document.encode ⟨.result, lines⟩

def operationResult (operation : String) (values : List String) : List UInt8 :=
  result [⟨unquoted operation :: values.map unquoted⟩]

def jobStateName (value : JobState) : String :=
  match value with
  | .queued => "Queued"
  | .active => "Active"
  | .deferred => "Deferred"
  | .delivered => "Delivered"
  | .rejected => "Rejected"
  | .failed => "Failed"
  | .cancelled => "Cancelled"

def stateName (value : InboundState) : String :=
  match value with
  | .available => "Available"
  | .claimed => "Claimed"
  | .deferred => "Deferred"
  | .consumed => "Consumed"
  | .rejected => "Rejected"
  | .failed => "Failed"

def kindName (value : StoredKind) : String :=
  match value with
  | .message => "Message"
  | .file => "File"
  | .fileRequest => "FileRequest"

def jobKindName (value : JobKind) : String :=
  match value with
  | .netMail => "NetMail"
  | .echoMail => "EchoMail"
  | .file => "File"
  | .peerFile => "Peer-File"
  | .fileRequest => "FileRequest"

def authName (value : ItemAuthentication) : String :=
  match value with
  | .unsigned => "Unsigned"
  | .signedOriginInvalid => "SignedOrigin-Invalid"
  | .signedOriginValid => "SignedOrigin-Valid"
  | .originInvalid => "Origin-Invalid"
  | .originValid => "Origin-Valid"
  | .transport => "Transport"

def cleanupName (value : CleanupState) : String :=
  match value with
  | .notRequested => "NotRequested"
  | .pending => "Pending"
  | .complete => "Complete"
  | .notFound => "NotFound"
  | .replaced => "Replaced"
  | .failed => "Failed"

def sourceKindName (value : SourceKind) : String :=
  match value with
  | .attachment => "Attachment"
  | .file => "File"

def modeName (value : DeliveryMode) : String :=
  match value with
  | .active => "Active"
  | .passive => "Passive"

def dispositionName (value : FailureDisposition) : String :=
  match value with
  | .deadLetter => "Dead-Letter"
  | .discard => "Discard"

def notificationName (value : FailureNotification) : String :=
  match value with
  | .none => "None"
  | .sender => "Sender"
  | .originSysop => "Origin-Sysop"
  | .both => "Both"

def outcomeLine (outcome : CommitOutcome) (index : Nat) : Line :=
  let (kind, jobId, state) :=
    match outcome with
    | .new jobId state => ("New", jobId, state)
    | .existing jobId state => ("Existing", jobId, state)
  ⟨[unquoted "Job", unquoted (decimal (index + 1)), unquoted kind, unquoted jobId,
    unquoted (jobStateName state)]⟩

def submitCommitted (operation : String) (outcomes : List CommitOutcome) : List UInt8 :=
  result (⟨[unquoted operation, unquoted "Committed"]⟩ ::
    outcomes.zipIdx.map (fun (outcome, index) => outcomeLine outcome index))

def submitNotCommitted (operation : String) (failures : List Line) : List UInt8 :=
  result (⟨[unquoted operation, unquoted "Not-Committed"]⟩ :: failures)

def failureLine (position : Nat) (kind description : String) : Line :=
  ⟨[unquoted "Failure", unquoted (decimal position), unquoted kind, quoted description]⟩

def submitFailure (operation : String) (position : Nat) (kind description : String) : List UInt8 :=
  submitNotCommitted operation [failureLine position kind description]

def errorResult (kind description : String) : List UInt8 :=
  result [⟨[unquoted "Error", unquoted kind, quoted description]⟩]

def controlResult (operation : String) (outcome : ControlOutcome) : List UInt8 :=
  let (status, state) :=
    match outcome with
    | .completed state => ("Completed", state)
    | .busy state => ("Busy", state)
    | .notPermitted state => ("NotPermitted", state)
  operationResult operation [status, jobStateName state]

inductive SubmissionLookup where
  | existing (jobId : String) (state : JobState)
  | notFound
  deriving DecidableEq

def lookupLine (value : SubmissionLookup) (index : Nat) : Line :=
  let fields := [unquoted "Submission", unquoted (decimal (index + 1))]
  match value with
  | .existing jobId state =>
    ⟨fields ++ [unquoted "Existing", unquoted jobId, unquoted (jobStateName state)]⟩
  | .notFound => ⟨fields ++ [unquoted "NotFound"]⟩

def lookupResult (values : List SubmissionLookup) : List UInt8 :=
  result (⟨[unquoted "Lookup-Submission", unquoted "Completed"]⟩ ::
    values.zipIdx.map (fun (value, index) => lookupLine value index))

def sortDedup (values : List String) : List String := (values.mergeSort (· ≤ ·)).destutter (· ≠ ·)

def capabilities (operations features : List String) : List UInt8 :=
  result (⟨[unquoted "Capabilities", unquoted "Completed"]⟩ ::
    ((sortDedup (operations ++ ["Capabilities"])).map (fun value => ⟨[unquoted "Operation", quoted value]⟩) ++
      (sortDedup features).map (fun value => ⟨[unquoted "Feature", quoted value]⟩)))

def eventBlock (event : OutboundEvent) : List Line :=
  [⟨[unquoted "Event"]⟩,
    ⟨[unquoted "Event-ID", quoted event.eventId]⟩,
    ⟨[unquoted "Job", unquoted event.jobId]⟩,
    ⟨[unquoted "Previous", unquoted (event.previous.elim "None" jobStateName)]⟩,
    ⟨[unquoted "Current", unquoted (jobStateName event.current)]⟩,
    ⟨[unquoted "Changed", unquoted (decimal event.changed.toNat)]⟩,
    ⟨[unquoted "Last-Result", quoted event.lastResult]⟩,
    ⟨[unquoted "End"]⟩]

def eventsResult (events : List OutboundEvent) : List UInt8 :=
  result (⟨[unquoted "Events", unquoted "Completed"]⟩ :: events.flatMap eventBlock)

def policyLine (kind : String) (policy : FailurePolicy) : Line :=
  ⟨[unquoted "Failure-Policy", unquoted kind, unquoted (dispositionName policy.disposition), unquoted "Notify",
    unquoted (notificationName policy.notification)]⟩

def deliveryLines (copy : DeliveryRecord) : List Line :=
  [⟨[unquoted "Next-Hop", unquoted (modeName copy.mode), quoted copy.nextHop]⟩,
    ⟨[unquoted "Class", quoted copy.deliveryClass]⟩] ++
    List.zipWith policyLine ["Relay-Denied", "Rejected"] copy.policies.toList

def deliveryBlock (copy : DeliveryRecord) : List Line :=
  ⟨[unquoted "Delivery", unquoted (decimal copy.index.toNat), unquoted (jobStateName copy.state)]⟩ ::
    (deliveryLines copy ++
      [⟨[unquoted "Attempts", unquoted (decimal copy.attempts.toNat)]⟩,
        ⟨[unquoted "Last-Result", quoted copy.lastResult]⟩] ++
      [⟨[unquoted "End"]⟩])

def targetLine (target : JobTarget) : Line :=
  match target with
  | .destination value => ⟨[unquoted "Destination", quoted value]⟩
  | .area value => ⟨[unquoted "Area", quoted value]⟩

def attemptsOf (job : OutboundJob) : UInt64 := (job.deliveries.map DeliveryRecord.attempts).sum

def progressLines (job : OutboundJob) : List Line :=
  [⟨[unquoted "Created", unquoted (decimal job.created.toNat)]⟩,
    ⟨[unquoted "Changed", unquoted (decimal job.changed.toNat)]⟩,
    ⟨[unquoted "Attempts", unquoted (decimal (attemptsOf job).toNat)]⟩,
    ⟨[unquoted "Last-Result", quoted job.lastResult]⟩]

def sourcePathLines (paths : Bool) (job : OutboundJob) : List Line :=
  if paths then
    job.sources.filterMap (fun source =>
      source.path.map (fun path =>
        ⟨[unquoted "Source-Path", unquoted (decimal source.index.toNat), quoted path]⟩))
  else
    []

/--
There is no answer where the source panics: on a job without copies or one that is addressed to an area, if it
is asked for as a message.
-/
def outboundQueryResult (job : OutboundJob) (itemAware paths : Bool) : Option (List UInt8) :=
  let operation := if itemAware then "Query-Job" else "Query"
  let first :=
    [⟨[unquoted operation, unquoted "Completed"]⟩,
      ⟨[unquoted "Job", unquoted job.jobId, unquoted (jobStateName job.state)]⟩,
      ⟨[unquoted "Application", quoted job.application.name]⟩]
  if itemAware then
    some (result (first ++
      [⟨[unquoted "Kind", unquoted (jobKindName job.kind)]⟩,
        ⟨[unquoted "Local-Identity", quoted job.localIdentity]⟩,
        targetLine job.target] ++
      progressLines job ++ job.deliveries.flatMap deliveryBlock ++
      job.sources.map (fun source =>
        ⟨[unquoted "Source", unquoted (decimal source.index.toNat), unquoted (sourceKindName source.kind),
          quoted source.wireFilename, unquoted (cleanupName source.cleanup)]⟩) ++
      sourcePathLines paths job))
  else
    match job.deliveries, job.target with
    | copy :: _, .destination value =>
      some (result (first ++
        [⟨[unquoted "Origin", quoted copy.localIdentity]⟩, ⟨[unquoted "Destination", quoted value]⟩] ++
        deliveryLines copy ++ progressLines job ++
        job.sources.map (fun source =>
          ⟨[unquoted "Attachment", unquoted (decimal source.index.toNat), quoted source.wireFilename,
            unquoted (cleanupName source.cleanup)]⟩) ++
        sourcePathLines paths job))
    | _, _ => none

def forwardJobLines (record : InboundRecord) : List Line :=
  match record.forwardJob with
  | none => []
  | some jobId => [⟨[unquoted "Forward-Job", unquoted jobId]⟩]

def payloadLines (base64 : Nodelist.Base64) (record : InboundRecord) : List Line :=
  [⟨[unquoted "Payload-Size", unquoted (decimal record.payloadSize.toNat)]⟩,
    ⟨[unquoted "Payload-Hash", quoted (String.ofList (base64.encode record.payloadHash.toList))]⟩]

def arrivalLines (base64 : Nodelist.Base64) (record : InboundRecord) : List Line :=
  [⟨[unquoted "Kind", unquoted (kindName record.kind)]⟩,
    ⟨[unquoted "Local-Identity", quoted record.localIdentity]⟩,
    ⟨[unquoted "Peer", quoted record.peer]⟩,
    ⟨[unquoted "Peer-Key", quoted (String.ofList (base64.encode record.peerKey.toList))]⟩,
    ⟨[unquoted "Item-Authentication", unquoted (authName record.authentication)]⟩,
    ⟨[unquoted "Received", unquoted (decimal record.received.toNat)]⟩]

def claimResult (base64 : Nodelist.Base64) (claim : Claim) (path : String) : List UInt8 :=
  let record := claim.record
  result (
    [⟨[unquoted "Claim-Inbound", unquoted "Completed"]⟩,
      ⟨[unquoted "Item", unquoted record.inboundId, unquoted "Claimed"]⟩,
      ⟨[unquoted "Claim-Token", unquoted claim.claimToken]⟩,
      ⟨[unquoted "Claim-Expires", unquoted (decimal claim.expires.toNat)]⟩] ++
    arrivalLines base64 record ++ payloadLines base64 record ++ forwardJobLines record ++
    [⟨[unquoted "Payload-Path", quoted path]⟩])

def queryResult (base64 : Nodelist.Base64) (record : InboundRecord) : List UInt8 :=
  result (
    [⟨[unquoted "Query-Inbound", unquoted "Completed"]⟩,
      ⟨[unquoted "Item", unquoted record.inboundId, unquoted (stateName record.state)]⟩,
      ⟨[unquoted "Application", quoted record.application.name]⟩] ++
    arrivalLines base64 record ++
    [⟨[unquoted "Changed", unquoted (decimal record.changed.toNat)]⟩,
      ⟨[unquoted "Attempts", unquoted (decimal record.attempts.toNat)]⟩] ++
    record.claimExpires.toList.map (fun expires =>
      ⟨[unquoted "Claim-Expires", unquoted (decimal expires.toNat)]⟩) ++
    payloadLines base64 record ++
    record.lastResult.toList.map (fun value => ⟨[unquoted "Last-Result", quoted value]⟩) ++
    forwardJobLines record)

end Tith.Ipc
