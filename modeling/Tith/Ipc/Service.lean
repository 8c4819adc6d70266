import Tith.Ipc.Control
import Tith.Ipc.Results
import Tith.Ipc.Submit
import Tith.Lib.Program
import Tith.Store.Machine

/-!
This module contains the service that answers the requests of applications: what it asks of the store and of
the rest of the daemon, and the result document that it builds from the replies.
-/

namespace Tith.Ipc

def IpcError.display (error : IpcError) : String :=
  "IPC line " ++ decimal error.line ++ ": " ++ error.message

structure Principal where
  name : String
  applications : List Application
  nodup : applications.Nodup

namespace Principal

def authorizes (principal : Principal) (application : String) : Option Application :=
  principal.applications.find? (fun other => other.name = application)

def soleApplication (principal : Principal) : Option Application :=
  match principal.applications with
  | [application] => some application
  | _ => none

end Principal

/-!
Reading transactions.
-/

def queryInboundFor (application : Application) (inboundId : String) (s : Store)
    : Except StoreError InboundRecord := do
  let record ← s.records[inboundId]?.okOr .notFound
  if record.application = application then .ok record else .error .notFound

def queryJobFor (application : Application) (jobId : String) (s : Store) : Except StoreError OutboundJob := do
  let job ← s.jobs[jobId]?.okOr .notFound
  if job.application ≠ application then .error .notFound else .ok job

def lookupKey (application : Application) (s : Store) (key : String) : Except StoreError SubmissionLookup :=
  match s.submissions[submissionKey application key]? with
  | none => .ok .notFound
  | some entry => do
    let job ← s.jobs[entry.jobId]?.okOr .corruptRecord
    .ok (.existing entry.jobId job.state)

def lookup (application : Application) (keys : List String) (s : Store)
    : Except StoreError (List SubmissionLookup) :=
  keys.mapM (lookupKey application s)

def eventPrecedes (left right : OutboundEvent) : Bool :=
  ((compare left.changed right.changed).then (compare left.eventId right.eventId)).isLE

def eventsFor (application : Application) (s : Store) : List OutboundEvent :=
  let pending := (s.events.toList.map Prod.snd).filter (fun entry =>
    entry.application = application ∧ ¬entry.acknowledged)
  (pending.map EventEntry.event).mergeSort eventPrecedes

def itemOf (jobId : String) (s : Store) : Except StoreError (List UInt8) := s.items[jobId]?.okOr .notFound

/--
What the service asks of its surroundings: the clock, draws from the random source, the store, the submission
engine and the directory of exported payloads.
-/
inductive Call where
  | now
  | draw
  | read
  | transact (op : Op)
  | plan (request : SubmissionRequest)
  | rerouteDelivery (job : OutboundJob) (item : List UInt8) (nextHop : NextHop)
      (failurePolicy : Option FailureOverride)
  | removeExport (inboundId claimToken : String)
  | removeOtherExports (inboundId claimToken : String)
  | exportPayload (inboundId claimToken : String) (payload : List UInt8)

@[reducible]
def Call.reply (call : Call) : Type :=
  match call with
  | .now => UInt64
  | .draw => Rng
  | .read => Store
  | .transact _ => Except StoreError Answer
  | .plan _ => Except StoreError (List SubmissionIdentity × BatchBuilder)
  | .rerouteDelivery .. => Except StoreError NewDelivery
  | .removeExport .. => Unit
  | .removeOtherExports .. => Unit
  | .exportPayload .. => Option String

/--
A request is handled step by step, the first error of the store ends it.
-/
abbrev Service := ExceptT StoreError (Program Call Call.reply)

namespace Service

def ask (call : Call) : Service call.reply := ExceptT.lift (Program.perform call)

def now : Service UInt64 := ask .now

def attempt (call : Service (Except StoreError α)) : Service α := do
  match ← call with
  | .error e => throw e
  | .ok a => pure a

def read (query : Store → Except StoreError α) : Service α := do
  let s ← ask .read
  match query s with
  | .error e => throw e
  | .ok a => pure a

def issue (op : Op) : Service Answer := attempt (ask (.transact op))

/--
The answer of an operation. The store answers an operation with the kind of answer that belongs to it.
-/
def expect (op : Op) (select : Answer → Option α) : Service α := do
  match select (← issue op) with
  | none => throw .corruptRecord
  | some a => pure a

end Service

open Service

def Answer.renewed? (answer : Answer) : Option UInt64 :=
  match answer with
  | .renewed expires => some expires
  | _ => none

def Answer.resolved? (answer : Answer) : Option InboundState :=
  match answer with
  | .resolved state => some state
  | _ => none

def Answer.claimed? (answer : Answer) : Option ClaimResult :=
  match answer with
  | .claimed result => some result
  | _ => none

def Answer.controlled? (answer : Answer) : Option ControlOutcome :=
  match answer with
  | .controlled outcome => some outcome
  | _ => none

def Answer.batch? (answer : Answer) : Option BatchCommit :=
  match answer with
  | .batch result => some result
  | _ => none

/--
`submission` tells whether the daemon has a submission engine, `polls` how often a request that waits looks
again before its time is over. The errors of the store are shown with the source's debug output.
-/
structure IpcService where
  submission : Bool
  polls : Nat
  debug : StoreError → String
  base64 : Nodelist.Base64

namespace IpcService

variable (service : IpcService)

def claimDuration : UInt64 := 300

def authorizedApplication (principal : Principal) : Service Application :=
  match principal.soleApplication with
  | none => throw .notFound
  | some application => pure application

def requestName (request : ConsumeRequest) : String :=
  match request with
  | .capabilities => "Capabilities"
  | .claim .. => "Claim-Inbound"
  | .renew .. => "Renew-Inbound"
  | .acknowledge .. => "Acknowledge-Inbound"
  | .release .. => "Release-Inbound"
  | .defer .. => "Defer-Inbound"
  | .reject .. => "Reject-Inbound"
  | .query .. => "Query-Inbound"

def capabilities : List UInt8 :=
  let operations :=
    ["Acknowledge-Inbound", "Claim-Inbound", "Defer-Inbound", "Query-Inbound", "Reject-Inbound",
      "Release-Inbound", "Renew-Inbound"]
  let submitting :=
    ["Acknowledge", "Cancel", "Events", "Lookup-Submission", "Query", "Query-Job", "Reroute", "Retry", "Submit",
      "Submit-Items"]
  Ipc.capabilities (if service.submission then operations ++ submitting else operations) []

def control (principal : Principal) (operation id token : String) (resolution : Resolution)
    : Service (List UInt8) := do
  let application ← authorizedApplication principal
  let state ← expect (.resolve application id token (← now) resolution) Answer.resolved?
  ask (.removeExport id token)
  pure (operationResult operation ["Completed", stateName state])

def presentClaim (application : Application) (claim : Claim) : Service (List UInt8) := do
  ask (.removeOtherExports claim.inboundId claim.claimToken)
  let now ← now
  let payload ← read (claimedPayload application claim.inboundId claim.claimToken now)
  match ← ask (.exportPayload claim.inboundId claim.claimToken payload) with
  | none => throw .corruptRecord
  | some path => pure (claimResult service.base64 claim path)

/--
One turn of the loop that waits for an item. `later` is what is done if it goes on waiting.
-/
def claimOnce (application : Application) (wait : Bool) (claimKey : String) (later : Service (List UInt8))
    : Service (List UInt8) := do
  let rng ← ask .draw
  let now ← now
  match ← expect (.claim application claimKey now claimDuration rng) Answer.claimed? with
  | .empty => if wait then later else pure (operationResult "Claim-Inbound" ["Empty"])
  | .resolved inboundId state =>
    pure (operationResult "Claim-Inbound" ["Resolved", inboundId, stateName state])
  | .completed claim => service.presentClaim application claim

def claimLoop (application : Application) (wait : Bool) (claimKey : String) (polls : Nat)
    : Service (List UInt8) :=
  match polls with
  | 0 => service.claimOnce application wait claimKey (pure (operationResult "Claim-Inbound" ["TemporaryFailure"]))
  | polls + 1 => service.claimOnce application wait claimKey (claimLoop application wait claimKey polls)

def claim (principal : Principal) (application : String) (wait : Bool) (claimKey : String)
    (presentation : Presentation)
    : Service (List UInt8) :=
  match principal.authorizes application with
  | none => pure (operationResult "Claim-Inbound" ["NotAuthorized"])
  | some application =>
    if presentation = .handle then
      pure (operationResult "Claim-Inbound" ["NotSupported"])
    else
      service.claimLoop application wait claimKey service.polls

def dispatchInner (request : ConsumeRequest) (principal : Principal) : Service (List UInt8) := do
  if principal.name = "" then
    throw .notFound
  else
    let _ ← issue (.refreshExpirations (← now))
    match request with
    | .capabilities => pure service.capabilities
    | .claim application wait claimKey presentation =>
      service.claim principal application wait claimKey presentation
    | .renew inboundId claimToken => do
      let application ← authorizedApplication principal
      let expires ←
        expect (.renew application inboundId claimToken (← now) claimDuration) Answer.renewed?
      pure (operationResult "Renew-Inbound" ["Completed", decimal expires.toNat])
    | .acknowledge inboundId claimToken =>
      control principal "Acknowledge-Inbound" inboundId claimToken .acknowledge
    | .release inboundId claimToken => control principal "Release-Inbound" inboundId claimToken .release
    | .defer inboundId claimToken retryAfter description =>
      control principal "Defer-Inbound" inboundId claimToken (.defer retryAfter description)
    | .reject inboundId claimToken description =>
      control principal "Reject-Inbound" inboundId claimToken (.reject description)
    | .query inboundId => do
      let application ← authorizedApplication principal
      let record ← read (queryInboundFor application inboundId)
      pure (queryResult service.base64 record)

def dispatchError (operation : String) (error : StoreError) : List UInt8 :=
  match error with
  | .notFound => operationResult operation ["NotFound"]
  | .stale state => operationResult operation ["Stale", stateName state]
  | error => errorResult "TemporaryFailure" (service.debug error)

def operationName (operation : SubmitOperation) : String :=
  match operation with
  | .submit => "Submit"
  | .submitItems => "Submit-Items"

def buildFailureName (kind : JobBuildFailure) : String :=
  match kind with
  | .invalid => "Invalid"
  | .permanent => "PermanentFailure"
  | .temporary => "TemporaryFailure"

def conflictLine (position : Nat) : Line :=
  failureLine position "Conflict" "Idempotency-Key maps to another JobDigest"

/--
`SubmissionEngine::submit`: the engine plans the batch, the store commits it.
-/
def engineSubmit (request : SubmissionRequest) : Service BatchCommit := do
  let (identities, build) ← attempt (ask (.plan request))
  expect (.commitBatch identities build (← ask .draw)) Answer.batch?

def submitError (operation : String) (error : StoreError) : List UInt8 :=
  match error with
  | .jobBuild position kind description =>
    submitFailure operation position (buildFailureName kind) description
  | error => submitFailure operation 1 "TemporaryFailure" (service.debug error)

def submit (request : SubmissionRequest) (principal : Principal)
    : Program Call Call.reply (List UInt8) :=
  let operation := operationName request.operation
  match request.jobs.findIdx? (fun job => (principal.authorizes job.application).isNone) with
  | some position =>
    pure (submitFailure operation (position + 1) "Invalid" "Application is not authorized for this caller")
  | none =>
    if service.submission then do
      match ← (engineSubmit request).run with
      | .ok (.committed outcomes) => pure (submitCommitted operation outcomes)
      | .ok (.conflict positions) => pure (submitNotCommitted operation (positions.map conflictLine))
      | .error e => pure (service.submitError operation e)
    else
      pure (submitFailure operation 1 "Invalid" "submission is not configured for this service")

def lookupSubmission (request : LookupSubmission) (principal : Principal)
    : Program Call Call.reply (List UInt8) :=
  match principal.authorizes request.application with
  | none => pure (operationResult "Lookup-Submission" ["NotAuthorized"])
  | some application => do
    match ← (read (lookup application request.keys)).run with
    | .ok values => pure (lookupResult values)
    | .error _ => pure (operationResult "Lookup-Submission" ["TemporaryFailure"])

def reroute (principal : Principal) (jobId : String) (nextHop : NextHop)
    (failurePolicy : Option FailureOverride)
    : Service (List UInt8) := do
  let application ← authorizedApplication principal
  let job ← read (queryJobFor application jobId)
  if job.state = .active then
    pure (controlResult "Reroute" (.busy job.state))
  else if job.kind ≠ .netMail ∨ job.state = .delivered ∨ job.state = .cancelled then
    pure (controlResult "Reroute" (.notPermitted job.state))
  else if service.submission then do
    let item ← read (itemOf jobId)
    let delivery ← attempt (ask (.rerouteDelivery job item nextHop failurePolicy))
    let outcome ← expect (.reroute application jobId (← now) delivery) Answer.controlled?
    pure (controlResult "Reroute" outcome)
  else
    throw .corruptRecord

def eventsOnce (application : Application) (wait : Bool) (later : Service (List UInt8))
    : Service (List UInt8) := do
  let events ← read (fun s => .ok (eventsFor application s))
  if events ≠ [] ∨ ¬wait then
    pure (eventsResult events)
  else
    later

def eventsLoop (application : Application) (wait : Bool) (polls : Nat) : Service (List UInt8) :=
  match polls with
  | 0 => eventsOnce application wait (pure (operationResult "Events" ["TemporaryFailure"]))
  | polls + 1 => eventsOnce application wait (eventsLoop application wait polls)

/--
There is no answer where the source panics.
-/
def jobRequestInner (request : JobRequest) (principal : Principal) : Service (Option (List UInt8)) :=
  match request with
  | .query jobId itemAware paths => do
    let application ← authorizedApplication principal
    let job ← read (queryJobFor application jobId)
    if ¬itemAware ∧ job.kind ≠ .netMail then
      throw .notFound
    else
      pure (outboundQueryResult job itemAware paths)
  | .cancel jobId => do
    let application ← authorizedApplication principal
    let outcome ← expect (.cancel application jobId (← now)) Answer.controlled?
    pure (some (controlResult "Cancel" outcome))
  | .retry jobId => do
    let application ← authorizedApplication principal
    let outcome ← expect (.retry application jobId (← now)) Answer.controlled?
    pure (some (controlResult "Retry" outcome))
  | .reroute jobId nextHop failurePolicy => some <$> service.reroute principal jobId nextHop failurePolicy
  | .events application wait =>
    match principal.authorizes application with
    | none => pure (some (operationResult "Events" ["NotAuthorized"]))
    | some application => some <$> eventsLoop application wait service.polls
  | .acknowledge application eventId =>
    match principal.authorizes application with
    | none => pure (some (operationResult "Acknowledge" ["NotFound"]))
    | some application => do
      let _ ← issue (.acknowledgeEvent application eventId)
      pure (some (operationResult "Acknowledge" ["Completed"]))

/--
The name of the operation is read from the request once more.
-/
def jobRequestError (input : List UInt8) (error : StoreError) : List UInt8 :=
  match error with
  | .notFound =>
    let operation :=
      match Document.parse input .request with
      | .ok ⟨_, ⟨field :: _⟩ :: _⟩ => field.text
      | _ => "Query-Job"
    operationResult operation ["NotFound"]
  | .jobBuild _ .invalid description => errorResult "PermanentFailure" description
  | .jobBuild _ .permanent description => errorResult "PermanentFailure" description
  | error => errorResult "TemporaryFailure" (service.debug error)

def invalid (error : IpcError) : Program Call Call.reply (Option (List UInt8)) :=
  pure (some (errorResult "Invalid" error.display))

def consumeOperations : List String :=
  ["Claim-Inbound", "Renew-Inbound", "Acknowledge-Inbound", "Release-Inbound", "Defer-Inbound", "Reject-Inbound",
    "Query-Inbound"]

def jobOperations : List String :=
  ["Query", "Query-Job", "Cancel", "Retry", "Reroute", "Events", "Acknowledge"]

def processOperation (operation : String) (document : Document) (request : List UInt8) (principal : Principal)
    : Program Call Call.reply (Option (List UInt8)) :=
  if operation = "Capabilities" ∧ document.lines.length = 1 then
    pure (some service.capabilities)
  else if operation ∈ consumeOperations then
    match ConsumeRequest.parse request with
    | .error e => invalid e
    | .ok parsed => do
      match ← (service.dispatchInner parsed principal).run with
      | .ok value => pure (some value)
      | .error e => pure (some (service.dispatchError (requestName parsed) e))
  else if operation = "Submit" ∨ operation = "Submit-Items" then
    match SubmissionRequest.parse request with
    | .error e => invalid e
    | .ok parsed => some <$> service.submit parsed principal
  else if operation = "Lookup-Submission" then
    match LookupSubmission.parse request with
    | .error e => invalid e
    | .ok parsed => some <$> lookupSubmission parsed principal
  else if operation ∈ jobOperations then
    match JobRequest.parse request with
    | .error e => invalid e
    | .ok parsed => do
      match ← (service.jobRequestInner parsed principal).run with
      | .ok value => pure value
      | .error e => pure (some (service.jobRequestError request e))
  else
    pure (some (errorResult "Invalid" "unknown or malformed operation"))

def processRequest (request : List UInt8) (principal : Option Principal)
    : Program Call Call.reply (Option (List UInt8)) :=
  match Document.parse request .request with
  | .error e => invalid e
  | .ok document =>
    match principal with
    | none => pure (some (errorResult "NotAuthorized" "caller is not authorized"))
    | some principal =>
      match document.lines with
      | ⟨⟨operation, false⟩ :: _⟩ :: _ => service.processOperation operation document request principal
      | _ => pure (some (errorResult "Invalid" "missing operation"))

end IpcService

/--
What the surroundings of a request are free to do: the database may fail, and all that is not the store may
reply anything.
-/
structure Surroundings where
  failure : Option StoreError
  reply : (call : Call) → call.reply

/--
The store while a request is handled. Others issue operations of their own in the meantime.
-/
def serviceWorld (c : Crypto) : Program.World Store Call Call.reply Surroundings where
  act s call f :=
    match call with
    | .read => (s, s)
    | .transact op =>
      match f.failure with
      | some e => (.error e, s)
      | none => step c s op
    | .now => (f.reply .now, s)
    | .draw => (f.reply .draw, s)
    | .plan request => (f.reply (.plan request), s)
    | .rerouteDelivery job item nextHop failurePolicy =>
      (f.reply (.rerouteDelivery job item nextHop failurePolicy), s)
    | .removeExport inboundId claimToken => (f.reply (.removeExport inboundId claimToken), s)
    | .removeOtherExports inboundId claimToken => (f.reply (.removeOtherExports inboundId claimToken), s)
    | .exportPayload inboundId claimToken payload =>
      (f.reply (.exportPayload inboundId claimToken payload), s)
  moves s s' := ∃ op, s' = (step c s op).2
  allowed _ _ _ := True
  mayStop _ := True

end Tith.Ipc
