import Tith.Store.Outbound

/-!
This module contains what happens to the copies of a committed job: the control operations of its
application, the claims of the delivery workers and polls, their outcomes and crash recovery.
-/

namespace Tith

/--
Runs a control update on a job of the application. The update sets the copies, the job itself is
only written when its state or its last result differ from what they are to become.
-/
def control (application : Application) (jobId : String) (now : UInt64) (result : String)
    (update : OutboundJob → OutboundJob × ControlOutcome) (s : Store)
    : Except StoreError (ControlOutcome × Store) := do
  let job ← s.jobs[jobId]?.okOr .notFound
  if job.application ≠ application then
    .error .notFound
  else
    let previous := job.state
    match update job with
    | (job, .completed _) =>
      if job.state ≠ previous ∨ job.lastResult ≠ result then do
        let job :=
          { job with
            state := aggregateState job.deliveries
            changed := now
            lastResult := result }
        let events ← appendEvent s.events job (some previous)
        .ok (.completed job.state, { s with jobs := s.jobs.insert jobId job, events })
      else
        .ok (.completed job.state, s)
    | (_, outcome) => .ok (outcome, s)

def cancelCopy (copy : DeliveryRecord) : DeliveryRecord :=
  if copy.state = .queued ∨ copy.state = .deferred ∨ copy.state = .rejected ∨ copy.state = .failed then
    { copy with state := .cancelled, retryAt := none, lastFailure := none, lastResult := "Cancelled" }
  else
    copy

def cancelUpdate (job : OutboundJob) : OutboundJob × ControlOutcome :=
  if job.deliveries.any (·.state = .active) then
    (job, .busy job.state)
  else if job.state = .cancelled then
    (job, .completed job.state)
  else
    let changed :=
      job.deliveries.any (fun copy =>
        copy.state = .queued ∨ copy.state = .deferred ∨ copy.state = .rejected ∨ copy.state = .failed)
    let updated := { job with deliveries := job.deliveries.map cancelCopy }
    if changed then (updated, .completed .cancelled) else (updated, .notPermitted job.state)

def cancel (application : Application) (jobId : String) (now : UInt64) (s : Store)
    : Except StoreError (ControlOutcome × Store) :=
  control application jobId now "Cancelled" cancelUpdate s

def retryCopy (copy : DeliveryRecord) : DeliveryRecord :=
  if copy.state = .deferred ∨ copy.state = .failed then
    { copy with
      state := .queued
      retryAt := none
      lastFailure := none
      lastResult := "Retry requested" }
  else
    copy

def retryUpdate (job : OutboundJob) : OutboundJob × ControlOutcome :=
  let changed := job.deliveries.any (fun copy => copy.state = .deferred ∨ copy.state = .failed)
  let updated := { job with deliveries := job.deliveries.map retryCopy }
  if changed then (updated, .completed .queued) else (updated, .notPermitted job.state)

def retry (application : Application) (jobId : String) (now : UInt64) (s : Store)
    : Except StoreError (ControlOutcome × Store) :=
  control application jobId now "Retry requested" retryUpdate s

/--
The copy after a reroute. The key of the next hop is the one field of the commitment that the
source does not take over.
-/
def rerouteCopy (delivery : NewDelivery) (copy : DeliveryRecord) : DeliveryRecord :=
  { copy with
    localIdentity := delivery.localIdentity
    nextHop := delivery.nextHop
    mode := delivery.mode
    deliveryClass := delivery.deliveryClass
    retryAt := none
    policies := delivery.policies
    state := .queued
    lastFailure := none
    lastResult := "Rerouted" }

def rerouteUpdate (delivery : NewDelivery) (job : OutboundJob) : OutboundJob × ControlOutcome :=
  match job.deliveries with
  | [copy] =>
    if job.kind ≠ .netMail ∨ job.state = .delivered ∨ job.state = .cancelled then
      (job, .notPermitted job.state)
    else if job.state = .active then
      (job, .busy job.state)
    else
      ({ job with deliveries := [rerouteCopy delivery copy] }, .completed .queued)
  | _ => (job, .notPermitted job.state)

def reroute (application : Application) (jobId : String) (now : UInt64) (delivery : NewDelivery)
    (s : Store)
    : Except StoreError (ControlOutcome × Store) :=
  control application jobId now "Rerouted" (rerouteUpdate delivery) s

/--
A copy found while iterating over the jobs: the job as it was read, the position of the copy in it
and the copy.
-/
structure Selected where
  job : OutboundJob
  index : Nat
  copy : DeliveryRecord

def Selected.order (left right : Selected) : Ordering :=
  (compare left.job.created right.job.created).then <|
    (compare left.job.jobId right.job.jobId).then (compare left.copy.index right.copy.index)

def selectJob (p : OutboundJob → DeliveryRecord → Bool) (job : OutboundJob) : List Selected :=
  (job.deliveries.zipIdx.filter (fun (copy, _) => p job copy)).map
    (fun (copy, index) => ⟨job, index, copy⟩)

def selectCopies (s : Store) (p : OutboundJob → DeliveryRecord → Bool) : List Selected :=
  (s.jobs.toList.map Prod.snd).flatMap (selectJob p)

def claimCopy (copy : DeliveryRecord) (token : String) (attempts : UInt64) : DeliveryRecord :=
  { copy with state := .active, attempts, retryAt := none, workerToken := some token }

def claimJob (job : OutboundJob) (index : Nat) (copy : DeliveryRecord) (now : UInt64) : OutboundJob :=
  let deliveries := job.deliveries.set index copy
  { job with deliveries, changed := now, state := aggregateState deliveries }

def claimSelected (selected : Selected) (now : UInt64) (rng : Rng) (s : Store)
    : Except StoreError (DeliveryClaim × Rng × Store) := do
  let (token, rng) ← randomIdentifier 'W' rng
  let attempts ← (checkedAdd selected.copy.attempts 1).okOr .corruptRecord
  let copy := claimCopy selected.copy token attempts
  let job := claimJob selected.job selected.index copy now
  let item ← s.items[job.jobId]?.okOr .corruptRecord
  let events ← appendEvent s.events job (some selected.job.state)
  let claim :=
    {
      jobId := job.jobId
      deliveryIndex := copy.index
      workerToken := token
      item
      delivery := copy
    }
  .ok (claim, rng, { s with jobs := s.jobs.insert job.jobId job, events })

def DeliveryRecord.isWaiting (copy : DeliveryRecord) : Bool :=
  copy.state = .queued ∨ copy.state = .deferred

def claimMatching (now : UInt64) (matchesSelector : DeliveryRecord → Bool) (rng : Rng) (s : Store)
    : Except StoreError (Option DeliveryClaim × Store) :=
  let eligible :=
    selectCopies s (fun _ copy =>
      matchesSelector copy && copy.isWaiting && copy.retryAt.all (· ≤ now))
  let first :=
    eligible.foldl
      (fun selected candidate =>
        if selected.all (fun old => (candidate.order old).isLT) then some candidate else selected)
      none
  match first with
  | none => .ok (none, s)
  | some selected => do
    let (claim, _, s) ← claimSelected selected now rng s
    .ok (some claim, s)

def claimScheduled (now : UInt64) (selects : DeliveryRecord → Bool) (rng : Rng) (s : Store)
    : Except StoreError (Option DeliveryClaim × Store) :=
  claimMatching now (fun copy => copy.mode = .active && selects copy) rng s

/--
Whether a poll by this identity for these kinds takes a copy.
-/
def pollMatches (nextHop : String) (nextHopKey : Option PublicKey) (kinds : List JobKind)
    (job : OutboundJob) (copy : DeliveryRecord)
    : Bool :=
  kinds.contains job.kind && copy.nextHop = nextHop && copy.nextHopKey = nextHopKey && copy.isWaiting

def claimAll (selected : List Selected) (now : UInt64) (rng : Rng) (s : Store)
    : Except StoreError (List DeliveryClaim × Store) :=
  match selected with
  | [] => .ok ([], s)
  | first :: rest => do
    let (claim, rng, s) ← claimSelected first now rng s
    let (claims, s) ← claimAll rest now rng s
    .ok (claim :: claims, s)

/--
The whole snapshot is collected before the first copy of it is claimed.
-/
def claimPollSnapshot (nextHop : String) (nextHopKey : Option PublicKey) (kinds : List JobKind)
    (now : UInt64) (rng : Rng) (s : Store)
    : Except StoreError (List DeliveryClaim × Store) :=
  let selected := selectCopies s (pollMatches nextHop nextHopKey kinds)
  claimAll (selected.insertionSort (fun left right => (left.order right).isLE)) now rng s

def DeliveryOutcome.result : DeliveryOutcome → String
  | .delivered result => result
  | .deferred _ result => result
  | .rejected _ result => result
  | .failed result => result

def finishCopy (copy : DeliveryRecord) (outcome : DeliveryOutcome) : DeliveryRecord :=
  let (state, retryAt, lastFailure) :=
    match outcome with
    | .delivered _ => (.delivered, none, none)
    | .deferred retryAt _ => (.deferred, some retryAt, none)
    | .rejected kind _ => (.rejected, none, some kind)
    | .failed _ => (.failed, none, none)
  { copy with state, retryAt, lastFailure, lastResult := outcome.result, workerToken := none }

def finishJob (job : OutboundJob) (position : Nat) (copy : DeliveryRecord) (now : UInt64)
    (outcome : DeliveryOutcome)
    : OutboundJob :=
  let deliveries := job.deliveries.set position (finishCopy copy outcome)
  { job with
    deliveries
    changed := now
    lastResult := outcome.result
    state := aggregateState deliveries }

def finishDelivery (jobId : String) (index : UInt64) (token : String) (now : UInt64)
    (outcome : DeliveryOutcome) (s : Store)
    : Except StoreError (JobState × Store) := do
  let job ← s.jobs[jobId]?.okOr .notFound
  let position ← (job.deliveries.findIdx? (·.index = index)).okOr .notFound
  let copy ← job.deliveries[position]?.okOr .notFound
  if copy.state ≠ .active ∨ copy.workerToken ≠ some token then
    .error (.jobStale job.state)
  else do
    let finished := finishJob job position copy now outcome
    let events ← appendEvent s.events finished (some job.state)
    .ok (finished.state, { s with jobs := s.jobs.insert jobId finished, events })

def recoverCopy (retryAt : UInt64) (result : String) (copy : DeliveryRecord) : DeliveryRecord :=
  if copy.state = .active then
    { copy with
      state := .deferred
      retryAt := some retryAt
      lastResult := result
      workerToken := none }
  else
    copy

def recoverJob (now retryAt : UInt64) (result : String) (job : OutboundJob) : OutboundJob :=
  let deliveries := job.deliveries.map (recoverCopy retryAt result)
  { job with
    deliveries
    state := aggregateState deliveries
    changed := now
    lastResult := result }

def activeJobs (s : Store) : List OutboundJob :=
  (s.jobs.toList.map Prod.snd).filter (fun job => job.deliveries.any (·.state = .active))

def recoverActive (now retryAt : UInt64) (result : String) (s : Store)
    : Except StoreError (UInt64 × Store) := do
  let changed := (activeJobs s).map (fun job => (recoverJob now retryAt result job, job.state))
  let jobs := changed.foldl (fun jobs (job, _) => jobs.insert job.jobId job) s.jobs
  let events ←
    changed.foldlM (fun events (job, previous) => appendEvent events job (some previous)) s.events
  .ok (UInt64.ofNat changed.length, { s with jobs, events })

end Tith
