import Tith.Deliver.Pass
import Tith.Store.Control

/-!
This module contains what a reroute leaves of the routing commitment of a copy, and for whom the copy waits then.
-/

namespace Tith

/--
The copy is committed as the delivery says and waits as a new one does.
-/
structure Recommitted (delivery : NewDelivery) (copy copy' : DeliveryRecord) : Prop where
  localIdentity : copy'.localIdentity = delivery.localIdentity
  nextHop : copy'.nextHop = delivery.nextHop
  nextHopKey : copy'.nextHopKey = delivery.nextHopKey
  mode : copy'.mode = delivery.mode
  deliveryClass : copy'.deliveryClass = delivery.deliveryClass
  policies : copy'.policies = delivery.policies
  queued : copy'.state = .queued
  retryAt : copy'.retryAt = none
  lastFailure : copy'.lastFailure = none
  workerToken : copy'.workerToken = none
  attempts : copy'.attempts = copy.attempts
  index : copy'.index = copy.index

/--
The identity of the next hop of a delivery that is not committed yet.
-/
def NewDelivery.target (delivery : NewDelivery) (resolver : KeyResolver) : Option Identity := do
  let address ← (Address.fromStr delivery.nextHop).toOption
  let publicKey ← if address.isAnonymous then delivery.nextHopKey else resolver address
  some { address, publicKey }

/--
Polls and delivery attempts find the copy under the next hop of the delivery, and under no other.
-/
structure WaitsFor (delivery : NewDelivery) (copy : DeliveryRecord) : Prop where
  polled : ∀ nextHop nextHopKey kinds job, pollMatches nextHop nextHopKey kinds job copy = true ↔
    job.kind ∈ kinds ∧ nextHop = delivery.nextHop ∧ nextHopKey = delivery.nextHopKey
  attempted : ∀ resolver, nextHop resolver copy = delivery.target resolver

theorem Recommitted.waitsFor {delivery : NewDelivery} {copy copy' : DeliveryRecord}
    (h : Recommitted delivery copy copy')
    : WaitsFor delivery copy' := by
  constructor
  . intro nextHop nextHopKey kinds job
    simp only [pollMatches, DeliveryRecord.isWaiting, h.nextHop, h.nextHopKey, h.queued, Bool.and_eq_true,
      List.contains_iff_mem, decide_eq_true_eq, true_or, and_true, and_assoc]
    rw [eq_comm (a := delivery.nextHop), eq_comm (a := delivery.nextHopKey)]
  . intro resolver
    unfold Tith.nextHop NewDelivery.target
    rw [h.nextHop, h.nextHopKey]

/--
The copy of the job after a reroute, and what it waits for.
-/
def RerouteReplaces (delivery : NewDelivery) (job : OutboundJob) (s' : Store) : Prop :=
  ∃ copy copy' job', job.deliveries = [copy] ∧ s'.jobs[job.jobId]? = some job' ∧ job'.deliveries = [copy'] ∧
    Recommitted delivery copy copy' ∧ WaitsFor delivery copy'

theorem rerouteUpdate_completed {delivery : NewDelivery} {job : OutboundJob} {state : JobState}
    (h : (rerouteUpdate delivery job).2 = .completed state)
    : ∃ copy, job.deliveries = [copy] ∧ job.state ≠ .active ∧
        (rerouteUpdate delivery job).1 = { job with deliveries := [rerouteCopy delivery copy] } := by
  unfold rerouteUpdate at *
  split at h
  . next copy hcopy =>
    split at h
    . cases h
    . split at h
      . cases h
      . next hpermitted hactive =>
        refine ⟨copy, hcopy, hactive, ?_⟩
        rw [if_neg hpermitted, if_neg hactive]
  . cases h

theorem recommitted_rerouteCopy {delivery : NewDelivery} {copy : DeliveryRecord} (htoken : copy.workerToken = none)
    : Recommitted delivery copy (rerouteCopy delivery copy) ↔ copy.nextHopKey = delivery.nextHopKey := by
  constructor
  . intro h
    exact h.nextHopKey
  . intro h
    exact ⟨rfl, rfl, h, rfl, rfl, rfl, rfl, rfl, rfl, htoken, rfl, rfl⟩

/--
A completed reroute replaces the whole commitment exactly if the key of the next hop stays the same, and the job has not
been rerouted last, unless there is nothing to replace.
-/
theorem reroute_replaces_iff (c : Crypto) (ops : List Op) (application : Application) (jobId : String) (now : UInt64)
    (delivery : NewDelivery) (job : OutboundJob) (state : JobState)
    (hjob : ((storeMachine c).run .empty ops).jobs[jobId]? = some job)
    (hok : (step c ((storeMachine c).run .empty ops) (.reroute application jobId now delivery)).1 =
      .ok (.controlled (.completed state)))
    : RerouteReplaces delivery job
          (step c ((storeMachine c).run .empty ops) (.reroute application jobId now delivery)).2 ↔
        ∃ copy, job.deliveries = [copy] ∧ copy.nextHopKey = delivery.nextHopKey ∧
          (job.lastResult ≠ "Rerouted" ∨ Recommitted delivery copy copy) := by
  have hinv := run_ledgerInv c ops
  generalize (storeMachine c).run .empty ops = s at *
  obtain ⟨rfl, _, hjobInv⟩ := hinv.jobs jobId job hjob
  rw [show step c s (.reroute application job.jobId now delivery) =
    transact s (control application job.jobId now "Rerouted" (rerouteUpdate delivery) s) .controlled from rfl] at *
  rcases transact_cases s (control application job.jobId now "Rerouted" (rerouteUpdate delivery) s)
    Answer.controlled with ⟨e, _, heq⟩ | ⟨outcome, s', hcontrol, heq⟩
  . rw [heq] at hok
    cases hok
  . rw [heq] at hok ⊢
    injection hok with hok
    injection hok with hok
    subst hok
    obtain ⟨job', hjob', _, hcases⟩ := control_cases hcontrol
    rw [hjob] at hjob'
    injection hjob' with hsame
    subst hsame
    have hstored (state : JobState) (hcompleted : (rerouteUpdate delivery job).2 = .completed state)
        : ∃ copy, job.deliveries = [copy] ∧ copy.workerToken = none ∧
            (rerouteUpdate delivery job).1 = { job with deliveries := [rerouteCopy delivery copy] } := by
      obtain ⟨copy, hcopy, hactive, hupdate⟩ := rerouteUpdate_completed hcompleted
      refine ⟨copy, hcopy, ?_, hupdate⟩
      have hstate := hjobInv.aggregate
      rw [hcopy, aggregateState_singleton] at hstate
      have hcopyInv := hjobInv.copies copy (by rw [hcopy]; exact List.mem_singleton.mpr rfl)
      rw [hstate, Ne, hcopyInv.active, Bool.not_eq_true, Option.isSome_eq_false_iff, Option.isNone_iff_eq_none] at hactive
      exact hactive
    obtain ⟨state', events, hcompleted, hguard, _, _, rfl⟩ | ⟨state', hcompleted, hguard, _, rfl⟩ |
      ⟨hother, hsame, _⟩ := hcases
    . obtain ⟨copy, hcopy, htoken, hupdate⟩ := hstored state' hcompleted
      rw [hupdate] at hguard ⊢
      dsimp only at hguard
      have hresult : job.lastResult ≠ "Rerouted" := by simpa using hguard
      constructor
      . rintro ⟨copy', copy'', job', hcopy', hjob', hcopies, hrecommitted, _⟩
        rw [hcopy] at hcopy'
        injection hcopy' with hcopy' _
        subst hcopy'
        rw [Std.ExtTreeMap.getElem?_insert_self] at hjob'
        injection hjob' with hjob'
        rw [← hjob'] at hcopies
        injection hcopies with hcopies _
        subst hcopies
        exact ⟨copy, hcopy, (recommitted_rerouteCopy htoken).mp hrecommitted, .inl hresult⟩
      . rintro ⟨copy', hcopy', hkey, _⟩
        rw [hcopy] at hcopy'
        injection hcopy' with hcopy' _
        subst hcopy'
        have hrecommitted := (recommitted_rerouteCopy htoken).mpr hkey
        exact ⟨copy, rerouteCopy delivery copy, _, hcopy, Std.ExtTreeMap.getElem?_insert_self, rfl, hrecommitted,
          hrecommitted.waitsFor⟩
    . obtain ⟨copy, hcopy, htoken, hupdate⟩ := hstored state' hcompleted
      rw [hupdate] at hguard
      dsimp only at hguard
      have hresult : ¬job.lastResult ≠ "Rerouted" := fun hne => hguard (.inr hne)
      constructor
      . rintro ⟨copy', copy'', job', hcopy', hjob', hcopies, hrecommitted, _⟩
        rw [hjob] at hjob'
        injection hjob' with hjob'
        rw [← hjob', hcopy'] at hcopies
        injection hcopies with hcopies _
        subst hcopies
        exact ⟨copy', hcopy', hrecommitted.nextHopKey, .inr hrecommitted⟩
      . rintro ⟨copy', hcopy', _, hcondition⟩
        have hrecommitted := hcondition.resolve_left hresult
        exact ⟨copy', copy', job, hcopy', hjob, hcopy', hrecommitted, hrecommitted.waitsFor⟩
    . exact absurd hsame.symm (hother _)

/--
A message for a node of the nodelist is rerouted to another one.
-/
theorem reroute_replaces_uplink
    : RerouteReplaces (Sample.delivery "uplink")
        (makeJob (identifierOf 'J' (Sample.draw 7)) (Sample.netMail "k" (Sample.delivery "hub") none))
        (step Sample.crypto
          ((storeMachine Sample.crypto).run .empty [Sample.submit "k" (Sample.delivery "hub") none 7])
          (.reroute Sample.application (identifierOf 'J' (Sample.draw 7)) 2 (Sample.delivery "uplink"))).2 :=
  (reroute_replaces_iff Sample.crypto [Sample.submit "k" (Sample.delivery "hub") none 7] Sample.application
    (identifierOf 'J' (Sample.draw 7)) 2 (Sample.delivery "uplink") _ .queued (by decide) (by decide)).mpr
    ⟨_, rfl, rfl, .inl (by decide)⟩

/--
A neighbour that only its key tells from others.
-/
def Sample.anonymousDelivery : NewDelivery :=
  { Sample.delivery "fidonet#-1" with nextHopKey := some (Vector.replicate 32 1) }

/--
A message that is rerouted to an anonymous next hop gets its address, but not its key.
-/
theorem reroute_loses_key
    : ¬∀ (c : Crypto) (ops : List Op) (application : Application) (jobId : String) (now : UInt64)
        (delivery : NewDelivery) (job : OutboundJob) (state : JobState),
        ((storeMachine c).run .empty ops).jobs[jobId]? = some job →
        (step c ((storeMachine c).run .empty ops) (.reroute application jobId now delivery)).1 =
          .ok (.controlled (.completed state)) →
        RerouteReplaces delivery job
          (step c ((storeMachine c).run .empty ops) (.reroute application jobId now delivery)).2 := by
  intro h
  obtain ⟨copy, copy', job', _, hjob', hcopies, hrecommitted, _⟩ :=
    h Sample.crypto [Sample.submit "k" (Sample.delivery "hub") none 7] Sample.application
      (identifierOf 'J' (Sample.draw 7)) 2 Sample.anonymousDelivery
      (makeJob (identifierOf 'J' (Sample.draw 7)) (Sample.netMail "k" (Sample.delivery "hub") none)) .queued
      (by decide) (by decide)
  have hafter := congrArg (Option.map fun job => job.deliveries.map (·.nextHopKey)) hjob'
  rw [Option.map_some, hcopies, List.map_singleton, hrecommitted.nextHopKey] at hafter
  revert hafter
  decide

end Tith
