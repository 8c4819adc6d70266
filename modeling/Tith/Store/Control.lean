import Tith.Store.Lemmas.Writes

/-!
This module contains what the control operations make durable.
-/

namespace Tith

inductive Control where
  | cancel
  | retry
  | reroute (delivery : NewDelivery)

namespace Control

def op (k : Control) (application : Application) (jobId : String) (now : UInt64) : Op :=
  match k with
  | .cancel => .cancel application jobId now
  | .retry => .retry application jobId now
  | .reroute delivery => .reroute application jobId now delivery

def update (k : Control) : OutboundJob → OutboundJob × ControlOutcome :=
  match k with
  | .cancel => cancelUpdate
  | .retry => retryUpdate
  | .reroute delivery => rerouteUpdate delivery

def result (k : Control) : String :=
  match k with
  | .cancel => "Cancelled"
  | .retry => "Retry requested"
  | .reroute _ => "Rerouted"

theorem updates (k : Control) : Updates k.update := by
  cases k with
  | cancel => exact cancelUpdate_updates
  | retry => exact retryUpdate_updates
  | reroute delivery => exact rerouteUpdate_updates delivery

theorem step_op (c : Crypto) (s : Store) (k : Control) (application : Application) (jobId : String)
    (now : UInt64)
    : step c s (k.op application jobId now) =
        transact s (control application jobId now k.result k.update s) .controlled := by
  cases k with
  | _ => rfl

end Control

/--
The updated copies of a job are committed with their aggregate state, and together with exactly one
event that records the transition.
-/
structure Durable (s s' : Store) (job : OutboundJob) (copies : List DeliveryRecord) : Prop where
  stored : ∃ job', s'.jobs[job.jobId]? = some job' ∧ job'.deliveries = copies ∧
    job'.state = aggregateState copies
  recorded : ∃ entry : EventEntry, s.events[entry.event.eventId]? = none ∧
    s'.events = s.events.insert entry.event.eventId entry ∧ entry.event.jobId = job.jobId ∧
    entry.event.previous = some job.state ∧ entry.event.current = aggregateState copies

/--
A completed operation that changes the copies is durable unless the job already carries the result
text of the operation.
-/
theorem control_durable_iff (c : Crypto) (ops : List Op) (k : Control) (application : Application)
    (jobId : String) (now : UInt64) (job : OutboundJob) (state : JobState)
    (hjob : ((storeMachine c).run .empty ops).jobs[jobId]? = some job)
    (hok : (step c ((storeMachine c).run .empty ops) (k.op application jobId now)).1 =
      .ok (.controlled (.completed state)))
    (hdiffer : (k.update job).1.deliveries ≠ job.deliveries)
    : Durable ((storeMachine c).run .empty ops)
          (step c ((storeMachine c).run .empty ops) (k.op application jobId now)).2 job
          (k.update job).1.deliveries ↔
        job.lastResult ≠ k.result := by
  have hinv := run_ledgerInv c ops
  generalize (storeMachine c).run .empty ops = s at *
  obtain ⟨rfl, hfree, _⟩ := hinv.jobs jobId job hjob
  have hrest := k.updates.rest job
  rw [Control.step_op] at hok ⊢
  rcases transact_cases s (control application job.jobId now k.result k.update s)
    Answer.controlled with ⟨e, _, heq⟩ | ⟨outcome, s', hcontrol, heq⟩
  . rw [heq] at hok
    cases hok
  . rw [heq] at hok ⊢
    injection hok with hok
    injection hok with hok
    subst hok
    obtain ⟨job', hjob', _, hcases⟩ := control_cases hcontrol
    rw [hjob] at hjob'
    injection hjob' with hsame
    subst hsame
    have hstate : (k.update job).1.state = job.state := by rw [hrest]
    have hlast : (k.update job).1.lastResult = job.lastResult := by rw [hrest]
    have hid : (k.update job).1.jobId = job.jobId := by rw [hrest]
    rw [hstate, hlast] at hcases
    obtain ⟨_, events, _, hguard, hevents, _, rfl⟩ | ⟨_, _, hguard, _, rfl⟩ | ⟨hother, hsame, _⟩ :=
      hcases
    . have hresult : job.lastResult ≠ k.result := by simpa using hguard
      refine iff_of_true ⟨?_, ?_⟩ hresult
      . refine ⟨controlled (k.update job).1 now k.result, ?_, rfl, rfl⟩
        exact Std.ExtTreeMap.getElem?_insert_self
      . obtain ⟨log, hlog, _⟩ := hinv.logs _ job hjob
        rw [← hid] at hlog hfree
        obtain ⟨hlt, rfl⟩ :=
          appendEvent_ok (controlled (k.update job).1 now k.result) hlog hinv.events hfree
            hevents
        have hfresh := hlog.fresh hinv.events hfree hlt
        exact ⟨⟨(k.update job).1.application, false,
          nextEvent (controlled (k.update job).1 now k.result) (some job.state) log⟩,
          hfresh, rfl, hid, rfl, rfl⟩
    . -- Nothing is written, so the store keeps the copies from before.
      have hresult : ¬job.lastResult ≠ k.result := by
        intro hne
        exact hguard (.inr hne)
      refine iff_of_false ?_ hresult
      intro hdurable
      obtain ⟨job', hjob', hcopies, _⟩ := hdurable.stored
      rw [hjob] at hjob'
      injection hjob' with hsame
      exact hdiffer (hcopies.symm.trans (by rw [hsame]))
    . exact absurd hsame.symm (hother state)

def Sample.rerouted : List Op :=
  [submit "k" (delivery "hub") none 7,
   .reroute application (identifierOf 'J' (draw 7)) 2 (delivery "uplink")]

/--
The second of two reroutes completes but leaves the job with the next hop of the first one.
-/
theorem second_reroute_not_durable
    : ¬∀ (c : Crypto) (ops : List Op) (k : Control) (application : Application) (jobId : String)
        (now : UInt64) (job : OutboundJob) (state : JobState),
        ((storeMachine c).run .empty ops).jobs[jobId]? = some job →
        (step c ((storeMachine c).run .empty ops) (k.op application jobId now)).1 =
          .ok (.controlled (.completed state)) →
        (k.update job).1.deliveries ≠ job.deliveries →
        Durable ((storeMachine c).run .empty ops)
          (step c ((storeMachine c).run .empty ops) (k.op application jobId now)).2 job
          (k.update job).1.deliveries := by
  intro h
  have hread :
      ((storeMachine Sample.crypto).run .empty Sample.rerouted).jobs[
          identifierOf 'J' (Sample.draw 7)]?.map (fun job =>
            (job.jobId, ((Control.reroute (Sample.delivery "backup")).update job).1.deliveries.map
              (·.nextHop), job.deliveries.map (·.nextHop))) =
        some (identifierOf 'J' (Sample.draw 7), ["backup"], ["uplink"]) := by
    decide
  obtain ⟨job, hjob, hvalues⟩ := Option.map_eq_some_iff.mp hread
  simp only [Prod.mk.injEq] at hvalues
  obtain ⟨hid, hnew, hold⟩ := hvalues
  have hdurable := h Sample.crypto Sample.rerouted (.reroute (Sample.delivery "backup"))
    Sample.application (identifierOf 'J' (Sample.draw 7)) 3 job .queued hjob (by decide) (by
      intro heq
      rw [heq, hold] at hnew
      revert hnew
      decide)
  obtain ⟨job', hjob', hcopies, _⟩ := hdurable.stored
  rw [hid] at hjob'
  have hafter := congrArg (Option.map (fun job => job.deliveries.map (·.nextHop))) hjob'
  rw [Option.map_some, hcopies, hnew] at hafter
  revert hafter
  decide

/--
The first reroute is durable.
-/
theorem first_reroute_durable
    : Durable
        ((storeMachine Sample.crypto).run .empty [Sample.submit "k" (Sample.delivery "hub") none 7])
        (step Sample.crypto
          ((storeMachine Sample.crypto).run .empty [Sample.submit "k" (Sample.delivery "hub") none 7])
          ((Control.reroute (Sample.delivery "uplink")).op Sample.application
            (identifierOf 'J' (Sample.draw 7)) 2)).2
        (makeJob (identifierOf 'J' (Sample.draw 7))
          (Sample.netMail "k" (Sample.delivery "hub") none))
        ((Control.reroute (Sample.delivery "uplink")).update
          (makeJob (identifierOf 'J' (Sample.draw 7))
            (Sample.netMail "k" (Sample.delivery "hub") none))).1.deliveries :=
  (control_durable_iff Sample.crypto [Sample.submit "k" (Sample.delivery "hub") none 7]
    (.reroute (Sample.delivery "uplink")) Sample.application (identifierOf 'J' (Sample.draw 7)) 2
    _ .queued (by decide) (by decide) (by decide)).mpr (by decide)

end Tith
