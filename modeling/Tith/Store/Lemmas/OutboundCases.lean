import Tith.Store.Lemmas.Events
import Tith.Store.Inbound
import Tith.Store.Lemmas.Jobs

/-!
This module contains for every outbound operation what a successful call has found and what it has
written. All invariants of the outbound tables are derived from these lemmas.
-/

namespace Tith

theorem control_cases {application : Application} {jobId : String} {now : UInt64} {result : String}
    {update : OutboundJob → OutboundJob × ControlOutcome} {s s' : Store} {outcome : ControlOutcome}
    (h : control application jobId now result update s = .ok (outcome, s'))
    : ∃ job, s.jobs[jobId]? = some job ∧ job.application = application ∧
        ((∃ state events, (update job).2 = .completed state ∧
            ((update job).1.state ≠ job.state ∨ (update job).1.lastResult ≠ result) ∧
            appendEvent s.events (controlled (update job).1 now result) (some job.state) =
              .ok events ∧
            outcome = .completed (controlled (update job).1 now result).state ∧
            s' = { s with
              jobs := s.jobs.insert jobId (controlled (update job).1 now result)
              events }) ∨
          (∃ state, (update job).2 = .completed state ∧
            ¬((update job).1.state ≠ job.state ∨ (update job).1.lastResult ≠ result) ∧
            outcome = .completed (update job).1.state ∧ s' = s) ∨
          ((∀ state, (update job).2 ≠ .completed state) ∧ outcome = (update job).2 ∧ s' = s)) := by
  simp only [control, Except.bind_ok_iff, Option.okOr_eq_ok] at h
  obtain ⟨job, hjob, h⟩ := h
  split at h
  . cases h
  . next happ =>
    refine ⟨job, hjob, by simpa using happ, ?_⟩
    generalize hupdate : update job = res at h
    split at h
    . next updated state =>
      split at h
      . next hguard =>
        simp only [Except.bind_ok_iff, Except.ok.injEq, Prod.mk.injEq] at h
        obtain ⟨events, hevents, houtcome, hs⟩ := h
        exact .inl ⟨state, events, rfl, hguard, hevents, houtcome.symm, hs.symm⟩
      . next hguard =>
        simp only [Except.ok.injEq, Prod.mk.injEq] at h
        exact .inr (.inl ⟨state, rfl, hguard, h.1.symm, h.2.symm⟩)
    . next updated outcome' hother =>
      simp only [Except.ok.injEq, Prod.mk.injEq] at h
      refine .inr (.inr ⟨?_, h.1.symm, h.2.symm⟩)
      intro state heq
      exact hother state heq

theorem claimSelected_cases {selected : Selected} {now : UInt64} {rng rng' : Rng} {s s' : Store}
    {claim : DeliveryClaim} (h : claimSelected selected now rng s = .ok (claim, rng', s'))
    : ∃ token attempts item events, randomIdentifier 'W' rng = .ok (token, rng') ∧
        checkedAdd selected.copy.attempts 1 = some attempts ∧
        s.items[selected.job.jobId]? = some item ∧
        appendEvent s.events
          (claimJob selected.job selected.index (claimCopy selected.copy token attempts) now)
          (some selected.job.state) = .ok events ∧
        claim = ⟨selected.job.jobId, selected.copy.index, token, item,
          claimCopy selected.copy token attempts⟩ ∧
        s' = { s with
          jobs :=
            s.jobs.insert selected.job.jobId
              (claimJob selected.job selected.index (claimCopy selected.copy token attempts) now)
          events } := by
  simp only [claimSelected, Except.bind_ok_iff, Option.okOr_eq_ok, Except.ok.injEq, Prod.mk.injEq,
    Prod.exists] at h
  obtain ⟨token, rng₁, htoken, attempts, hattempts, item, hitem, events, hevents, hclaim, rfl, hs⟩ := h
  exact ⟨token, attempts, item, events, htoken, hattempts, hitem, hevents, hclaim.symm, hs.symm⟩

theorem mem_selectJob {p : OutboundJob → DeliveryRecord → Bool} {job : OutboundJob}
    {selected : Selected}
    : selected ∈ selectJob p job ↔
        selected.job = job ∧ job.deliveries[selected.index]? = some selected.copy ∧
          p job selected.copy = true := by
  obtain ⟨job', index, copy⟩ := selected
  simp only [selectJob, List.mem_map, List.mem_filter, Prod.exists, List.mem_zipIdx_iff_getElem?,
    Selected.mk.injEq]
  constructor
  . rintro ⟨copy', index', ⟨hget, hp⟩, rfl, rfl, rfl⟩
    exact ⟨rfl, hget, hp⟩
  . rintro ⟨rfl, hget, hp⟩
    exact ⟨copy, index, ⟨hget, hp⟩, rfl, rfl, rfl⟩

theorem mem_selectCopies {s : Store} {p : OutboundJob → DeliveryRecord → Bool} {selected : Selected}
    : selected ∈ selectCopies s p ↔
        ∃ key : String, s.jobs[key]? = some selected.job ∧
          selected.job.deliveries[selected.index]? = some selected.copy ∧
          p selected.job selected.copy = true := by
  simp only [selectCopies, List.mem_flatMap, List.mem_map, Prod.exists, exists_eq_right,
    Table.mem_toList]
  constructor
  . rintro ⟨job, ⟨key, hkey⟩, hmem⟩
    obtain ⟨rfl, hget, hp⟩ := mem_selectJob.mp hmem
    exact ⟨key, hkey, hget, hp⟩
  . rintro ⟨key, hkey, hget, hp⟩
    exact ⟨selected.job, ⟨key, hkey⟩, mem_selectJob.mpr ⟨rfl, hget, hp⟩⟩

theorem claimMatching_cases {now : UInt64} {matchesSelector : DeliveryRecord → Bool} {rng : Rng}
    {s s' : Store} {claim : Option DeliveryClaim}
    (h : claimMatching now matchesSelector rng s = .ok (claim, s'))
    : (claim = none ∧ s' = s) ∨
        ∃ selected claim' rng', ∃ key : String, s.jobs[key]? = some selected.job ∧
          selected.job.deliveries[selected.index]? = some selected.copy ∧
          selected.copy.isWaiting = true ∧ selected.copy.retryAt.all (· ≤ now) = true ∧
          claimSelected selected now rng s = .ok (claim', rng', s') ∧ claim = some claim' := by
  unfold claimMatching at h
  dsimp only at h
  split at h
  . simp only [Except.ok.injEq, Prod.mk.injEq] at h
    exact .inl ⟨h.1.symm, h.2.symm⟩
  . next selected hselected =>
    simp only [Except.bind_ok_iff, Except.ok.injEq, Prod.mk.injEq, Prod.exists] at h
    obtain ⟨claim', rng', s₁, hclaim, rfl, rfl⟩ := h
    have hkeep := List.foldl_keep (P := fun _ => True) (by
      intro kept candidate
      split
      . exact .inr ⟨rfl, trivial⟩
      . exact .inl rfl) hselected
    rcases hkeep with hnone | ⟨hmem, _⟩
    . cases hnone
    . obtain ⟨key, hkey, hget, hp⟩ := mem_selectCopies.mp hmem
      simp only [Bool.and_eq_true] at hp
      exact .inr ⟨selected, claim', rng', key, hkey, hget, hp.1.2, hp.2, hclaim, rfl⟩

theorem finishDelivery_cases {jobId : String} {index : UInt64} {token : String} {now : UInt64}
    {outcome : DeliveryOutcome} {s s' : Store} {state : JobState}
    (h : finishDelivery jobId index token now outcome s = .ok (state, s'))
    : ∃ job position copy events, s.jobs[jobId]? = some job ∧
        job.deliveries.findIdx? (·.index = index) = some position ∧
        job.deliveries[position]? = some copy ∧ copy.state = .active ∧
        copy.workerToken = some token ∧
        appendEvent s.events (finishJob job position copy now outcome) (some job.state) =
          .ok events ∧
        state = (finishJob job position copy now outcome).state ∧
        s' = { s with
          jobs := s.jobs.insert jobId (finishJob job position copy now outcome)
          events } := by
  simp only [finishDelivery, Except.bind_ok_iff, Option.okOr_eq_ok] at h
  obtain ⟨job, hjob, position, hposition, copy, hcopy, h⟩ := h
  split at h
  . cases h
  . next hlive =>
    simp only [ne_eq, not_or, not_not] at hlive
    simp only [Except.bind_ok_iff, Except.ok.injEq, Prod.mk.injEq] at h
    obtain ⟨events, hevents, hstate, hs⟩ := h
    exact ⟨job, position, copy, events, hjob, hposition, hcopy, hlive.1, hlive.2, hevents,
      hstate.symm, hs.symm⟩

theorem claimedInbound_cases {s : Store} {application : Application} {inboundId claimToken : String}
    {now : UInt64} {forward : ForwardInbound}
    (h : claimedInbound s application inboundId claimToken now = .ok forward)
    : s.records[inboundId]? = some forward.record ∧ forward.record.application = application ∧
        forward.record.isHeld claimToken now = true ∧ forward.record.forwardJob = none ∧
        s.payloads[inboundId]? = some forward.payload := by
  simp only [claimedInbound, Except.bind_ok_iff, Option.okOr_eq_ok] at h
  obtain ⟨record, hrecord, h⟩ := h
  split at h
  . cases h
  . next hheld =>
    split at h
    . cases h
    . next hforward =>
      simp only [Except.bind_ok_iff, Option.okOr_eq_ok, Except.ok.injEq] at h
      obtain ⟨payload, hpayload, rfl⟩ := h
      simp only [ne_eq, not_or, not_not] at hheld
      obtain ⟨happ, hstate, htoken, hexpires⟩ := hheld
      refine ⟨hrecord, happ, ?_, by simpa using hforward, hpayload⟩
      simp [InboundRecord.isHeld, hstate, htoken, hexpires]

theorem linkForward_cases {identity : SubmissionIdentity} {jobId : String} {value : NewOutboundJob}
    {s s' : Store} (h : linkForward identity jobId value s = .ok s')
    : (value.forwardInbound = none ∧ s' = s) ∨
        ∃ inboundId token record, value.forwardInbound = some inboundId ∧
          value.forwardClaimToken = some token ∧ s.records[inboundId]? = some record ∧
          record.application = identity.application ∧ record.isHeld token value.created = true ∧
          record.forwardJob = none ∧
          s' = { s with
            records := s.records.insert inboundId { record with forwardJob := some jobId } } := by
  unfold linkForward at h
  split at h
  . next hnone =>
    injection h with heq
    exact .inl ⟨hnone, heq.symm⟩
  . next inboundId hsome =>
    simp only [Except.bind_ok_iff, Option.okOr_eq_ok, Except.ok.injEq] at h
    obtain ⟨token, htoken, forward, hforward, hs⟩ := h
    obtain ⟨hrecord, happ, hheld, hnone, _⟩ := claimedInbound_cases hforward
    exact .inr ⟨inboundId, token, forward.record, hsome, htoken, hrecord, happ, hheld, hnone,
      hs.symm⟩

theorem commitJob_cases {identity : SubmissionIdentity} {jobId : String} {value : NewOutboundJob}
    {s s' : Store} {state : JobState} (h : commitJob identity jobId value s = .ok (state, s'))
    : ∃ t events, value.identity = identity ∧ validateNewJob value = .ok () ∧
        linkForward identity jobId value s = .ok t ∧
        appendEvent s.events (makeJob jobId value) none = .ok events ∧
        state = (makeJob jobId value).state ∧
        s' = { s with
          records := t.records
          jobs := s.jobs.insert jobId (makeJob jobId value)
          items := s.items.insert jobId value.item
          submissions :=
            s.submissions.insert (submissionKey identity.application identity.idempotencyKey)
              ⟨jobId, identity.digest⟩
          events } := by
  unfold commitJob at h
  split at h
  . cases h
  . next hidentity =>
    simp only [Except.bind_ok_iff, Except.ok.injEq, Prod.mk.injEq] at h
    obtain ⟨_, hvalid, t, hlink, events, hevents, hstate, hs⟩ := h
    have ht : t = { s with records := t.records } := by
      rcases linkForward_cases hlink with ⟨_, rfl⟩ | ⟨_, _, _, _, _, _, _, _, _, rfl⟩
      . rfl
      . rfl
    rw [ht] at hevents hs
    exact ⟨t, events, by simpa using hidentity, hvalid, hlink, hevents, hstate.symm, hs.symm⟩

theorem commitBatch_cases {identities : List SubmissionIdentity} {build : BatchBuilder} {rng : Rng}
    {s s' : Store} {result : BatchCommit}
    (h : commitBatch identities build rng s = .ok (result, s'))
    : identitiesValid identities ∧ ∃ classes, identities.mapM (classify s) = .ok classes ∧
        ((conflictPositions classes ≠ [] ∧ result = .conflict (conflictPositions classes) ∧
            s' = s) ∨
          ∃ assigned newJobs outcomes, conflictPositions classes = [] ∧
            assignIds s classes [] rng = .ok assigned ∧
            build assigned (claimedInbound s) = .ok newJobs ∧
            newJobs.length = assigned.countP SubmissionClass.isNew ∧
            commitJobs (identities.zip assigned) newJobs s = .ok (outcomes, s') ∧
            result = .committed outcomes) := by
  unfold commitBatch at h
  split at h
  . cases h
  . next hvalid =>
    simp only [Except.bind_ok_iff] at h
    obtain ⟨classes, hclasses, h⟩ := h
    refine ⟨by simpa using hvalid, classes, hclasses, ?_⟩
    split at h
    . next hconflict =>
      simp only [Except.ok.injEq, Prod.mk.injEq] at h
      exact .inl ⟨hconflict, h.1.symm, h.2.symm⟩
    . next hconflict =>
      simp only [Except.bind_ok_iff] at h
      obtain ⟨assigned, hassigned, newJobs, hbuild, h⟩ := h
      split at h
      . cases h
      . next hlength =>
        simp only [Except.bind_ok_iff, Except.ok.injEq, Prod.mk.injEq, Prod.exists] at h
        obtain ⟨outcomes, t, hcommit, hresult, rfl⟩ := h
        exact .inr ⟨assigned, newJobs, outcomes, by simpa using hconflict, hassigned, hbuild,
          by simpa using hlength, hcommit, hresult.symm⟩

theorem recoverActive_cases {now retryAt : UInt64} {result : String} {s s' : Store} {count : UInt64}
    (h : recoverActive now retryAt result s = .ok (count, s'))
    : ∃ events,
        (activeJobs s).foldlM
          (fun events job => appendEvent events (recoverJob now retryAt result job) (some job.state))
          s.events = .ok events ∧
        s' = { s with
          jobs :=
            (activeJobs s).foldl
              (fun jobs job => jobs.insert job.jobId (recoverJob now retryAt result job)) s.jobs
          events } := by
  simp only [recoverActive, List.foldlM_map, List.foldl_map, Except.bind_ok_iff, Except.ok.injEq,
    Prod.mk.injEq] at h
  obtain ⟨events, hevents, _, hs⟩ := h
  exact ⟨events, hevents, hs.symm⟩

theorem acknowledgeEvent_cases {application : Application} {eventId : String} {s s' : Store}
    (h : acknowledgeEvent application eventId s = .ok s')
    : ∃ entry, s.events[eventId]? = some entry ∧ entry.application = application ∧
        s' = { s with events := s.events.insert eventId { entry with acknowledged := true } } := by
  simp only [acknowledgeEvent, Except.bind_ok_iff, Option.okOr_eq_ok] at h
  obtain ⟨entry, hentry, h⟩ := h
  split at h
  . cases h
  . next happ =>
    injection h with heq
    exact ⟨entry, hentry, by simpa using happ, heq.symm⟩

end Tith
