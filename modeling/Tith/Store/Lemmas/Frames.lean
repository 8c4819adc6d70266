import Tith.Store.Lemmas.InboundCases
import Tith.Store.Lemmas.OutboundCases
import Tith.Store.Machine

/-!
This module contains the frames of the operations. Every operation belongs to one side of the store,
and only the tables of that side are written.
-/

namespace Tith

inductive Side where
  | arrival
  | claims
  | batch
  | delivery
  deriving DecidableEq

def Op.side (op : Op) : Side :=
  match op with
  | .accept .. | .removeDuplicateIdentity .. => .arrival
  | .refreshExpirations .. | .claim .. | .resolve .. | .renew .. => .claims
  | .commitBatch .. => .batch
  | .cancel .. | .retry .. | .reroute .. | .claimScheduled .. | .claimPollSnapshot ..
  | .finishDelivery .. | .recoverActive .. | .acknowledgeEvent .. => .delivery

/--
Only the records, their payloads and the duplicate identities have been written.
-/
def ArrivalsOnly (s s' : Store) : Prop :=
  s' = { s with records := s'.records, payloads := s'.payloads, duplicates := s'.duplicates }

theorem step_arrivalsOnly (c : Crypto) (s : Store) {op : Op} (hop : op.side = .arrival)
    : ArrivalsOnly s (step c s op).2 := by
  cases op with
  | accept value duplicateIdentity rng =>
    simp only [step]
    split
    . rfl
    . next h =>
      obtain ⟨_, _, _, _, ⟨_, _, _, _, rfl⟩ | ⟨_, _, _, _, rfl⟩⟩ := accept_cases h
      . rfl
      . rfl
  | removeDuplicateIdentity identity => rfl
  | _ => simp [Op.side] at hop

/--
Only the records and their claims have been written.
-/
def ClaimsOnly (s s' : Store) : Prop :=
  s' =
    { s with
      records := s'.records
      claimKeys := s'.claimKeys
      resolvedTokens := s'.resolvedTokens }

theorem ClaimsOnly.refl (s : Store) : ClaimsOnly s s := rfl

theorem ClaimsOnly.trans {s t u : Store} (h : ClaimsOnly s t) (h' : ClaimsOnly t u)
    : ClaimsOnly s u := by
  unfold ClaimsOnly at h h' ⊢
  rw [h] at h'
  exact h'

theorem refreshExpirations_claimsOnly {now : UInt64} {s s' : Store}
    (h : refreshExpirations now s = .ok s')
    : ClaimsOnly s s' := by
  apply Except.foldlM_invariant (P := ClaimsOnly s) _ (.refl s) h
  intro record _ t t' ht hexpire
  obtain ⟨_, _, _, _, _, _, rfl⟩ := expireClaim_cases hexpire
  exact ht.trans rfl

theorem claim_claimsOnly {application : Application} {claimKey : String} {now duration : UInt64}
    {rng : Rng} {s s' : Store} {result : Except StoreError ClaimResult}
    (h : claim application claimKey now duration rng s = (result, s'))
    : ClaimsOnly s s' := by
  obtain rfl | ⟨t, hrefresh, rfl | ⟨r, hnext, _⟩⟩ := claim_cases h
  . exact .refl s'
  . exact refreshExpirations_claimsOnly hrefresh
  . apply (refreshExpirations_claimsOnly hrefresh).trans
    obtain ⟨_, _, _, rfl⟩ | ⟨_, _, _, rfl⟩ | ⟨_, _, _, _, _, _, _, _, _, rfl⟩ :=
      claimNext_cases hnext
    . rfl
    . rfl
    . rfl

theorem resolve_claimsOnly {application : Application} {inboundId token : String} {now : UInt64}
    {resolution : Resolution} {s s' : Store} {state : InboundState}
    (h : resolve application inboundId token now resolution s = .ok (state, s'))
    : ClaimsOnly s s' := by
  obtain ⟨_, _, _, _, _, _, _, _, rfl⟩ | ⟨_, _, _, _, _, _, _, rfl⟩ | ⟨_, _, _, _, _, _, _, _, rfl⟩ :=
    resolve_cases h
  . rfl
  . rfl
  . rfl

theorem renew_claimsOnly {application : Application} {inboundId token : String}
    {now duration expires : UInt64} {s s' : Store}
    (h : renew application inboundId token now duration s = .ok (expires, s'))
    : ClaimsOnly s s' := by
  obtain ⟨_, _, _, _, _, rfl⟩ := renew_cases h
  rfl

theorem step_claimsOnly (c : Crypto) (s : Store) {op : Op} (hop : op.side = .claims)
    : ClaimsOnly s (step c s op).2 := by
  cases op with
  | refreshExpirations now =>
    simp only [step]
    split
    . rfl
    . next h => exact refreshExpirations_claimsOnly h
  | claim application claimKey now duration rng =>
    simp only [step]
    split
    . next h => exact claim_claimsOnly h
    . next h => exact claim_claimsOnly h
  | resolve => exact transact_rel (.refl s) (fun _ _ h => resolve_claimsOnly h)
  | renew => exact transact_rel (.refl s) (fun _ _ h => renew_claimsOnly h)
  | _ => simp [Op.side] at hop

/--
A batch has written to the outbound tables and linked records to its jobs.
-/
def BatchOnly (s s' : Store) : Prop :=
  s' =
    { s with
      records := s'.records
      jobs := s'.jobs
      items := s'.items
      submissions := s'.submissions
      events := s'.events }

theorem BatchOnly.trans {s t u : Store} (h : BatchOnly s t) (h' : BatchOnly t u)
    : BatchOnly s u := by
  unfold BatchOnly at h h' ⊢
  rw [h] at h'
  exact h'

theorem commitJobs_batchOnly {batch : List (SubmissionIdentity × SubmissionClass)}
    {newJobs : List NewOutboundJob} {s s' : Store} {outcomes : List CommitOutcome}
    (h : commitJobs batch newJobs s = .ok (outcomes, s'))
    : BatchOnly s s' := by
  induction batch generalizing newJobs s outcomes with
  | nil =>
    simp only [commitJobs, Except.ok.injEq, Prod.mk.injEq] at h
    rw [h.2]
    rfl
  | cons entry batch ih =>
    obtain ⟨identity, cls⟩ := entry
    cases cls with
    | new jobId =>
      cases newJobs with
      | nil => cases h
      | cons value newJobs =>
        simp only [commitJobs, Except.bind_ok_iff, Except.ok.injEq, Prod.mk.injEq,
          Prod.exists] at h
        obtain ⟨state, s₁, hfirst, outcomes₁, s₂, hrest, _, rfl⟩ := h
        have hcommit : BatchOnly s s₁ := by
          obtain ⟨_, _, _, _, _, _, _, rfl⟩ := commitJob_cases hfirst
          rfl
        exact hcommit.trans (ih hrest)
    | existing jobId state =>
      simp only [commitJobs, Except.bind_ok_iff, Except.ok.injEq, Prod.mk.injEq, Prod.exists] at h
      obtain ⟨outcomes₁, s₂, hrest, _, rfl⟩ := h
      exact ih hrest
    | conflict => cases h

theorem step_batchOnly (c : Crypto) (s : Store) {op : Op} (hop : op.side = .batch)
    : BatchOnly s (step c s op).2 := by
  cases op with
  | commitBatch identities build rng =>
    apply transact_rel
    . rfl
    . intro result s' h
      obtain ⟨_, _, _, ⟨_, _, rfl⟩ | ⟨_, _, _, _, _, _, _, hcommit, _⟩⟩ := commitBatch_cases h
      . rfl
      . exact commitJobs_batchOnly hcommit
  | _ => simp [Op.side] at hop

/--
Only the jobs and their events have been written.
-/
def LedgerOnly (s s' : Store) : Prop := s' = { s with jobs := s'.jobs, events := s'.events }

theorem LedgerOnly.refl (s : Store) : LedgerOnly s s := rfl

theorem LedgerOnly.trans {s t u : Store} (h : LedgerOnly s t) (h' : LedgerOnly t u)
    : LedgerOnly s u := by
  unfold LedgerOnly at h h' ⊢
  rw [h] at h'
  exact h'

theorem control_ledgerOnly {application : Application} {jobId : String} {now : UInt64} {result : String}
    {update : OutboundJob → OutboundJob × ControlOutcome} {s s' : Store} {outcome : ControlOutcome}
    (h : control application jobId now result update s = .ok (outcome, s'))
    : LedgerOnly s s' := by
  obtain ⟨_, _, _, ⟨_, _, _, _, _, _, rfl⟩ | ⟨_, _, _, _, rfl⟩ | ⟨_, _, rfl⟩⟩ := control_cases h
  . rfl
  . rfl
  . rfl

theorem claimSelected_ledgerOnly {selected : Selected} {now : UInt64} {rng rng' : Rng} {s s' : Store}
    {claim : DeliveryClaim} (h : claimSelected selected now rng s = .ok (claim, rng', s'))
    : LedgerOnly s s' := by
  obtain ⟨_, _, _, _, _, _, _, _, _, rfl⟩ := claimSelected_cases h
  rfl

theorem claimMatching_ledgerOnly {now : UInt64} {matchesSelector : DeliveryRecord → Bool} {rng : Rng}
    {s s' : Store} {claim : Option DeliveryClaim}
    (h : claimMatching now matchesSelector rng s = .ok (claim, s'))
    : LedgerOnly s s' := by
  obtain ⟨_, rfl⟩ | ⟨_, _, _, _, _, _, _, _, hclaim, _⟩ := claimMatching_cases h
  . rfl
  . exact claimSelected_ledgerOnly hclaim

theorem claimAll_ledgerOnly {selected : List Selected} {now : UInt64} {rng : Rng} {s s' : Store}
    {claims : List DeliveryClaim} (h : claimAll selected now rng s = .ok (claims, s'))
    : LedgerOnly s s' := by
  induction selected generalizing rng s claims with
  | nil =>
    simp only [claimAll, Except.ok.injEq, Prod.mk.injEq] at h
    rw [h.2]
    exact .refl s'
  | cons first rest ih =>
    simp only [claimAll, Except.bind_ok_iff, Except.ok.injEq, Prod.mk.injEq, Prod.exists] at h
    obtain ⟨_, _, s₁, hfirst, _, _, hrest, _, rfl⟩ := h
    exact (claimSelected_ledgerOnly hfirst).trans (ih hrest)

theorem finishDelivery_ledgerOnly {jobId : String} {index : UInt64} {token : String} {now : UInt64}
    {outcome : DeliveryOutcome} {s s' : Store} {state : JobState}
    (h : finishDelivery jobId index token now outcome s = .ok (state, s'))
    : LedgerOnly s s' := by
  obtain ⟨_, _, _, _, _, _, _, _, _, _, _, rfl⟩ := finishDelivery_cases h
  rfl

theorem recoverActive_ledgerOnly {now retryAt : UInt64} {result : String} {s s' : Store} {count : UInt64}
    (h : recoverActive now retryAt result s = .ok (count, s'))
    : LedgerOnly s s' := by
  obtain ⟨_, _, rfl⟩ := recoverActive_cases h
  rfl

theorem acknowledgeEvent_ledgerOnly {application : Application} {eventId : String} {s s' : Store}
    (h : acknowledgeEvent application eventId s = .ok s')
    : LedgerOnly s s' := by
  obtain ⟨_, _, _, rfl⟩ := acknowledgeEvent_cases h
  rfl

theorem step_ledgerOnly (c : Crypto) (s : Store) {op : Op} (hop : op.side = .delivery)
    : LedgerOnly s (step c s op).2 := by
  cases op with
  | cancel => exact transact_rel (.refl s) (fun _ _ h => control_ledgerOnly h)
  | retry => exact transact_rel (.refl s) (fun _ _ h => control_ledgerOnly h)
  | reroute => exact transact_rel (.refl s) (fun _ _ h => control_ledgerOnly h)
  | claimScheduled => exact transact_rel (.refl s) (fun _ _ h => claimMatching_ledgerOnly h)
  | claimPollSnapshot => exact transact_rel (.refl s) (fun _ _ h => claimAll_ledgerOnly h)
  | finishDelivery => exact transact_rel (.refl s) (fun _ _ h => finishDelivery_ledgerOnly h)
  | recoverActive => exact transact_rel (.refl s) (fun _ _ h => recoverActive_ledgerOnly h)
  | acknowledgeEvent application eventId =>
    simp only [step]
    split
    . rfl
    . next h => exact acknowledgeEvent_ledgerOnly h
  | _ => simp [Op.side] at hop

end Tith
