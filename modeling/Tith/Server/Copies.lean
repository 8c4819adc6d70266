import Tith.Server.Exchange
import Tith.Store.Lemmas.Frames
import Tith.Store.PollSnapshot

/-!
This module contains what the calls of a connection do to single copies, and which copies they leave
alone.
-/

namespace Tith

def CopyAt (s : Store) (key : String × UInt64) (copy : DeliveryRecord) : Prop :=
  ∃ job, ∃ position : Nat, s.jobs[key.1]? = some job ∧ job.deliveries[position]? = some copy ∧
    copy.index = key.2

/--
The worker of the claim has the copy.
-/
def Held (s : Store) (claim : DeliveryClaim) : Prop :=
  ∃ copy, CopyAt s claim.key copy ∧ copy.state = .active ∧ copy.workerToken = some claim.workerToken

def Settled (s : Store) (key : String × UInt64) : Prop :=
  ∃ copy, CopyAt s key copy ∧ copy.state ≠ .active

def CopiesKept (changed : List (String × UInt64)) (s s' : Store) : Prop :=
  ∀ key copy, CopyAt s key copy → key ∉ changed → CopyAt s' key copy

theorem CopiesKept.held {changed : List (String × UInt64)} {s s' : Store} (h : CopiesKept changed s s')
    {claim : DeliveryClaim} (hheld : Held s claim) (hkey : claim.key ∉ changed)
    : Held s' claim := by
  obtain ⟨copy, hcopy, hactive, htoken⟩ := hheld
  exact ⟨copy, h _ _ hcopy hkey, hactive, htoken⟩

theorem CopiesKept.settled {changed : List (String × UInt64)} {s s' : Store}
    (h : CopiesKept changed s s') {key : String × UInt64} (hsettled : Settled s key)
    (hkey : key ∉ changed)
    : Settled s' key := by
  obtain ⟨copy, hcopy, hstate⟩ := hsettled
  exact ⟨copy, h _ _ hcopy hkey, hstate⟩

theorem copiesKept_of_jobs {s s' : Store}
    (h : ∀ (key : String) job, s.jobs[key]? = some job → s'.jobs[key]? = some job)
    : CopiesKept [] s s' := by
  intro key copy ⟨job, position, hjob, hcopy, hindex⟩ _
  exact ⟨job, position, h _ _ hjob, hcopy, hindex⟩

section Unique

variable {s : Store} (hinv : LedgerInv False s.ledger)

include hinv

theorem CopyAt.unique {key : String × UInt64} {copy copy' : DeliveryRecord} (h : CopyAt s key copy)
    (h' : CopyAt s key copy')
    : copy = copy' := by
  obtain ⟨job, position, hjob, hcopy, hindex⟩ := h
  obtain ⟨job', position', hjob', hcopy', hindex'⟩ := h'
  rw [hjob] at hjob'
  injection hjob' with hjob'
  subst hjob'
  obtain ⟨_, _, hjobInv⟩ := hinv.jobs _ _ hjob
  have hfind := hjobInv.findIdx?_index hcopy
  have hfind' := hjobInv.findIdx?_index hcopy'
  rw [hindex] at hfind
  rw [hindex', hfind] at hfind'
  injection hfind' with hposition
  rw [← hposition, hcopy] at hcopy'
  injection hcopy'

end Unique

section Steps

variable {s s' : Store}

theorem copiesKept_of_set {id : String} {job job' : OutboundJob} {position : Nat}
    {old copy : DeliveryRecord} (hjob : s.jobs[id]? = some job)
    (hget : job.deliveries[position]? = some old) (hjobs : s'.jobs[id]? = some job')
    (hothers : ∀ key : String, key ≠ id → s'.jobs[key]? = s.jobs[key]?)
    (hdeliveries : job'.deliveries = job.deliveries.set position copy)
    : CopiesKept [(id, old.index)] s s' := by
  intro key found ⟨job₁, position₁, hjob₁, hfound, hindex⟩ hkey
  by_cases hid : key.1 = id
  . rw [hid, hjob] at hjob₁
    injection hjob₁ with hjob₁
    subst hjob₁
    refine ⟨job', position₁, ?_, ?_, hindex⟩
    . rw [hid]
      exact hjobs
    . rw [hdeliveries, List.getElem?_set_ne, hfound]
      rintro rfl
      rw [hget] at hfound
      injection hfound with hfound
      apply hkey
      rw [List.mem_singleton, hfound, hindex, ← hid]
  . refine ⟨job₁, position₁, ?_, hfound, hindex⟩
    rw [hothers _ hid]
    exact hjob₁

theorem finishDelivery_kept {claim : DeliveryClaim} {now : UInt64} {outcome : DeliveryOutcome}
    {state : JobState}
    (h : finishDelivery claim.jobId claim.deliveryIndex claim.workerToken now outcome s =
      .ok (state, s'))
    : CopiesKept [claim.key] s s' ∧ Settled s' claim.key := by
  obtain ⟨job, position, copy, events, hjob, hposition, hget, _, _, _, _, rfl⟩ := finishDelivery_cases h
  obtain ⟨hlt, hindex, _⟩ := List.findIdx?_eq_some_iff_getElem.mp hposition
  rw [(List.getElem?_eq_some_iff.mp hget).2] at hindex
  have hindex : copy.index = claim.deliveryIndex := by simpa using hindex
  have hjobs : (s.jobs.insert claim.jobId (finishJob job position copy now outcome))[claim.jobId]? =
      some (finishJob job position copy now outcome) := by
    simp
  constructor
  . rw [DeliveryClaim.key, ← hindex]
    apply copiesKept_of_set hjob hget hjobs _ rfl
    intro key hkey
    exact Table.getElem?_insert_ne _ (Ne.symm hkey) _
  . refine ⟨finishCopy copy outcome, ⟨_, position, hjobs, ?_, ?_⟩, ?_⟩
    . simp [finishJob, List.getElem?_set_self hlt]
    . cases outcome <;> exact hindex
    . cases outcome <;> simp [finishCopy]

theorem claimPollSnapshot_kept (hinv : LedgerInv False s.ledger) {nextHop : String}
    {nextHopKey : Option PublicKey} {kinds : List JobKind} {now : UInt64} {rng : Rng}
    {claims : List DeliveryClaim}
    (h : claimPollSnapshot nextHop nextHopKey kinds now rng s = .ok (claims, s'))
    : CopiesKept (claims.map (·.key)) s s' := by
  intro key copy hcopy hkey
  obtain ⟨job, position, hjob, hget, hindex⟩ := hcopy
  by_cases hany : ∃ sel ∈ snapshotOf nextHop nextHopKey kinds s, sel.job.jobId = key.1
  . obtain ⟨sel, hsel, claim, hclaim, attempts, hid, hof, hstored⟩ := claimAll_stored h hany
    obtain ⟨hvalid, _⟩ := snapshotOf_valid hinv hsel
    have hsame : sel.job = job := by
      have hstoredJob := hvalid.job
      simp only [Store.ledger] at hstoredJob
      rw [hid, hjob] at hstoredJob
      injection hstoredJob with hstoredJob
      exact hstoredJob.symm
    refine ⟨_, position, hstored, ?_, hindex⟩
    simp only [claimJob]
    rw [List.getElem?_set_ne, hsame, hget]
    rintro rfl
    apply hkey
    rw [List.mem_map]
    refine ⟨claim, hclaim, ?_⟩
    have hcopy := hvalid.copy
    rw [hsame, hget] at hcopy
    injection hcopy with hcopy
    rw [DeliveryClaim.key, hof.1, hof.2, hid, ← hcopy, hindex]
  . simp only [not_exists, not_and] at hany
    refine ⟨job, position, ?_, hget, hindex⟩
    rw [claimAll_jobs_ne h hany]
    exact hjob

theorem acceptance_kept (c : Crypto) (op : AcceptanceOp) : CopiesKept [] s (step c s op.op).2 := by
  apply copiesKept_of_jobs
  intro key job hjob
  cases op with
  | accept value duplicateIdentity rng =>
    have harrivals : ArrivalsOnly s (step c s (.accept value duplicateIdentity rng)).2 :=
      step_arrivalsOnly c s rfl
    simp only [AcceptanceOp.op]
    rw [harrivals]
    exact hjob
  | commitBatch identities build rng =>
    rcases transact_cases s (commitBatch identities build rng s) Answer.batch with
      ⟨e, _, heq⟩ | ⟨result, s', hcommit, heq⟩
    . simp only [AcceptanceOp.op, step, heq]
      exact hjob
    . have hwrites : Writes False True Store.empty.ledger s.ledger s'.ledger :=
        commitBatch_writes hcommit
      simp only [AcceptanceOp.op, step, heq]
      apply hwrites.jobs_kept _ hjob
      simp [Store.ledger, Store.empty]

end Steps

end Tith
