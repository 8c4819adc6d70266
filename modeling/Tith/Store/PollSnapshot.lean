import Tith.Store.Lemmas.Writes

/-!
This module contains what a poll snapshot claims and which of its claims are live.
-/

namespace Tith

-- Copies are known by their job and their number in it.
def DeliveryClaim.key (claim : DeliveryClaim) : String × UInt64 := (claim.jobId, claim.deliveryIndex)

/--
The claim that has been made for a selected copy.
-/
def ClaimOf (selected : Selected) (claim : DeliveryClaim) : Prop :=
  claim.jobId = selected.job.jobId ∧ claim.deliveryIndex = selected.copy.index

section ClaimAll

variable {now : UInt64} {selected : List Selected} {rng : Rng} {s s' : Store}
variable {claims : List DeliveryClaim}

theorem claimAll_claims (h : claimAll selected now rng s = .ok (claims, s'))
    : List.Forall₂ ClaimOf selected claims := by
  induction selected generalizing rng s claims with
  | nil =>
    simp only [claimAll, Except.ok.injEq, Prod.mk.injEq] at h
    rw [← h.1]
    exact .nil
  | cons first rest ih =>
    simp only [claimAll, Except.bind_ok_iff, Except.ok.injEq, Prod.mk.injEq, Prod.exists] at h
    obtain ⟨claim, rng₁, s₁, hfirst, claims₁, s₂, hrest, rfl, rfl⟩ := h
    obtain ⟨token, attempts, item, events, _, _, _, _, rfl, rfl⟩ := claimSelected_cases hfirst
    exact .cons ⟨rfl, rfl⟩ (ih hrest)

theorem claimAll_jobs_ne (h : claimAll selected now rng s = .ok (claims, s')) {key : String}
    (hkey : ∀ sel ∈ selected, sel.job.jobId ≠ key)
    : s'.jobs[key]? = s.jobs[key]? := by
  induction selected generalizing rng s claims with
  | nil =>
    simp only [claimAll, Except.ok.injEq, Prod.mk.injEq] at h
    rw [h.2]
  | cons first rest ih =>
    simp only [claimAll, Except.bind_ok_iff, Except.ok.injEq, Prod.mk.injEq, Prod.exists] at h
    obtain ⟨claim, rng₁, s₁, hfirst, claims₁, s₂, hrest, rfl, rfl⟩ := h
    obtain ⟨token, attempts, item, events, _, _, _, _, _, rfl⟩ := claimSelected_cases hfirst
    rw [ih hrest (fun sel hmem => hkey sel (by simp [hmem]))]
    exact Table.getElem?_insert_ne _ (hkey first (by simp)) _

/--
A job of the snapshot ends up as its last claim has written it: the claims before that one have
left no trace in it.
-/
theorem claimAll_stored (h : claimAll selected now rng s = .ok (claims, s')) {key : String}
    (hkey : ∃ sel ∈ selected, sel.job.jobId = key)
    : ∃ sel ∈ selected, ∃ claim ∈ claims, ∃ attempts, sel.job.jobId = key ∧ ClaimOf sel claim ∧
        s'.jobs[key]? =
          some (claimJob sel.job sel.index (claimCopy sel.copy claim.workerToken attempts) now) := by
  induction selected generalizing rng s claims with
  | nil => simp at hkey
  | cons first rest ih =>
    simp only [claimAll, Except.bind_ok_iff, Except.ok.injEq, Prod.mk.injEq, Prod.exists] at h
    obtain ⟨claim, rng₁, s₁, hfirst, claims₁, s₂, hrest, rfl, rfl⟩ := h
    by_cases hlater : ∃ sel ∈ rest, sel.job.jobId = key
    . obtain ⟨sel, hsel, claim', hclaim', attempts, hstored⟩ := ih hrest hlater
      exact ⟨sel, by simp [hsel], claim', by simp [hclaim'], attempts, hstored⟩
    . simp only [not_exists, not_and] at hlater
      obtain ⟨sel, hsel, hid⟩ := hkey
      rcases List.mem_cons.mp hsel with rfl | hsel
      . have hkept := claimAll_jobs_ne hrest hlater
        obtain ⟨token, attempts, item, events, _, _, _, _, rfl, rfl⟩ := claimSelected_cases hfirst
        refine ⟨sel, by simp, _, List.mem_cons_self, attempts, hid, ⟨rfl, rfl⟩, ?_⟩
        rw [hkept, ← hid]
        exact Std.ExtTreeMap.getElem?_insert_self
      . exact absurd hid (hlater sel hsel)

theorem appendEvent_lastSequence {events events' : Table String EventEntry} (job : OutboundJob)
    {previous : Option JobState} (hevents : EventsInv events) (hid : ColonFree job.jobId)
    (happend : appendEvent events job previous = .ok events') {key : String} (hkey : ColonFree key)
    {log : List OutboundEvent} (hlog : IsLog events key log)
    : (lastSequence events' key).toNat =
        (lastSequence events key).toNat + if job.jobId = key then 1 else 0 := by
  have hevents' := appendEvent_eventsInv hevents hid happend
  rw [hlog.lastSequence hevents hkey]
  split
  . next heq =>
    subst heq
    rw [(appendEvent_isLog hlog hevents hid happend).lastSequence hevents' hkey]
    simp
  . next hne =>
    rw [(appendEvent_isLog_ne hevents hid happend hne hlog).lastSequence hevents' hkey]
    rfl

theorem claimAll_lastSequence {origin : Ledger} (horigin : LedgerInv False origin)
    (hvalid : ∀ sel ∈ selected, sel.Valid origin) (hinv : LedgerInv False s.ledger)
    (hderived : Derived origin s.ledger) (h : claimAll selected now rng s = .ok (claims, s'))
    {key : String} {old : OutboundJob} (hold : origin.jobs[key]? = some old)
    : (lastSequence s'.events key).toNat =
        (lastSequence s.events key).toNat + selected.countP (fun sel => sel.job.jobId = key) := by
  induction selected generalizing rng s claims with
  | nil =>
    simp only [claimAll, Except.ok.injEq, Prod.mk.injEq] at h
    rw [h.2]
    simp
  | cons first rest ih =>
    simp only [claimAll, Except.bind_ok_iff, Except.ok.injEq, Prod.mk.injEq, Prod.exists] at h
    obtain ⟨claim, rng₁, s₁, hfirst, claims₁, s₂, hrest, rfl, rfl⟩ := h
    have hvalidFirst := hvalid first (by simp)
    have hwrite : Write False False origin s.ledger s₁.ledger :=
      claimSelected_write hvalidFirst False.elim hfirst
    rw [ih (fun sel hmem => hvalid sel (by simp [hmem])) (hwrite.inv horigin hinv hderived)
      (hwrite.derived hderived) hrest]
    obtain ⟨job, hjob, _⟩ := hderived key old hold
    obtain ⟨log, hlog, _⟩ := hinv.logs key job hjob
    obtain ⟨_, hfree, _⟩ := horigin.jobs _ _ hvalidFirst.job
    obtain ⟨token, attempts, item, events, _, _, _, hevents, _, rfl⟩ := claimSelected_cases hfirst
    have hnext := appendEvent_lastSequence
      (claimJob first.job first.index (claimCopy first.copy token attempts) now)
      hinv.events hfree hevents (horigin.jobs key old hold).2.1 hlog
    simp only [claimJob, Store.ledger] at hnext
    rw [hnext, List.countP_cons]
    by_cases heq : first.job.jobId = key
    . simp only [heq, if_true, decide_true]
      omega
    . simp [heq]

end ClaimAll

theorem JobInv.findIdx?_index {job : OutboundJob} (hinv : JobInv job) {position : Nat}
    {copy : DeliveryRecord} (hget : job.deliveries[position]? = some copy)
    : job.deliveries.findIdx? (·.index = copy.index) = some position := by
  obtain ⟨hlt, hcopy⟩ := List.getElem?_eq_some_iff.mp hget
  have hlength := hinv.length_lt
  rw [List.findIdx?_eq_some_iff_getElem]
  refine ⟨hlt, by simp [hcopy], ?_⟩
  intro i hi
  have hindex := hinv.indices i _ (List.getElem?_eq_getElem (by omega : i < job.deliveries.length))
  have hindex' := hinv.indices position copy hget
  simp only [decide_eq_true_eq]
  intro heq
  rw [hindex, hindex'] at heq
  have := congrArg UInt64.toNat heq
  rw [toNat_succ (by omega), toNat_succ (by omega)] at this
  omega

theorem finishDelivery_ok_iff {chained : Prop} {s : Store} (hinv : LedgerInv chained s.ledger)
    {jobId : String} {job : OutboundJob} (hjob : s.jobs[jobId]? = some job) {position : Nat}
    {copy : DeliveryRecord} (hget : job.deliveries[position]? = some copy)
    (hactive : copy.state = .active) {token : String} (htoken : copy.workerToken = some token)
    (now : UInt64) (outcome : DeliveryOutcome)
    : (∃ state s', finishDelivery jobId copy.index token now outcome s = .ok (state, s')) ↔
        (lastSequence s.events jobId).toNat + 1 < 2 ^ 64 := by
  -- The worker that holds an active copy can finish it as long as the job has an event number left.
  obtain ⟨rfl, hfree, hjobInv⟩ := hinv.jobs jobId job hjob
  obtain ⟨log, hlog, _⟩ := hinv.logs _ job hjob
  have happend := appendEvent_eq (finishJob job position copy now outcome) hlog hinv.events
    hfree (some job.state)
  have hlast := hlog.lastSequence hinv.events hfree
  simp only [Store.ledger] at happend hlast
  simp only [finishDelivery, hjob, hjobInv.findIdx?_index hget, hget, hactive, htoken,
    Option.okOr_some, Except.bind_of_ok, hlast]
  by_cases hlt : log.length + 1 < 2 ^ 64
  . rw [if_pos hlt] at happend
    refine iff_of_true ?_ hlt
    simp [happend]
  . rw [if_neg hlt] at happend
    refine iff_of_false ?_ hlt
    simp [happend]

section Snapshot

variable (nextHop : String) (nextHopKey : Option PublicKey) (kinds : List JobKind)

/--
The copy with this number is one that a poll is to take.
-/
def PollTakes (s : Store) (jobId : String) (index : UInt64) : Prop :=
  ∃ job, s.jobs[jobId]? = some job ∧ job.kind ∈ kinds ∧ ∃ copy ∈ job.deliveries,
    copy.index = index ∧ copy.nextHop = nextHop ∧ copy.nextHopKey = nextHopKey ∧
    (copy.state = .queued ∨ copy.state = .deferred)

structure SnapshotExact (s : Store) (claims : List DeliveryClaim) : Prop where
  taken : ∀ jobId index,
    (∃ claim ∈ claims, claim.jobId = jobId ∧ claim.deliveryIndex = index) ↔
      PollTakes nextHop nextHopKey kinds s jobId index
  nodup : (claims.map (fun claim => (claim.jobId, claim.deliveryIndex))).Nodup

/--
The worker of the claim holds the copy, and can finish it at once.
-/
structure ClaimLive (c : Crypto) (s : Store) (claim : DeliveryClaim) : Prop where
  held : ∃ job, s.jobs[claim.jobId]? = some job ∧ ∃ copy ∈ job.deliveries,
    copy.index = claim.deliveryIndex ∧ copy.state = .active ∧
    copy.workerToken = some claim.workerToken
  finishes : ∀ now outcome, ∃ state,
    (step c s (.finishDelivery claim.jobId claim.deliveryIndex claim.workerToken now outcome)).1 =
      .ok (.finished state)

/--
No job has two copies that match, and every job with one has two event numbers left.
-/
def SnapshotReady (s : Store) : Prop :=
  ∀ (key : String) job, s.jobs[key]? = some job →
    MatchesOnce nextHop nextHopKey kinds job ∧
      ((∃ copy ∈ job.deliveries, pollMatches nextHop nextHopKey kinds job copy) →
        (lastSequence s.events key).toNat + 2 < 2 ^ 64)

variable {nextHop nextHopKey kinds}

theorem pollMatches_iff {job : OutboundJob} {copy : DeliveryRecord}
    : pollMatches nextHop nextHopKey kinds job copy = true ↔
        job.kind ∈ kinds ∧ copy.nextHop = nextHop ∧ copy.nextHopKey = nextHopKey ∧
          (copy.state = .queued ∨ copy.state = .deferred) := by
  simp [pollMatches, DeliveryRecord.isWaiting, and_assoc]

variable {now : UInt64} {rng : Rng} {s s' : Store} {claims : List DeliveryClaim}
variable (hinv : LedgerInv False s.ledger)
variable (h : claimPollSnapshot nextHop nextHopKey kinds now rng s = .ok (claims, s'))

include h

theorem claimPollSnapshot_claims
    : List.Forall₂ ClaimOf (snapshotOf nextHop nextHopKey kinds s) claims :=
  claimAll_claims h

include hinv

theorem claimPollSnapshot_exact : SnapshotExact nextHop nextHopKey kinds s claims := by
  have hclaims := claimPollSnapshot_claims h
  refine ⟨?_, ?_⟩
  . intro jobId index
    constructor
    . rintro ⟨claim, hmem, rfl, rfl⟩
      obtain ⟨sel, hsel, hid, hindex⟩ := List.forall₂_mem_right hclaims hmem
      obtain ⟨hvalid, hmatch⟩ := snapshotOf_valid hinv hsel
      obtain ⟨hkind, hmatch⟩ := pollMatches_iff.mp hmatch
      rw [hid, hindex]
      exact ⟨sel.job, hvalid.job, hkind, sel.copy, List.mem_of_getElem? hvalid.copy, rfl, hmatch⟩
    . rintro ⟨job, hjob, hkind, copy, hcopy, rfl, hmatch⟩
      obtain ⟨position, hget⟩ := List.getElem?_of_mem hcopy
      obtain ⟨rfl, _⟩ := hinv.jobs jobId job hjob
      have hsel : (⟨job, position, copy⟩ : Selected) ∈ snapshotOf nextHop nextHopKey kinds s :=
        mem_snapshotOf.mpr ⟨_, hjob, hget, pollMatches_iff.mpr ⟨hkind, hmatch⟩⟩
      obtain ⟨claim, hmem, hclaim⟩ := List.forall₂_mem_left hclaims hsel
      exact ⟨claim, hmem, hclaim⟩
  . have hpairs : claims.map (fun claim => (claim.jobId, claim.deliveryIndex)) =
        (snapshotOf nextHop nextHopKey kinds s).map
          (fun sel => (sel.job.jobId, sel.copy.index)) := by
      symm
      rw [← List.forall₂_eq_eq_eq, List.forall₂_map_left_iff, List.forall₂_map_right_iff]
      apply hclaims.imp
      intro sel claim hclaim
      exact Prod.ext hclaim.1.symm hclaim.2.symm
    rw [hpairs, List.Nodup, List.pairwise_map]
    apply (snapshotOf_pairwise hinv).imp_of_mem
    intro a b ha hb hpair heq
    obtain ⟨hid, hnumber⟩ := Prod.mk.inj heq
    obtain ⟨hjob, hindex, _⟩ := hpair hid
    have hvalid := (snapshotOf_valid hinv ha).1
    have hvalid' := (snapshotOf_valid hinv hb).1
    have hjobInv := (hinv.jobs _ _ hvalid.job).2.2
    have hfind := hjobInv.findIdx?_index hvalid.copy
    have hfind' := hjobInv.findIdx?_index (hjob ▸ hvalid'.copy)
    rw [hnumber, hfind'] at hfind
    injection hfind with hsame
    exact hindex hsame.symm

theorem matchesOnce_of_live {c : Crypto} (hlive : ∀ claim ∈ claims, ClaimLive c s' claim)
    {key : String} {job : OutboundJob} (hjob : s.jobs[key]? = some job)
    : MatchesOnce nextHop nextHopKey kinds job := by
  have hclaims := claimPollSnapshot_claims h
  obtain ⟨rfl, _, hjobInv⟩ := hinv.jobs key job hjob
  -- Every copy that matches is the one that the last claim has written.
  have hlast : ∃ last, ∀ (i : Nat) copy, job.deliveries[i]? = some copy →
      pollMatches nextHop nextHopKey kinds job copy → i = last := by
    by_cases hany : ∃ sel ∈ snapshotOf nextHop nextHopKey kinds s, sel.job.jobId = job.jobId
    . obtain ⟨sel, hsel, last, _, attempts, hid, _, hstored⟩ := claimAll_stored h hany
      refine ⟨sel.index, ?_⟩
      intro i copy hget hmatch
      have hvalid := (snapshotOf_valid hinv hsel).1
      have hsame := hvalid.job
      simp only [Store.ledger] at hsame
      rw [hid, hjob] at hsame
      injection hsame with hsame
      obtain ⟨claim, hmem, hclaim⟩ := List.forall₂_mem_left hclaims
        (mem_snapshotOf.mpr ⟨job.jobId, hjob, hget, hmatch⟩ :
          (⟨job, i, copy⟩ : Selected) ∈ snapshotOf nextHop nextHopKey kinds s)
      obtain ⟨job', hjob', copy', hcopy', hindex, hactive, _⟩ := (hlive claim hmem).held
      rw [hclaim.1, hstored] at hjob'
      injection hjob' with hjob'
      subst hjob'
      obtain ⟨position, hget'⟩ := List.getElem?_of_mem hcopy'
      have hadvance := claimJob_advance hvalid.copy hvalid.waiting last.workerToken attempts now
      have hfind' := (hadvance.inv (hsame ▸ hjobInv)).findIdx?_index hget'
      obtain ⟨copy'', hget'', hstep⟩ := Advance.forall₂_getElem?_left hadvance.copies
        (hsame ▸ hget : sel.job.deliveries[i]? = some copy)
      have hfind'' := (hadvance.inv (hsame ▸ hjobInv)).findIdx?_index hget''
      rw [hindex, hclaim.2] at hfind'
      rw [hstep.index, hfind'] at hfind''
      injection hfind'' with hposition
      subst hposition
      by_contra hne
      simp only [claimJob, List.getElem?_set_ne (Ne.symm hne)] at hget'
      rw [← hsame, hget] at hget'
      injection hget' with hcopy
      subst hcopy
      have hstate := (pollMatches_iff.mp hmatch).2.2.2
      rw [hactive] at hstate
      simp at hstate
    . refine ⟨0, ?_⟩
      intro i copy hget hmatch
      exact absurd ⟨⟨job, i, copy⟩, mem_snapshotOf.mpr ⟨job.jobId, hjob, hget, hmatch⟩, rfl⟩ hany
  obtain ⟨last, hlast⟩ := hlast
  intro i j a b hi hj ha hb
  rw [hlast i a hi ha, hlast j b hj hb]

theorem held_of_matchesOnce
    (honce : ∀ (key : String) job, s.jobs[key]? = some job →
      MatchesOnce nextHop nextHopKey kinds job)
    {claim : DeliveryClaim} (hclaim : claim ∈ claims)
    : ∃ job, s'.jobs[claim.jobId]? = some job ∧ ∃ (position : Nat) (copy : DeliveryRecord),
        job.deliveries[position]? = some copy ∧ copy.index = claim.deliveryIndex ∧
        copy.state = .active ∧ copy.workerToken = some claim.workerToken := by
  have hclaims := claimPollSnapshot_claims h
  obtain ⟨sel, hsel, hid, hindex⟩ := List.forall₂_mem_right hclaims hclaim
  obtain ⟨sel', hsel', claim', hclaim', attempts, hid', hclaimOf, hstored⟩ :=
    claimAll_stored h ⟨sel, hsel, rfl⟩
  obtain ⟨hvalid, hmatch⟩ := snapshotOf_valid hinv hsel
  obtain ⟨hvalid', hmatch'⟩ := snapshotOf_valid hinv hsel'
  have hjob := hvalid.job
  rw [← hid', hvalid'.job] at hjob
  injection hjob with hjob
  have hcopy' := hvalid'.copy
  rw [hjob] at hcopy' hmatch'
  have hposition := honce _ _ hvalid.job _ _ _ _ hvalid.copy hcopy' hmatch hmatch'
  rw [← hposition, hvalid.copy] at hcopy'
  injection hcopy' with hcopy
  -- Both claims are for the same copy, and no copy is claimed twice.
  have hsame : claim' = claim := by
    apply List.inj_on_of_nodup_map (claimPollSnapshot_exact hinv h).nodup hclaim' hclaim
    apply Prod.ext
    . rw [hclaimOf.1, hid, hid']
    . rw [hclaimOf.2, hindex, hcopy]
  rw [hsame, hjob, ← hposition, ← hcopy] at hstored
  rw [← hid] at hstored
  refine ⟨_, hstored, sel.index, claimCopy sel.copy claim.workerToken attempts, ?_, hindex.symm, rfl,
    rfl⟩
  have hlt : sel.index < sel.job.deliveries.length := (List.getElem?_eq_some_iff.mp hvalid.copy).1
  simp only [claimJob, List.getElem?_set_self hlt]

theorem lastSequence_of_matchesOnce
    (honce : ∀ (key : String) job, s.jobs[key]? = some job →
      MatchesOnce nextHop nextHopKey kinds job)
    {sel : Selected} (hsel : sel ∈ snapshotOf nextHop nextHopKey kinds s)
    : (lastSequence s'.events sel.job.jobId).toNat =
        (lastSequence s.events sel.job.jobId).toNat + 1 := by
  have hnodup : ((snapshotOf nextHop nextHopKey kinds s).map (fun sel => sel.job.jobId)).Nodup := by
    rw [List.Nodup, List.pairwise_map]
    apply (snapshotOf_pairwise hinv).imp_of_mem
    intro a b _ hb hpair hid
    exact (hpair hid).2.2 (honce _ _ (snapshotOf_valid hinv hb).1.job)
  have hcount := List.count_eq_one_of_mem hnodup (List.mem_map_of_mem hsel)
  rw [List.count, List.countP_map] at hcount
  have hvalid : ∀ sel ∈ snapshotOf nextHop nextHopKey kinds s, sel.Valid s.ledger :=
    fun sel hmem => (snapshotOf_valid hinv hmem).1
  rw [claimAll_lastSequence hinv hvalid hinv (derived_refl _) h (hvalid sel hsel).job]
  congr 1

theorem claimLive_iff
    (honce : ∀ (key : String) job, s.jobs[key]? = some job →
      MatchesOnce nextHop nextHopKey kinds job)
    (c : Crypto) {claim : DeliveryClaim} (hclaim : claim ∈ claims)
    : ClaimLive c s' claim ↔ (lastSequence s.events claim.jobId).toNat + 2 < 2 ^ 64 := by
  obtain ⟨job, hjob, position, copy, hget, hindex, hactive, htoken⟩ :=
    held_of_matchesOnce hinv h honce hclaim
  obtain ⟨sel, hsel, hid, _⟩ := List.forall₂_mem_right (claimPollSnapshot_claims h) hclaim
  have hwrites : Writes False False s.ledger s.ledger s'.ledger :=
    claimPollSnapshot_writes hinv False.elim h
  have hinv' := (hwrites.inv hinv).1
  have hlast := lastSequence_of_matchesOnce hinv h honce hsel
  rw [← hid] at hlast
  have hfinish := finishDelivery_ok_iff hinv' hjob hget hactive htoken
  rw [hlast, hindex] at hfinish
  constructor
  . intro hlive
    obtain ⟨state, hok⟩ := hlive.finishes 0 (.failed "")
    apply (hfinish 0 (.failed "")).mp
    rcases transact_cases s' (finishDelivery claim.jobId claim.deliveryIndex claim.workerToken 0
      (.failed "") s') Answer.finished with ⟨e, _, heq⟩ | ⟨state', s'', hbody, _⟩
    . simp only [step, heq] at hok
      cases hok
    . exact ⟨state', s'', hbody⟩
  . intro hlt
    refine ⟨⟨job, hjob, copy, List.mem_of_getElem? hget, hindex, hactive, htoken⟩, ?_⟩
    intro now' outcome
    obtain ⟨state, s'', hok⟩ := (hfinish now' outcome).mpr hlt
    exact ⟨state, by simp only [step, hok, transact]⟩

end Snapshot

/--
A poll snapshot claims exactly the copies that match. All of its claims are live exactly if no job
has two copies that match and the jobs do not run out of event numbers.
-/
theorem claimPollSnapshot_live_iff (c : Crypto) (ops : List Op) (nextHop : String)
    (nextHopKey : Option PublicKey) (kinds : List JobKind) (now : UInt64) (rng : Rng)
    (claims : List DeliveryClaim)
    (hok : (step c ((storeMachine c).run .empty ops)
      (.claimPollSnapshot nextHop nextHopKey kinds now rng)).1 = .ok (.snapshot claims))
    : (SnapshotExact nextHop nextHopKey kinds ((storeMachine c).run .empty ops) claims ∧
          ∀ claim ∈ claims,
            ClaimLive c (step c ((storeMachine c).run .empty ops)
              (.claimPollSnapshot nextHop nextHopKey kinds now rng)).2 claim) ↔
        SnapshotReady nextHop nextHopKey kinds ((storeMachine c).run .empty ops) := by
  have hinv := run_ledgerInv c ops
  generalize (storeMachine c).run .empty ops = s at *
  simp only [step] at hok ⊢
  rcases transact_cases s (claimPollSnapshot nextHop nextHopKey kinds now rng s) Answer.snapshot with
    ⟨e, _, heq⟩ | ⟨claims', s', h, heq⟩
  . rw [heq] at hok
    cases hok
  . rw [heq] at hok ⊢
    injection hok with hok
    injection hok with hok
    subst hok
    constructor
    . rintro ⟨hexact, hlive⟩ key job hjob
      have honce : ∀ (key : String) job, s.jobs[key]? = some job →
          MatchesOnce nextHop nextHopKey kinds job :=
        fun key job hjob => matchesOnce_of_live hinv h hlive hjob
      refine ⟨honce key job hjob, ?_⟩
      rintro ⟨copy, hcopy, hmatch⟩
      obtain ⟨hkind, hmatch⟩ := pollMatches_iff.mp hmatch
      obtain ⟨claim, hclaim, rfl, _⟩ :=
        (hexact.taken key copy.index).mpr ⟨job, hjob, hkind, copy, hcopy, rfl, hmatch⟩
      exact (claimLive_iff hinv h honce c hclaim).mp (hlive claim hclaim)
    . intro hready
      have hexact := claimPollSnapshot_exact hinv h
      refine ⟨hexact, ?_⟩
      intro claim hclaim
      apply (claimLive_iff hinv h (fun key job hjob => (hready key job hjob).1) c hclaim).mpr
      obtain ⟨job, hjob, hkind, copy, hcopy, _, hmatch⟩ :=
        (hexact.taken claim.jobId claim.deliveryIndex).mp ⟨claim, hclaim, rfl, rfl⟩
      exact (hready _ job hjob).2 ⟨copy, hcopy, pollMatches_iff.mpr ⟨hkind, hmatch⟩⟩

/--
The claim of a poll by the hub for a copy that has not been tried before.
-/
def Sample.claimed (position : Nat) (n : UInt8) : DeliveryClaim where
  jobId := identifierOf 'J' (draw 7)
  deliveryIndex := UInt64.ofNat (position + 1)
  workerToken := identifierOf 'W' (draw n)
  item := [64, 0]
  delivery := claimCopy (makeCopy (delivery "hub") position) (identifierOf 'W' (draw n)) 1

/--
A job with two copies for the hub: the first claim of the poll is not live, its copy is still
queued.
-/
theorem claimPollSnapshot_two_copies_not_live
    : ¬∀ (c : Crypto) (ops : List Op) (nextHop : String) (nextHopKey : Option PublicKey)
        (kinds : List JobKind) (now : UInt64) (rng : Rng) (claims : List DeliveryClaim),
        (step c ((storeMachine c).run .empty ops)
          (.claimPollSnapshot nextHop nextHopKey kinds now rng)).1 = .ok (.snapshot claims) →
        SnapshotExact nextHop nextHopKey kinds ((storeMachine c).run .empty ops) claims ∧
          ∀ claim ∈ claims,
            ClaimLive c (step c ((storeMachine c).run .empty ops)
              (.claimPollSnapshot nextHop nextHopKey kinds now rng)).2 claim := by
  intro h
  have hlive := (h Sample.crypto
    [Sample.submit "k" (Sample.delivery "hub") (some (Sample.delivery "hub")) 7] "hub" none
    [.netMail] 5 [Sample.draw 1, Sample.draw 2] [Sample.claimed 0 1, Sample.claimed 1 2]
    (by decide)).2 (Sample.claimed 0 1) (by simp)
  obtain ⟨job, hjob, copy, hcopy, hindex, hactive, _⟩ := hlive.held
  have hqueued := congrArg (Option.map (fun job => job.deliveries.all (fun copy =>
    copy.index ≠ (Sample.claimed 0 1).deliveryIndex ∨ copy.state ≠ .active))) hjob
  have hfalse : job.deliveries.all (fun copy =>
      copy.index ≠ (Sample.claimed 0 1).deliveryIndex ∨ copy.state ≠ .active) = false := by
    rw [List.all_eq_false]
    exact ⟨copy, hcopy, by simp [hindex, hactive]⟩
  rw [Option.map_some, hfalse] at hqueued
  revert hqueued
  decide

/--
The poll for a job with one copy.
-/
theorem claimPollSnapshot_one_copy_live
    : SnapshotExact "hub" none [.netMail]
          ((storeMachine Sample.crypto).run .empty
            [Sample.submit "k" (Sample.delivery "hub") none 7]) [Sample.claimed 0 1] ∧
        ∀ claim ∈ [Sample.claimed 0 1],
          ClaimLive Sample.crypto
            (step Sample.crypto ((storeMachine Sample.crypto).run .empty
              [Sample.submit "k" (Sample.delivery "hub") none 7])
              (.claimPollSnapshot "hub" none [.netMail] 5 [Sample.draw 1])).2 claim := by
  apply (claimPollSnapshot_live_iff Sample.crypto
    [Sample.submit "k" (Sample.delivery "hub") none 7] "hub" none [.netMail] 5 [Sample.draw 1]
    [Sample.claimed 0 1] (by decide)).mpr
  intro key job hjob
  have hone :
      ∀ pair ∈ ((storeMachine Sample.crypto).run .empty
        [Sample.submit "k" (Sample.delivery "hub") none 7]).jobs.toList,
        pair.2.deliveries.length = 1 ∧
          (lastSequence ((storeMachine Sample.crypto).run .empty
            [Sample.submit "k" (Sample.delivery "hub") none 7]).events pair.1).toNat + 2 <
            2 ^ 64 := by
    decide
  obtain ⟨hlength, hnumber⟩ := hone (key, job) ((Table.mem_toList _ _ _).mpr hjob)
  refine ⟨?_, fun _ => hnumber⟩
  intro i j a b hi hj _ _
  have hi := (List.getElem?_eq_some_iff.mp hi).1
  have hj := (List.getElem?_eq_some_iff.mp hj).1
  dsimp only at hlength
  omega

end Tith
