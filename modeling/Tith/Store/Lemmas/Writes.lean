import Tith.Store.Lemmas.Frames
import Tith.Store.Lemmas.Ledger
import Tith.Store.Lemmas.OutboundCases
import Tith.Store.Machine

/-!
This module contains what every operation of the store does to the ledger: it is a sequence of
writes. Only a poll snapshot can break the chain of the events, it does so if it takes several
copies of a job that is not active yet.
-/

namespace Tith

section Single

variable {chained creating : Prop} {s s' : Store} (hinv : LedgerInv chained s.ledger)

include hinv

theorem control_writes {application : Application} {jobId : String} {now : UInt64} {result : String}
    {update : OutboundJob → OutboundJob × ControlOutcome} (hupdate : Updates update)
    {outcome : ControlOutcome}
    (h : control application jobId now result update s = .ok (outcome, s'))
    : Writes chained creating s.ledger s.ledger s'.ledger := by
  obtain ⟨job, hjob, _, ⟨_, events, _, _, hevents, _, rfl⟩ | ⟨_, _, _, _, rfl⟩ | ⟨_, _, rfl⟩⟩ :=
    control_cases h
  . obtain ⟨rfl, _, hjobInv⟩ := hinv.jobs jobId job hjob
    have hadvance := controlled_advance hupdate hjobInv now result
    have hwrite : Write chained creating s.ledger s.ledger _ :=
      .advance hjob hadvance (fun _ => ⟨job, hjob, rfl⟩) hevents
    rw [hadvance.jobId] at hwrite
    exact .single hwrite
  . exact .refl
  . exact .refl

theorem finishDelivery_writes {jobId : String} {index : UInt64} {token : String} {now : UInt64}
    {outcome : DeliveryOutcome} {state : JobState}
    (h : finishDelivery jobId index token now outcome s = .ok (state, s'))
    : Writes chained creating s.ledger s.ledger s'.ledger := by
  obtain ⟨job, position, copy, events, hjob, _, hcopy, hactive, _, hevents, _, rfl⟩ :=
    finishDelivery_cases h
  obtain ⟨rfl, _, _⟩ := hinv.jobs jobId job hjob
  exact .single (Write.advance (l := s.ledger) hjob (finishJob_advance hcopy hactive now outcome)
    (fun _ => ⟨job, hjob, rfl⟩) hevents)

omit hinv in
theorem acknowledgeEvent_writes {application : Application} {eventId : String}
    (h : acknowledgeEvent application eventId s = .ok s')
    : Writes chained creating s.ledger s.ledger s'.ledger := by
  obtain ⟨entry, hentry, _, rfl⟩ := acknowledgeEvent_cases h
  exact .single (Write.acknowledge (l := s.ledger) hentry)

end Single

structure Selected.Valid (selected : Selected) (l : Ledger) : Prop where
  job : l.jobs[selected.job.jobId]? = some selected.job
  copy : selected.job.deliveries[selected.index]? = some selected.copy
  waiting : selected.copy.isWaiting

theorem claimSelected_write {chained creating : Prop} {origin : Ledger} {selected : Selected}
    (hvalid : selected.Valid origin) {now : UInt64} {rng rng' : Rng} {s s' : Store}
    {claim : DeliveryClaim}
    (hcurrent : chained →
      ∃ stored, s.jobs[selected.job.jobId]? = some stored ∧ stored.state = selected.job.state)
    (h : claimSelected selected now rng s = .ok (claim, rng', s'))
    : Write chained creating origin s.ledger s'.ledger := by
  obtain ⟨token, attempts, item, events, _, _, _, hevents, _, rfl⟩ := claimSelected_cases h
  exact Write.advance (l := s.ledger) hvalid.job
    (claimJob_advance hvalid.copy hvalid.waiting token attempts now) hcurrent hevents

theorem claimMatching_writes {chained creating : Prop} {s s' : Store} (hinv : LedgerInv chained s.ledger)
    {now : UInt64} {matchesSelector : DeliveryRecord → Bool} {rng : Rng}
    {claim : Option DeliveryClaim}
    (h : claimMatching now matchesSelector rng s = .ok (claim, s'))
    : Writes chained creating s.ledger s.ledger s'.ledger := by
  obtain ⟨_, rfl⟩ | ⟨selected, _, _, key, hkey, hcopy, hwaiting, _, hclaim, _⟩ :=
    claimMatching_cases h
  . exact .refl
  . obtain ⟨rfl, _, _⟩ := hinv.jobs key _ hkey
    exact .single (claimSelected_write ⟨hkey, hcopy, hwaiting⟩ (fun _ => ⟨_, hkey, rfl⟩) hclaim)

theorem claimJob_state {job : OutboundJob} {index : Nat} {copy : DeliveryRecord}
    (hget : job.deliveries[index]? = some copy) (token : String) (attempts now : UInt64)
    : (claimJob job index (claimCopy copy token attempts) now).state = .active := by
  have hlt : index < job.deliveries.length := (List.getElem?_eq_some_iff.mp hget).1
  have hany :
      (job.deliveries.set index (claimCopy copy token attempts)).any (·.state = .active) = true := by
    rw [List.any_eq_true]
    exact ⟨_, List.mem_set hlt _, by simp [claimCopy]⟩
  simp only [claimJob, aggregateState]
  rw [if_pos hany]

/--
The claims of a snapshot. Each of them works on the job as it was before the first one, so the
chain is kept only for jobs that occur once or were active before.
-/
theorem claimAll_writes {chained creating : Prop} {origin : Ledger} {selected : List Selected}
    (hvalid : ∀ sel ∈ selected, sel.Valid origin)
    (honce : chained →
      selected.Pairwise (fun a b => a.job.jobId = b.job.jobId → b.job.state = .active))
    {now : UInt64} {rng : Rng} {s s' : Store} {claims : List DeliveryClaim}
    (hcurrent : chained → ∀ sel ∈ selected,
      ∃ stored, s.jobs[sel.job.jobId]? = some stored ∧ stored.state = sel.job.state)
    (h : claimAll selected now rng s = .ok (claims, s'))
    : Writes chained creating origin s.ledger s'.ledger := by
  induction selected generalizing rng s claims with
  | nil =>
    simp only [claimAll, Except.ok.injEq, Prod.mk.injEq] at h
    rw [h.2]
  | cons first rest ih =>
    simp only [claimAll, Except.bind_ok_iff, Except.ok.injEq, Prod.mk.injEq, Prod.exists] at h
    obtain ⟨claim, rng₁, s₁, hfirst, claims₁, s₂, hrest, _, rfl⟩ := h
    have hvalidFirst := hvalid first (by simp)
    have hwrite : Write chained creating _ s.ledger s₁.ledger :=
      claimSelected_write hvalidFirst (fun hc => hcurrent hc first (by simp)) hfirst
    refine Relation.ReflTransGen.head hwrite (ih ?_ ?_ ?_ hrest)
    . intro sel hmem
      exact hvalid sel (by simp [hmem])
    . intro hc
      exact (List.pairwise_cons.mp (honce hc)).2
    . intro hc sel hmem
      obtain ⟨token, attempts, item, events, _, _, _, _, _, rfl⟩ := claimSelected_cases hfirst
      dsimp only
      rw [Table.getElem?_insert]
      split
      . next heq =>
        -- The job has just become active. It occurs again, so it was active before.
        refine ⟨_, rfl, ?_⟩
        rw [claimJob_state hvalidFirst.copy]
        exact ((List.pairwise_cons.mp (honce hc)).1 sel hmem heq).symm
      . exact hcurrent hc sel (by simp [hmem])

section Snapshot

variable (nextHop : String) (nextHopKey : Option PublicKey) (kinds : List JobKind)

/--
The copies that a poll takes, in the order it claims them.
-/
def snapshotOf (s : Store) : List Selected :=
  (selectCopies s (pollMatches nextHop nextHopKey kinds)).insertionSort
    (fun left right => (left.order right).isLE)

/--
No two copies of a job match the poll.
-/
def MatchesOnce (job : OutboundJob) : Prop :=
  ∀ (i j : Nat) a b, job.deliveries[i]? = some a → job.deliveries[j]? = some b →
    pollMatches nextHop nextHopKey kinds job a → pollMatches nextHop nextHopKey kinds job b → i = j

variable {nextHop nextHopKey kinds}

theorem mem_snapshotOf {s : Store} {selected : Selected}
    : selected ∈ snapshotOf nextHop nextHopKey kinds s ↔
        ∃ key : String, s.jobs[key]? = some selected.job ∧
          selected.job.deliveries[selected.index]? = some selected.copy ∧
          pollMatches nextHop nextHopKey kinds selected.job selected.copy = true := by
  unfold snapshotOf
  rw [List.mem_insertionSort]
  exact mem_selectCopies

variable {chained creating : Prop} {s : Store} (hinv : LedgerInv chained s.ledger)

include hinv

theorem snapshotOf_valid {selected : Selected}
    (hmem : selected ∈ snapshotOf nextHop nextHopKey kinds s)
    : selected.Valid s.ledger ∧
        pollMatches nextHop nextHopKey kinds selected.job selected.copy = true := by
  obtain ⟨key, hkey, hcopy, hmatch⟩ := mem_snapshotOf.mp hmem
  obtain ⟨rfl, _, _⟩ := hinv.jobs key _ hkey
  refine ⟨⟨hkey, hcopy, ?_⟩, hmatch⟩
  simp only [pollMatches, Bool.and_eq_true] at hmatch
  exact hmatch.2

theorem snapshotOf_nodup
    : ((snapshotOf nextHop nextHopKey kinds s).map
        (fun selected => (selected.job.jobId, selected.index))).Nodup := by
  unfold snapshotOf
  rw [((List.perm_insertionSort _ _).map _).nodup_iff]
  unfold selectCopies
  rw [List.map_flatMap, List.nodup_flatMap]
  constructor
  . -- The copies of one job differ in their position.
    intro job _
    rw [List.Nodup, List.pairwise_map]
    unfold selectJob
    rw [List.pairwise_map]
    apply List.Pairwise.filter
    have hrange : (List.range' 0 job.deliveries.length).Nodup := List.nodup_range'
    rw [← List.zipIdx_map_snd 0 job.deliveries, List.Nodup, List.pairwise_map] at hrange
    apply hrange.imp
    rintro ⟨a, i⟩ ⟨b, j⟩ hij heq
    exact hij (Prod.mk.inj heq).2
  . -- Two jobs differ in their identifier, which is the key they are stored under.
    rw [List.pairwise_map]
    have hkeys := Table.nodup_keys_toList s.jobs
    rw [List.Nodup, List.pairwise_map] at hkeys
    apply hkeys.imp_of_mem
    intro left right hleft hright hne
    rw [Function.onFun, List.disjoint_left]
    intro pair hpair hpair'
    obtain ⟨selected, hselected, rfl⟩ := List.mem_map.mp hpair
    obtain ⟨selected', hselected', heq⟩ := List.mem_map.mp hpair'
    have hjob := (mem_selectJob.mp hselected).1
    have hjob' := (mem_selectJob.mp hselected').1
    have hid := (hinv.jobs _ _ ((Table.mem_toList _ _ _).mp hleft)).1
    have hid' := (hinv.jobs _ _ ((Table.mem_toList _ _ _).mp hright)).1
    apply hne
    rw [← hid, ← hid', ← hjob, ← hjob']
    exact (Prod.mk.inj heq).1.symm

theorem snapshotOf_pairwise
    : (snapshotOf nextHop nextHopKey kinds s).Pairwise (fun a b =>
        a.job.jobId = b.job.jobId → a.job = b.job ∧ a.index ≠ b.index ∧
          ¬MatchesOnce nextHop nextHopKey kinds b.job) := by
  -- A job that occurs twice in a snapshot has two copies that match.
  have hnodup : ((snapshotOf nextHop nextHopKey kinds s).map _).Nodup := snapshotOf_nodup hinv
  rw [List.Nodup, List.pairwise_map] at hnodup
  apply hnodup.imp_of_mem
  intro a b ha hb hne hid
  obtain ⟨hvalid, hmatch⟩ := snapshotOf_valid hinv ha
  obtain ⟨hvalid', hmatch'⟩ := snapshotOf_valid hinv hb
  have hjob := hvalid.job
  rw [hid, hvalid'.job] at hjob
  injection hjob with hjob
  have hindex : a.index ≠ b.index := by
    intro hindex
    exact hne (Prod.ext hid hindex)
  refine ⟨hjob.symm, hindex, ?_⟩
  intro honce
  have hcopy := hvalid.copy
  rw [← hjob] at hcopy hmatch
  exact hindex (honce _ _ _ _ hcopy hvalid'.copy hmatch hmatch')

theorem claimPollSnapshot_writes {now : UInt64} {rng : Rng} {s' : Store}
    {claims : List DeliveryClaim}
    (hguard : chained → ∀ (key : String) job, s.jobs[key]? = some job →
      MatchesOnce nextHop nextHopKey kinds job ∨ job.state = .active)
    (h : claimPollSnapshot nextHop nextHopKey kinds now rng s = .ok (claims, s'))
    : Writes chained creating s.ledger s.ledger s'.ledger := by
  refine claimAll_writes ?_ ?_ ?_ h
  . intro selected hmem
    exact (snapshotOf_valid hinv hmem).1
  . intro hc
    apply (snapshotOf_pairwise hinv).imp_of_mem
    intro a b _ hb hpair hid
    have hjob := (snapshotOf_valid hinv hb).1.job
    exact (hguard hc _ _ hjob).resolve_left (hpair hid).2.2
  . intro _ selected hmem
    exact ⟨_, (snapshotOf_valid hinv hmem).1.job, rfl⟩

end Snapshot

section Recover

variable {chained creating : Prop} {now retryAt : UInt64} {result : String}

theorem foldl_recoverJob_writes {origin : Ledger} {active : List OutboundJob}
    (horigin : ∀ job ∈ active, origin.jobs[job.jobId]? = some job)
    (hnodup : active.Pairwise (fun a b => a.jobId ≠ b.jobId)) {l : Ledger}
    (hcurrent : ∀ job ∈ active, l.jobs[job.jobId]? = some job)
    {events : Table String EventEntry}
    (h : active.foldlM
      (fun events job => appendEvent events (recoverJob now retryAt result job) (some job.state))
      l.events = .ok events)
    : Writes chained creating origin l
        ⟨active.foldl (fun jobs job => jobs.insert job.jobId (recoverJob now retryAt result job))
          l.jobs, events⟩ := by
  induction active generalizing l with
  | nil =>
    simp only [List.foldlM_nil, Except.pure_eq_ok, Except.ok.injEq] at h
    subst h
    exact .refl
  | cons job active ih =>
    simp only [List.foldlM_cons, Except.bind_ok_iff] at h
    obtain ⟨events₁, hfirst, hrest⟩ := h
    obtain ⟨hne, hnodup⟩ := List.pairwise_cons.mp hnodup
    have hwrite : Write chained creating _ _ _ :=
      .advance (horigin job (by simp)) (recoverJob_advance job now retryAt result)
        (fun _ => ⟨job, hcurrent job (by simp), rfl⟩) hfirst
    refine Relation.ReflTransGen.head hwrite (ih ?_ hnodup ?_ hrest)
    . intro job' hmem
      exact horigin job' (by simp [hmem])
    . intro job' hmem
      have hid : (recoverJob now retryAt result job).jobId ≠ job'.jobId := hne job' hmem
      dsimp only
      rw [Table.getElem?_insert_ne _ hid]
      exact hcurrent job' (by simp [hmem])

theorem recoverActive_writes {s s' : Store} (hinv : LedgerInv chained s.ledger) {count : UInt64}
    (h : recoverActive now retryAt result s = .ok (count, s'))
    : Writes chained creating s.ledger s.ledger s'.ledger := by
  obtain ⟨events, hevents, rfl⟩ := recoverActive_cases h
  have hstored : ∀ job ∈ activeJobs s, s.jobs[job.jobId]? = some job := by
    intro job hmem
    obtain ⟨⟨key, job'⟩, hpair, rfl⟩ := List.mem_map.mp (List.mem_filter.mp hmem).1
    have hget := (Table.mem_toList _ _ _).mp hpair
    rw [(hinv.jobs key job' hget).1]
    exact hget
  apply foldl_recoverJob_writes (l := s.ledger) hstored _ hstored hevents
  unfold activeJobs
  apply List.Pairwise.filter
  rw [List.pairwise_map]
  have hkeys := Table.nodup_keys_toList s.jobs
  rw [List.Nodup, List.pairwise_map] at hkeys
  apply hkeys.imp_of_mem
  intro left right hleft hright hne
  rw [(hinv.jobs _ _ ((Table.mem_toList _ _ _).mp hleft)).1,
    (hinv.jobs _ _ ((Table.mem_toList _ _ _).mp hright)).1]
  exact hne

end Recover

section Commit

def SubmissionClass.newId : SubmissionClass → Option String
  | .new jobId => some jobId
  | _ => none

theorem assignIds_fresh {s : Store} {classes classes' : List SubmissionClass} {assigned : List String}
    {rng : Rng} (h : assignIds s classes assigned rng = .ok classes')
    : (classes'.filterMap SubmissionClass.newId).Nodup ∧
        ∀ jobId ∈ classes'.filterMap SubmissionClass.newId,
          jobId ∉ assigned ∧ s.jobs[jobId]? = none ∧ ColonFree jobId := by
  induction classes generalizing assigned rng classes' with
  | nil =>
    simp only [assignIds, Except.ok.injEq] at h
    subst h
    simp
  | cons cls classes ih =>
    cases cls with
    | new empty =>
      simp only [assignIds, Except.bind_ok_iff, Except.ok.injEq, Prod.exists] at h
      obtain ⟨jobId, rng₁, hfresh, rest, hrest, rfl⟩ := h
      obtain ⟨htaken, bytes, hbytes⟩ := freshIdentifier_cases hfresh
      simp only [Bool.or_eq_false_iff, List.contains_eq_mem, decide_eq_false_iff_not] at htaken
      obtain ⟨hnodup, hmem⟩ := ih hrest
      simp only [List.filterMap_cons, SubmissionClass.newId, List.nodup_cons, List.mem_cons,
        forall_eq_or_imp]
      rw [Option.isSome_eq_false_iff, Option.isNone_iff_eq_none] at htaken
      refine ⟨⟨?_, hnodup⟩, ⟨htaken.2, htaken.1, ?_⟩, ?_⟩
      . intro hin
        exact (hmem jobId hin).1 (by simp)
      . rw [hbytes]
        exact identifierOf_colonFree (by decide) bytes
      . intro jobId' hin
        obtain ⟨hnot, hrest'⟩ := hmem jobId' hin
        simp only [List.mem_cons, not_or] at hnot
        exact ⟨hnot.2, hrest'⟩
    | existing jobId state =>
      simp only [assignIds, Except.bind_ok_iff, Except.ok.injEq] at h
      obtain ⟨rest, hrest, rfl⟩ := h
      rw [List.filterMap_cons_none rfl]
      exact ih hrest
    | conflict =>
      simp only [assignIds, Except.bind_ok_iff, Except.ok.injEq] at h
      obtain ⟨rest, hrest, rfl⟩ := h
      rw [List.filterMap_cons_none rfl]
      exact ih hrest

theorem commitJob_write {chained : Prop} {origin : Ledger} {identity : SubmissionIdentity}
    {jobId : String} {value : NewOutboundJob} {s s' : Store} {state : JobState}
    (hfree : ColonFree jobId) (hnew : s.jobs[jobId]? = none)
    (h : commitJob identity jobId value s = .ok (state, s'))
    : Write chained True origin s.ledger s'.ledger := by
  obtain ⟨t, events, _, _, _, hevents, _, rfl⟩ := commitJob_cases h
  exact Write.create (l := s.ledger) jobId value trivial hfree hnew hevents

theorem commitJobs_writes {chained : Prop} {origin : Ledger}
    {batch : List (SubmissionIdentity × SubmissionClass)} {newJobs : List NewOutboundJob}
    {s s' : Store} {outcomes : List CommitOutcome}
    (hnodup : (batch.filterMap (fun entry => entry.2.newId)).Nodup)
    (hnew : ∀ jobId ∈ batch.filterMap (fun entry => entry.2.newId),
      s.jobs[jobId]? = none ∧ ColonFree jobId)
    (h : commitJobs batch newJobs s = .ok (outcomes, s'))
    : Writes chained True origin s.ledger s'.ledger := by
  induction batch generalizing newJobs s outcomes with
  | nil =>
    simp only [commitJobs, Except.ok.injEq, Prod.mk.injEq] at h
    rw [h.2]
  | cons entry batch ih =>
    obtain ⟨identity, cls⟩ := entry
    cases cls with
    | new jobId =>
      cases newJobs with
      | nil => cases h
      | cons value newJobs =>
        simp only [commitJobs, Except.bind_ok_iff, Except.ok.injEq, Prod.mk.injEq,
          Prod.exists] at h
        obtain ⟨state, s₁, hfirst, outcomes₁, s₂, hrest, _, rfl⟩ := h
        simp only [List.filterMap_cons, SubmissionClass.newId, List.nodup_cons, List.mem_cons,
          forall_eq_or_imp] at hnodup hnew
        obtain ⟨⟨hnone, hfree⟩, hnew⟩ := hnew
        refine Relation.ReflTransGen.head (commitJob_write hfree hnone hfirst)
          (ih hnodup.2 ?_ hrest)
        intro jobId' hmem
        obtain ⟨hnone', hfree'⟩ := hnew jobId' hmem
        obtain ⟨t, events, _, _, _, _, _, rfl⟩ := commitJob_cases hfirst
        refine ⟨?_, hfree'⟩
        dsimp only
        rw [Table.getElem?_insert_ne, hnone']
        intro heq
        subst heq
        exact hnodup.1 hmem
    | existing jobId state =>
      simp only [commitJobs, Except.bind_ok_iff, Except.ok.injEq, Prod.mk.injEq, Prod.exists] at h
      obtain ⟨outcomes₁, s₂, hrest, _, rfl⟩ := h
      rw [List.filterMap_cons_none rfl] at hnodup hnew
      exact ih hnodup hnew hrest
    | conflict => cases h

theorem commitBatch_writes {chained : Prop} {origin : Ledger} {identities : List SubmissionIdentity}
    {build : BatchBuilder} {rng : Rng} {s s' : Store} {result : BatchCommit}
    (h : commitBatch identities build rng s = .ok (result, s'))
    : Writes chained True origin s.ledger s'.ledger := by
  obtain ⟨_, classes, _, ⟨_, _, rfl⟩ | ⟨assigned, newJobs, outcomes, _, hassigned, _, _, hcommit, _⟩⟩ :=
    commitBatch_cases h
  . exact .refl
  . obtain ⟨hnodup, hfresh⟩ := assignIds_fresh hassigned
    have hsub := List.filterMap_zip_sublist SubmissionClass.newId identities assigned
    apply commitJobs_writes (hnodup.sublist hsub) _ hcommit
    intro jobId hmem
    exact (hfresh jobId (hsub.subset hmem)).2

end Commit

/--
A poll snapshot takes several copies of a job only if the job is already active.
-/
def SnapshotGuard (s : Store) (op : Op) : Prop :=
  match op with
  | .claimPollSnapshot nextHop nextHopKey kinds _ _ =>
    ∀ (key : String) job, s.jobs[key]? = some job →
      MatchesOnce nextHop nextHopKey kinds job ∨ job.state = .active
  | _ => True

def Op.Creates (op : Op) : Prop :=
  match op with
  | .commitBatch .. => True
  | _ => False

theorem step_writes {chained : Prop} (c : Crypto) {s : Store} (hinv : LedgerInv chained s.ledger)
    {op : Op} (hguard : chained → SnapshotGuard s op)
    : Writes chained op.Creates s.ledger s.ledger (step c s op).2.ledger := by
  have hinbound : ArrivalsOnly s (step c s op).2 ∨ ClaimsOnly s (step c s op).2 →
      Writes chained op.Creates s.ledger s.ledger (step c s op).2.ledger := by
    rintro (h | h)
    . rw [h]
      exact .refl
    . rw [h]
      exact .refl
  have htransact : ∀ {α : Type} (body : Except StoreError (α × Store)) (answer : α → Answer),
      (∀ a s', body = .ok (a, s') → Writes chained op.Creates s.ledger s.ledger s'.ledger) →
      Writes chained op.Creates s.ledger s.ledger (transact s body answer).2.ledger :=
    fun _ _ h => transact_rel (R := fun s s' => Writes chained _ s.ledger s.ledger s'.ledger) .refl h
  cases op with
  | commitBatch identities build rng =>
    apply htransact
    intro _ _ h
    exact commitBatch_writes h
  | cancel application jobId now =>
    apply htransact
    intro _ _ h
    exact control_writes hinv cancelUpdate_updates h
  | retry application jobId now =>
    apply htransact
    intro _ _ h
    exact control_writes hinv retryUpdate_updates h
  | reroute application jobId now delivery =>
    apply htransact
    intro _ _ h
    exact control_writes hinv (rerouteUpdate_updates delivery) h
  | claimScheduled now selects rng =>
    apply htransact
    intro _ _ h
    exact claimMatching_writes hinv h
  | claimPollSnapshot nextHop nextHopKey kinds now rng =>
    apply htransact
    intro _ _ h
    exact claimPollSnapshot_writes hinv hguard h
  | finishDelivery jobId index token now outcome =>
    apply htransact
    intro _ _ h
    exact finishDelivery_writes hinv h
  | recoverActive now retryAt result =>
    apply htransact
    intro _ _ h
    exact recoverActive_writes hinv h
  | acknowledgeEvent application eventId =>
    simp only [step]
    split
    . exact .refl
    . next h => exact acknowledgeEvent_writes h
  | accept => exact hinbound (.inl (step_arrivalsOnly c s rfl))
  | removeDuplicateIdentity => exact hinbound (.inl (step_arrivalsOnly c s rfl))
  | _ => exact hinbound (.inr (step_claimsOnly c s rfl))

theorem step_ledgerInv {chained : Prop} (c : Crypto) {s : Store} (hinv : LedgerInv chained s.ledger)
    {op : Op} (hguard : chained → SnapshotGuard s op)
    : LedgerInv chained (step c s op).2.ledger :=
  ((step_writes c hinv hguard).inv hinv).1

theorem step_derived (c : Crypto) {s : Store} (hinv : LedgerInv False s.ledger) (op : Op)
    : Derived s.ledger (step c s op).2.ledger :=
  ((step_writes c hinv False.elim).inv hinv).2

theorem step_jobs_before (c : Crypto) {s : Store} (hinv : LedgerInv False s.ledger) {op : Op}
    (hop : ¬op.Creates) {key : String} {job' : OutboundJob}
    (hjob' : (step c s op).2.jobs[key]? = some job')
    : ∃ job, s.jobs[key]? = some job ∧ (job' = job ∨ Advance job job') := by
  cases hjob : s.jobs[key]? with
  | none =>
    have hwrites : Writes False op.Creates s.ledger s.ledger (step c s op).2.ledger :=
      step_writes c hinv False.elim
    have hnone := hwrites.jobs_none hop hjob
    rw [show (step c s op).2.ledger.jobs[key]? = some job' from hjob'] at hnone
    cases hnone
  | some job =>
    obtain ⟨job'', hjob'', hstep⟩ := step_derived c hinv op key job hjob
    rw [show (step c s op).2.ledger.jobs[key]? = some job' from hjob'] at hjob''
    injection hjob'' with heq
    exact ⟨job, rfl, heq ▸ hstep⟩

theorem run_ledgerInv (c : Crypto) (ops : List Op)
    : LedgerInv False ((storeMachine c).run .empty ops).ledger := by
  apply Machine.invariant (m := storeMachine c) (fun (s : Store) => LedgerInv False s.ledger)
  . intro s op hinv
    exact step_ledgerInv c hinv False.elim
  . exact empty_ledgerInv False

end Tith
