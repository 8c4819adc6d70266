import Tith.Store.Lemmas.Touches
import Tith.Store.Lemmas.Writes

/-!
This module contains the submission of batches over whole runs of the store: what a committed batch has
written, and that an idempotency key is bound to one job forever.
-/

namespace Tith

/--
The key of the submission table under which an identity is bound.
-/
def SubmissionIdentity.key (identity : SubmissionIdentity) : List UInt8 :=
  submissionKey identity.application identity.idempotencyKey

/--
The identifiers that a batch gives to its new jobs.
-/
def newIds (batch : List (SubmissionIdentity × SubmissionClass)) : List String :=
  batch.filterMap (fun entry => entry.2.newId)

theorem commitJob_eq {identity : SubmissionIdentity} {jobId : String} {value : NewOutboundJob}
    {s s' : Store} {state : JobState} (hinv : LedgerInv False s.ledger) (hfree : ColonFree jobId)
    (hnew : s.jobs[jobId]? = none) (h : commitJob identity jobId value s = .ok (state, s'))
    : ∃ t, value.identity = identity ∧ linkForward identity jobId value s = .ok t ∧
        state = (makeJob jobId value).state ∧
        s' = { s with
          records := t.records
          jobs := s.jobs.insert jobId (makeJob jobId value)
          items := s.items.insert jobId value.item
          submissions := s.submissions.insert identity.key ⟨jobId, identity.digest⟩
          events :=
            s.events.insert (eventId jobId 1)
              ⟨value.identity.application, false, nextEvent (makeJob jobId value) none []⟩ } := by
  obtain ⟨t, events, hidentity, _, hlink, hevents, hstate, rfl⟩ := commitJob_cases h
  obtain ⟨_, rfl⟩ :=
    appendEvent_ok (makeJob jobId value) (hinv.isLog_nil hnew) hinv.events hfree hevents
  exact ⟨t, hidentity, hlink, hstate, rfl⟩

/--
What a committed batch says about one of its submissions is what the store holds.
-/
def Answered (s : Store) (entry : SubmissionIdentity × SubmissionClass) (outcome : CommitOutcome)
    : Prop :=
  match entry.2 with
  | .existing jobId state => outcome = .existing jobId state
  | .new jobId =>
    ∃ job item event, outcome = .new jobId job.state ∧ s.jobs[jobId]? = some job ∧
      job.application = entry.1.application ∧ job.idempotencyKey = entry.1.idempotencyKey ∧
      job.digest = entry.1.digest ∧ s.items[jobId]? = some item ∧
      s.submissions[entry.1.key]? = some ⟨jobId, entry.1.digest⟩ ∧
      s.events[eventId jobId 1]? = some event ∧ event.event.previous = none
  | .conflict => False

/--
Nothing but the new jobs of a batch, with their items, keys and first events, has been written.
-/
structure OnlyAdded (batch : List (SubmissionIdentity × SubmissionClass)) (s s' : Store) : Prop where
  jobs : ∀ key, key ∉ newIds batch → s'.jobs[key]? = s.jobs[key]? ∧ s'.items[key]? = s.items[key]?
  submissions : ∀ k, (∀ entry ∈ batch, entry.2.newId ≠ none → entry.1.key ≠ k) →
    s'.submissions[k]? = s.submissions[k]?
  events : ∀ key, (∀ jobId ∈ newIds batch, eventId jobId 1 ≠ key) →
    s'.events[key]? = s.events[key]?

theorem Answered.kept {entry : SubmissionIdentity × SubmissionClass} {outcome : CommitOutcome}
    {batch : List (SubmissionIdentity × SubmissionClass)} {s s' : Store}
    (h : Answered s entry outcome) (hadded : OnlyAdded batch s s')
    (hid : ∀ jobId, entry.2.newId = some jobId → jobId ∉ newIds batch ∧ ColonFree jobId)
    (hfree : ∀ jobId ∈ newIds batch, ColonFree jobId)
    (hkey : ∀ other ∈ batch, other.1.key ≠ entry.1.key)
    : Answered s' entry outcome := by
  obtain ⟨identity, cls⟩ := entry
  cases cls with
  | new jobId =>
    obtain ⟨job, item, event, houtcome, hjob, happ, hikey, hdigest, hitem, hsubmission, hevent, hnone⟩ :=
      h
    obtain ⟨hnot, hcolon⟩ := hid jobId rfl
    obtain ⟨hjobs, hitems⟩ := hadded.jobs jobId hnot
    refine ⟨job, item, event, houtcome, hjobs.trans hjob, happ, hikey, hdigest, hitems.trans hitem,
      ?_, ?_, hnone⟩
    . rw [hadded.submissions _ (fun other hother _ => hkey other hother)]
      exact hsubmission
    . rw [hadded.events, hevent]
      intro jobId' hmem heq
      exact hnot ((eventId_inj (hfree jobId' hmem) hcolon heq).1 ▸ hmem)
  | existing jobId state => exact h
  | conflict => exact h

/--
A batch whose new identifiers are free and whose keys are all different.
-/
structure Ready (batch : List (SubmissionIdentity × SubmissionClass)) (s : Store) : Prop where
  ledger : LedgerInv False s.ledger
  nodup : (newIds batch).Nodup
  free : ∀ jobId ∈ newIds batch, s.jobs[jobId]? = none ∧ ColonFree jobId
  keys : (batch.map (fun entry => entry.1.key)).Nodup

theorem Ready.tail {entry : SubmissionIdentity × SubmissionClass}
    {batch : List (SubmissionIdentity × SubmissionClass)} {s : Store}
    (h : Ready (entry :: batch) s)
    : Ready batch s := by
  have hsub : List.Sublist (newIds batch) (newIds (entry :: batch)) :=
    (List.sublist_cons_self entry batch).filterMap _
  exact ⟨h.ledger, h.nodup.sublist hsub, fun jobId hmem => h.free jobId (hsub.subset hmem),
    (List.nodup_cons.mp h.keys).2⟩

theorem Ready.commit {identity : SubmissionIdentity} {jobId : String}
    {batch : List (SubmissionIdentity × SubmissionClass)} {value : NewOutboundJob} {s s' : Store}
    {state : JobState} (h : Ready ((identity, .new jobId) :: batch) s)
    (hcommit : commitJob identity jobId value s = .ok (state, s'))
    : Ready batch s' := by
  obtain ⟨hnone, hfree⟩ := h.free jobId (by simp [newIds, SubmissionClass.newId])
  have hnodup := h.nodup
  simp only [newIds, List.filterMap_cons, SubmissionClass.newId, List.nodup_cons] at hnodup
  have hwrite : Write False True s.ledger s.ledger s'.ledger := commitJob_write hfree hnone hcommit
  refine ⟨hwrite.inv h.ledger h.ledger (derived_refl _), hnodup.2, ?_, (List.nodup_cons.mp h.keys).2⟩
  intro jobId' hmem
  obtain ⟨hnone', hfree'⟩ := h.tail.free jobId' hmem
  obtain ⟨t, _, _, _, rfl⟩ := commitJob_eq h.ledger hfree hnone hcommit
  refine ⟨?_, hfree'⟩
  dsimp only
  rw [Table.getElem?_insert_ne, hnone']
  rintro rfl
  exact hnodup.1 hmem

theorem commitJob_onlyAdded {identity : SubmissionIdentity} {jobId : String}
    {batch : List (SubmissionIdentity × SubmissionClass)} {value : NewOutboundJob} {s s₁ s' : Store}
    {state : JobState} (h : Ready ((identity, .new jobId) :: batch) s)
    (hcommit : commitJob identity jobId value s = .ok (state, s₁)) (hrest : OnlyAdded batch s₁ s')
    : OnlyAdded ((identity, .new jobId) :: batch) s s' := by
  obtain ⟨hnone, hfree⟩ := h.free jobId (by simp [newIds, SubmissionClass.newId])
  obtain ⟨t, _, _, _, rfl⟩ := commitJob_eq h.ledger hfree hnone hcommit
  constructor
  . intro key hkey
    simp only [newIds, List.filterMap_cons, SubmissionClass.newId, List.mem_cons, not_or] at hkey
    obtain ⟨hjobs, hitems⟩ := hrest.jobs key hkey.2
    rw [hjobs, hitems]
    exact ⟨Table.getElem?_insert_ne _ (Ne.symm hkey.1) _, Table.getElem?_insert_ne _ (Ne.symm hkey.1) _⟩
  . intro k hk
    rw [hrest.submissions k (fun entry hmem => hk entry (by simp [hmem]))]
    exact Table.getElem?_insert_ne _ (hk (identity, .new jobId) (by simp) (by simp [SubmissionClass.newId])) _
  . intro key hkey
    rw [hrest.events key (fun jobId' hmem => hkey jobId' (by
      simp only [newIds, List.filterMap_cons, SubmissionClass.newId, List.mem_cons]
      exact .inr hmem))]
    exact Table.getElem?_insert_ne _ (hkey jobId (by simp [newIds, SubmissionClass.newId])) _

theorem commitJobs_effect {batch : List (SubmissionIdentity × SubmissionClass)}
    {newJobs : List NewOutboundJob} {s s' : Store} {outcomes : List CommitOutcome}
    (hready : Ready batch s) (h : commitJobs batch newJobs s = .ok (outcomes, s'))
    : List.Forall₂ (Answered s') batch outcomes ∧ OnlyAdded batch s s' := by
  induction batch generalizing newJobs s outcomes with
  | nil =>
    simp only [commitJobs, Except.ok.injEq, Prod.mk.injEq] at h
    obtain ⟨rfl, rfl⟩ := h
    exact ⟨.nil, ⟨fun _ _ => ⟨rfl, rfl⟩, fun _ _ => rfl, fun _ _ => rfl⟩⟩
  | cons entry batch ih =>
    obtain ⟨identity, cls⟩ := entry
    cases cls with
    | new jobId =>
      cases newJobs with
      | nil => cases h
      | cons value newJobs =>
        simp only [commitJobs, Except.bind_ok_iff, Except.ok.injEq, Prod.mk.injEq,
          Prod.exists] at h
        obtain ⟨state, s₁, hfirst, outcomes₁, s₂, hrest, rfl, rfl⟩ := h
        obtain ⟨hanswered, hadded⟩ := ih (hready.commit hfirst) hrest
        refine ⟨.cons ?_ hanswered, commitJob_onlyAdded hready hfirst hadded⟩
        obtain ⟨hnone, hfree⟩ := hready.free jobId (by simp [newIds, SubmissionClass.newId])
        have hnodup := hready.nodup
        simp only [newIds, List.filterMap_cons, SubmissionClass.newId, List.nodup_cons] at hnodup
        have hfirst' : Answered s₁ (identity, .new jobId) (.new jobId state) := by
          obtain ⟨t, rfl, _, rfl, rfl⟩ := commitJob_eq hready.ledger hfree hnone hfirst
          exact ⟨makeJob jobId value, value.item, _, rfl, Std.ExtTreeMap.getElem?_insert_self, rfl, rfl,
            rfl, Std.ExtTreeMap.getElem?_insert_self, Std.ExtTreeMap.getElem?_insert_self,
            Std.ExtTreeMap.getElem?_insert_self, rfl⟩
        apply hfirst'.kept hadded
        . intro jobId' heq
          injection heq with heq
          subst heq
          exact ⟨hnodup.1, hfree⟩
        . intro jobId' hmem
          exact (hready.tail.free jobId' hmem).2
        . intro other hmem heq
          exact (List.nodup_cons.mp hready.keys).1 (List.mem_map.mpr ⟨other, hmem, heq⟩)
    | existing jobId state =>
      simp only [commitJobs, Except.bind_ok_iff, Except.ok.injEq, Prod.mk.injEq, Prod.exists] at h
      obtain ⟨outcomes₁, s₂, hrest, rfl, rfl⟩ := h
      obtain ⟨hanswered, hadded⟩ := ih hready.tail hrest
      refine ⟨.cons rfl hanswered, ⟨hadded.jobs, ?_, hadded.events⟩⟩
      intro k hk
      exact hadded.submissions k (fun entry hmem => hk entry (by simp [hmem]))
    | conflict => cases h

/--
What the class of a submission says about the key of its identity.
-/
def Classified (s : Store) (identity : SubmissionIdentity) (cls : SubmissionClass) : Prop :=
  match cls with
  | .new _ => s.submissions[identity.key]? = none
  | .existing jobId state =>
    ∃ job, s.submissions[identity.key]? = some ⟨jobId, identity.digest⟩ ∧
      s.jobs[jobId]? = some job ∧ job.state = state
  | .conflict => ∃ entry, s.submissions[identity.key]? = some entry ∧ entry.digest ≠ identity.digest

theorem classify_classified {s : Store} {identity : SubmissionIdentity} {cls : SubmissionClass}
    (h : classify s identity = .ok cls)
    : Classified s identity cls := by
  unfold classify at h
  split at h
  . next hnone =>
    injection h with heq
    subst heq
    exact hnone
  . next entry hentry =>
    split at h
    . next hdigest =>
      simp only [Except.bind_ok_iff, Option.okOr_eq_ok, Except.ok.injEq] at h
      obtain ⟨job, hjob, rfl⟩ := h
      exact ⟨job, hdigest ▸ hentry, hjob, rfl⟩
    . next hdigest =>
      injection h with heq
      subst heq
      exact ⟨entry, hentry, hdigest⟩

theorem assignIds_classified {s : Store} {identities : List SubmissionIdentity}
    {classes classes' : List SubmissionClass} {assigned : List String} {rng : Rng}
    (hclasses : List.Forall₂ (Classified s) identities classes)
    (h : assignIds s classes assigned rng = .ok classes')
    : List.Forall₂ (Classified s) identities classes' := by
  induction hclasses generalizing assigned rng classes' with
  | nil =>
    simp only [assignIds, Except.ok.injEq] at h
    rw [← h]
    exact .nil
  | @cons identity cls identities classes hclass _ ih =>
    cases cls with
    | new empty =>
      simp only [assignIds, Except.bind_ok_iff, Except.ok.injEq, Prod.exists] at h
      obtain ⟨jobId, _, _, rest, hrest, rfl⟩ := h
      exact .cons hclass (ih hrest)
    | existing jobId state =>
      simp only [assignIds, Except.bind_ok_iff, Except.ok.injEq] at h
      obtain ⟨rest, hrest, rfl⟩ := h
      exact .cons hclass (ih hrest)
    | conflict =>
      simp only [assignIds, Except.bind_ok_iff, Except.ok.injEq] at h
      obtain ⟨rest, hrest, rfl⟩ := h
      exact .cons hclass (ih hrest)

/--
The positions, counted from one, of the identities whose key is bound with another digest.
-/
def differing (s : Store) (identities : List SubmissionIdentity) : List Nat :=
  identities.zipIdx.filterMap (fun (identity, position) =>
    if s.submissions[identity.key]?.any (fun entry => entry.digest ≠ identity.digest) then
      some (position + 1)
    else
      none)

theorem conflictPositions_eq {s : Store} {identities : List SubmissionIdentity}
    {classes : List SubmissionClass} (h : List.Forall₂ (Classified s) identities classes)
    : conflictPositions classes = differing s identities := by
  unfold conflictPositions differing
  generalize 0 = start
  induction h generalizing start with
  | nil => rfl
  | @cons identity cls identities classes hclass _ ih =>
    have hcond : (s.submissions[identity.key]?.any (fun entry => entry.digest ≠ identity.digest)) =
        decide (cls = .conflict) := by
      cases cls with
      | new jobId =>
        have hnone : s.submissions[identity.key]? = none := hclass
        rw [hnone]
        rfl
      | existing jobId state =>
        obtain ⟨job, hentry, _⟩ := hclass
        rw [hentry]
        simp
      | conflict =>
        obtain ⟨entry, hentry, hne⟩ := hclass
        rw [hentry]
        simp [hne]
    simp only [List.zipIdx_cons, List.filterMap_cons, ih, hcond, decide_eq_true_eq]

theorem submissionKey_inj {application application' : Application} {key key' : String}
    (h : submissionKey application key = submissionKey application' key')
    : application = application' ∧ key = key' :=
  claimMappingKey_inj h

/--
The jobs and the submission table name each other, and a job that forwards an inbound record is the
one the record is linked to.
-/
structure SubmissionInv (s : Store) : Prop where
  bound : ∀ (key : String) job, s.jobs[key]? = some job →
    s.submissions[submissionKey job.application job.idempotencyKey]? = some ⟨key, job.digest⟩
  job : ∀ (k : List UInt8) entry, s.submissions[k]? = some entry →
    ∃ job, s.jobs[entry.jobId]? = some job
  forward : ∀ (key : String) job inboundId, s.jobs[key]? = some job →
    job.forwardInbound = some inboundId →
    ∃ record, s.records[inboundId]? = some record ∧ record.forwardJob = some key

theorem empty_submissionInv : SubmissionInv .empty := by
  constructor
  . intro key job h
    simp [Store.empty] at h
  . intro k entry h
    simp [Store.empty] at h
  . intro key job inboundId h
    simp [Store.empty] at h

/--
An operation that keeps the submission table, rewrites jobs by steps and does not unlink records.
-/
theorem SubmissionInv.keep {s s' : Store} (hinv : SubmissionInv s)
    (hsubmissions : s'.submissions = s.submissions) (hderived : Derived s.ledger s'.ledger)
    (hbefore : ∀ (key : String) job', s'.jobs[key]? = some job' →
      ∃ job, s.jobs[key]? = some job ∧ (job' = job ∨ Advance job job'))
    (hrecords : ∀ (id : String) record, s.records[id]? = some record →
      ∃ record', s'.records[id]? = some record' ∧
        (record.forwardJob ≠ none → record'.forwardJob = record.forwardJob))
    : SubmissionInv s' := by
  constructor
  . intro key job' hjob'
    rw [hsubmissions]
    obtain ⟨job, hjob, rfl | hadvance⟩ := hbefore key job' hjob'
    . exact hinv.bound key job' hjob
    . rw [hadvance.application, hadvance.idempotencyKey, hadvance.digest]
      exact hinv.bound key job hjob
  . intro k entry hentry
    rw [hsubmissions] at hentry
    obtain ⟨job, hjob⟩ := hinv.job k entry hentry
    obtain ⟨job', hjob', _⟩ := hderived _ job hjob
    exact ⟨job', hjob'⟩
  . intro key job' inboundId hjob' hforward
    have hold : ∃ job, s.jobs[key]? = some job ∧ job.forwardInbound = some inboundId := by
      obtain ⟨job, hjob, rfl | hadvance⟩ := hbefore key job' hjob'
      . exact ⟨job', hjob, hforward⟩
      . exact ⟨job, hjob, hadvance.forwardInbound ▸ hforward⟩
    obtain ⟨job, hjob, hforward⟩ := hold
    obtain ⟨record, hrecord, hlinked⟩ := hinv.forward key job inboundId hjob hforward
    obtain ⟨record', hrecord', hkept⟩ := hrecords inboundId record hrecord
    exact ⟨record', hrecord', (hkept (by simp [hlinked])).trans hlinked⟩

theorem commitJob_submissionInv {identity : SubmissionIdentity} {jobId : String}
    {value : NewOutboundJob} {s s' : Store} {state : JobState} (hledger : LedgerInv False s.ledger)
    (hinv : SubmissionInv s) (hfree : ColonFree jobId) (hnew : s.jobs[jobId]? = none)
    (hunbound : s.submissions[identity.key]? = none)
    (h : commitJob identity jobId value s = .ok (state, s'))
    : SubmissionInv s' := by
  obtain ⟨t, rfl, hlink, _, rfl⟩ := commitJob_eq hledger hfree hnew h
  constructor
  . intro key job hget
    rcases Table.getElem?_insert_some hget with ⟨rfl, rfl⟩ | ⟨_, hold⟩
    . exact Std.ExtTreeMap.getElem?_insert_self
    . have hbound := hinv.bound key job hold
      dsimp only
      rw [Table.getElem?_insert_ne, hbound]
      intro heq
      rw [heq, hbound] at hunbound
      cases hunbound
  . intro k entry hget
    dsimp only
    rw [Table.getElem?_insert]
    split
    . exact ⟨_, rfl⟩
    . next hne =>
      rcases Table.getElem?_insert_some hget with ⟨_, rfl⟩ | ⟨_, hold⟩
      . exact absurd rfl hne
      . exact hinv.job k entry hold
  . intro key job inboundId hget hforward
    obtain ⟨hnone, rfl⟩ | ⟨inboundId', token, record, hsome, _, hrecord, _, _, hunlinked, rfl⟩ :=
      linkForward_cases hlink
    . rcases Table.getElem?_insert_some hget with ⟨rfl, rfl⟩ | ⟨_, hold⟩
      . have heq : value.forwardInbound = some inboundId := hforward
        rw [hnone] at heq
        cases heq
      . exact hinv.forward key job inboundId hold hforward
    . rcases Table.getElem?_insert_some hget with ⟨rfl, rfl⟩ | ⟨_, hold⟩
      . have heq : value.forwardInbound = some inboundId := hforward
        rw [hsome] at heq
        injection heq with heq
        subst heq
        exact ⟨_, Std.ExtTreeMap.getElem?_insert_self, rfl⟩
      . obtain ⟨record', hrecord', hlinked⟩ := hinv.forward key job inboundId hold hforward
        refine ⟨record', ?_, hlinked⟩
        dsimp only
        rw [Table.getElem?_insert_ne, hrecord']
        rintro rfl
        rw [hrecord] at hrecord'
        injection hrecord' with heq
        rw [heq, hlinked] at hunlinked
        cases hunlinked

theorem commitJobs_submissionInv {batch : List (SubmissionIdentity × SubmissionClass)}
    {newJobs : List NewOutboundJob} {s s' : Store} {outcomes : List CommitOutcome}
    (hready : Ready batch s) (hinv : SubmissionInv s)
    (hunbound : ∀ entry ∈ batch, entry.2.newId ≠ none → s.submissions[entry.1.key]? = none)
    (h : commitJobs batch newJobs s = .ok (outcomes, s'))
    : SubmissionInv s' := by
  induction batch generalizing newJobs s outcomes with
  | nil =>
    simp only [commitJobs, Except.ok.injEq, Prod.mk.injEq] at h
    exact h.2 ▸ hinv
  | cons entry batch ih =>
    obtain ⟨identity, cls⟩ := entry
    cases cls with
    | new jobId =>
      cases newJobs with
      | nil => cases h
      | cons value newJobs =>
        simp only [commitJobs, Except.bind_ok_iff, Except.ok.injEq, Prod.mk.injEq,
          Prod.exists] at h
        obtain ⟨state, s₁, hfirst, outcomes₁, s₂, hrest, rfl, rfl⟩ := h
        obtain ⟨hnone, hfree⟩ := hready.free jobId (by simp [newIds, SubmissionClass.newId])
        have hkey := hunbound (identity, .new jobId) (by simp) (by simp [SubmissionClass.newId])
        have hinv₁ := commitJob_submissionInv hready.ledger hinv hfree hnone hkey hfirst
        apply ih (hready.commit hfirst) hinv₁ _ hrest
        intro entry hmem hnew
        obtain ⟨t, _, _, _, rfl⟩ := commitJob_eq hready.ledger hfree hnone hfirst
        dsimp only
        rw [Table.getElem?_insert_ne, hunbound entry (by simp [hmem]) hnew]
        intro heq
        exact (List.nodup_cons.mp hready.keys).1 (List.mem_map.mpr ⟨entry, hmem, heq.symm⟩)
    | existing jobId state =>
      simp only [commitJobs, Except.bind_ok_iff, Except.ok.injEq, Prod.mk.injEq, Prod.exists] at h
      obtain ⟨outcomes₁, s₂, hrest, rfl, rfl⟩ := h
      exact ih hready.tail hinv (fun entry hmem => hunbound entry (by simp [hmem])) hrest
    | conflict => cases h

def CommitOutcome.newId : CommitOutcome → Option String
  | .new jobId _ => some jobId
  | .existing _ _ => none

/--
What a committed batch answers for one identity: the job its key is bound to if there is one, or a
new job that is now in every table.
-/
def Submitted (s s' : Store) (identity : SubmissionIdentity) (outcome : CommitOutcome) : Prop :=
  match s.submissions[identity.key]? with
  | some entry =>
    entry.digest = identity.digest ∧
      ∃ job, s.jobs[entry.jobId]? = some job ∧ outcome = .existing entry.jobId job.state
  | none =>
    ∃ jobId job item event, outcome = .new jobId job.state ∧ s.jobs[jobId]? = none ∧
      s'.jobs[jobId]? = some job ∧ job.application = identity.application ∧
      job.idempotencyKey = identity.idempotencyKey ∧ job.digest = identity.digest ∧
      s'.items[jobId]? = some item ∧
      s'.submissions[identity.key]? = some ⟨jobId, identity.digest⟩ ∧
      s'.events[eventId jobId 1]? = some event ∧ event.event.previous = none

/--
All new jobs of a batch are there, and no other job, item or event has been added.
-/
structure BatchCommitted (s s' : Store) (identities : List SubmissionIdentity)
    (outcomes : List CommitOutcome)
    : Prop where
  submitted : List.Forall₂ (Submitted s s') identities outcomes
  jobs : ∀ key, key ∉ outcomes.filterMap CommitOutcome.newId →
    s'.jobs[key]? = s.jobs[key]? ∧ s'.items[key]? = s.items[key]?
  events : ∀ key, (∀ jobId ∈ outcomes.filterMap CommitOutcome.newId, eventId jobId 1 ≠ key) →
    s'.events[key]? = s.events[key]?

theorem newIds_eq_of_answered {s : Store} {batch : List (SubmissionIdentity × SubmissionClass)}
    {outcomes : List CommitOutcome} (h : List.Forall₂ (Answered s) batch outcomes)
    : newIds batch = outcomes.filterMap CommitOutcome.newId := by
  induction h with
  | nil => rfl
  | @cons entry outcome batch outcomes hanswered _ ih =>
    obtain ⟨identity, cls⟩ := entry
    cases cls with
    | new jobId =>
      obtain ⟨job, item, event, rfl, _⟩ := hanswered
      simp only [newIds, List.filterMap_cons, SubmissionClass.newId, CommitOutcome.newId]
      rw [← ih]
      rfl
    | existing jobId state =>
      have heq : outcome = .existing jobId state := hanswered
      subst heq
      simp only [newIds, List.filterMap_cons, SubmissionClass.newId, CommitOutcome.newId]
      exact ih
    | conflict => exact hanswered.elim

/--
The invariants that a batch relies on.
-/
structure BatchInv (s : Store) : Prop where
  ledger : LedgerInv False s.ledger
  inbox : InboxInv s.inbox
  submissions : SubmissionInv s

section Batch

variable {s s' : Store} {identities : List SubmissionIdentity} {assigned : List SubmissionClass}

theorem ready_of_assigned {classes : List SubmissionClass} {rng : Rng} (hinv : BatchInv s)
    (hvalid : identitiesValid identities) (hlength : identities.length = assigned.length)
    (hassigned : assignIds s classes [] rng = .ok assigned)
    : Ready (identities.zip assigned) s := by
  obtain ⟨hnodup, hfresh⟩ := assignIds_fresh hassigned
  have hsub := List.filterMap_zip_sublist SubmissionClass.newId identities assigned
  refine ⟨hinv.ledger, hnodup.sublist hsub, fun jobId hmem => (hfresh jobId (hsub.subset hmem)).2, ?_⟩
  have hkeys : (identities.zip assigned).map (fun entry => entry.1.key) =
      identities.map SubmissionIdentity.key := by
    have hfst := List.map_fst_zip (Nat.le_of_eq hlength)
    conv_rhs => rw [← hfst, List.map_map]
    rfl
  rw [hkeys]
  exact hvalid.2.2

variable (hclassified : List.Forall₂ (Classified s) identities assigned)

include hclassified

theorem unbound_of_classified {entry : SubmissionIdentity × SubmissionClass}
    (hmem : entry ∈ identities.zip assigned) (hnew : entry.2.newId ≠ none)
    : s.submissions[entry.1.key]? = none := by
  obtain ⟨identity, cls⟩ := entry
  have hclass := List.forall₂_zip hclassified hmem
  cases cls with
  | new jobId => exact hclass
  | existing jobId state => exact absurd rfl hnew
  | conflict => exact absurd rfl hnew

theorem batchCommitted_of_effect {outcomes : List CommitOutcome}
    (hready : Ready (identities.zip assigned) s)
    (hanswered : List.Forall₂ (Answered s') (identities.zip assigned) outcomes)
    (hadded : OnlyAdded (identities.zip assigned) s s')
    : BatchCommitted s s' identities outcomes := by
  have hids := newIds_eq_of_answered hanswered
  refine ⟨hclassified.zip_trans hanswered ?_, hids ▸ hadded.jobs, hids ▸ hadded.events⟩
  intro identity cls outcome hmem hclass hanswer
  unfold Submitted
  cases cls with
  | new jobId =>
    rw [show s.submissions[identity.key]? = none from hclass]
    obtain ⟨job, item, event, houtcome, hrest⟩ := hanswer
    have hid : jobId ∈ newIds (identities.zip assigned) :=
      List.mem_filterMap.mpr ⟨_, hmem, rfl⟩
    exact ⟨jobId, job, item, event, houtcome, (hready.free jobId hid).1, hrest⟩
  | existing jobId state =>
    obtain ⟨job, hentry, hjob, rfl⟩ := hclass
    rw [hentry]
    exact ⟨rfl, job, hjob, hanswer⟩
  | conflict => exact hanswer.elim

end Batch

theorem commitBatch_batch {s s' : Store} (hinv : BatchInv s) {identities : List SubmissionIdentity}
    {build : BatchBuilder} {rng : Rng} {result : BatchCommit}
    (h : commitBatch identities build rng s = .ok (result, s'))
    : (result = .conflict (differing s identities) ∧ differing s identities ≠ [] ∧ s' = s) ∨
        ∃ assigned newJobs outcomes, result = .committed outcomes ∧ differing s identities = [] ∧
          List.Forall₂ (Classified s) identities assigned ∧ Ready (identities.zip assigned) s ∧
          build assigned (claimedInbound s) = .ok newJobs ∧
          commitJobs (identities.zip assigned) newJobs s = .ok (outcomes, s') := by
  obtain ⟨hvalid, classes, hclasses, hcases⟩ := commitBatch_cases h
  have hclassified : List.Forall₂ (Classified s) identities classes :=
    (Except.mapM_forall₂ hclasses).imp (fun _ _ hclass => classify_classified hclass)
  rw [conflictPositions_eq hclassified] at hcases
  obtain ⟨hconflict, hresult, rfl⟩ |
    ⟨assigned, newJobs, outcomes, hconflict, hassigned, hbuild, _, hcommit, hresult⟩ := hcases
  . exact .inl ⟨hresult, hconflict, rfl⟩
  . have hclassified' := assignIds_classified hclassified hassigned
    exact .inr ⟨assigned, newJobs, outcomes, hresult, hconflict, hclassified',
      ready_of_assigned hinv hvalid hclassified'.length_eq hassigned, hbuild, hcommit⟩

theorem commitBatch_effect {s s' : Store} (hinv : BatchInv s) {identities : List SubmissionIdentity}
    {build : BatchBuilder} {rng : Rng} {result : BatchCommit}
    (h : commitBatch identities build rng s = .ok (result, s'))
    : (result = .conflict (differing s identities) ∧ differing s identities ≠ [] ∧ s' = s) ∨
        ∃ outcomes, result = .committed outcomes ∧ differing s identities = [] ∧
          BatchCommitted s s' identities outcomes ∧ SubmissionInv s' ∧
          ∀ (k : List UInt8) entry, s.submissions[k]? = some entry → s'.submissions[k]? = some entry := by
  obtain hconflict | ⟨assigned, newJobs, outcomes, hresult, hconflict, hclassified, hready, _, hcommit⟩ :=
    commitBatch_batch hinv h
  . exact .inl hconflict
  . obtain ⟨hanswered, hadded⟩ := commitJobs_effect hready hcommit
    have hunbound := fun entry (hmem : entry ∈ identities.zip assigned) =>
      unbound_of_classified hclassified hmem
    refine .inr ⟨outcomes, hresult, hconflict,
      batchCommitted_of_effect hclassified hready hanswered hadded,
      commitJobs_submissionInv hready hinv.submissions hunbound hcommit, ?_⟩
    intro k entry hentry
    rw [hadded.submissions k, hentry]
    rintro other hmem hnew rfl
    rw [hunbound other hmem hnew] at hentry
    cases hentry

theorem commitBatch_submissions {s s' : Store} (hinv : BatchInv s) {identities : List SubmissionIdentity}
    {build : BatchBuilder} {rng : Rng} {result : BatchCommit}
    (h : commitBatch identities build rng s = .ok (result, s')) {k : List UInt8}
    (hk : ∀ identity ∈ identities, identity.key ≠ k)
    : s'.submissions[k]? = s.submissions[k]? := by
  -- A batch binds no key but those of its identities.
  obtain ⟨_, _, rfl⟩ | ⟨assigned, newJobs, outcomes, _, _, _, hready, _, hcommit⟩ :=
    commitBatch_batch hinv h
  . rfl
  . obtain ⟨_, hadded⟩ := commitJobs_effect hready hcommit
    apply hadded.submissions
    intro entry hmem _
    exact hk entry.1 (List.of_mem_zip hmem).1

theorem commitBatch_conflict {s : Store} (hinv : BatchInv s) {identities : List SubmissionIdentity}
    (hvalid : identitiesValid identities) (hdiffer : differing s identities ≠ [])
    (build : BatchBuilder) (rng : Rng)
    : commitBatch identities build rng s = .ok (.conflict (differing s identities), s) := by
  obtain ⟨classes, hclasses⟩ : ∃ classes, identities.mapM (classify s) = .ok classes := by
    apply Except.mapM_isOk
    intro identity _
    unfold classify
    split
    . exact ⟨_, rfl⟩
    . next entry hentry =>
      split
      . obtain ⟨job, hjob⟩ := hinv.submissions.job _ entry hentry
        exact ⟨_, by rw [hjob]; rfl⟩
      . exact ⟨_, rfl⟩
  have hclassified : List.Forall₂ (Classified s) identities classes :=
    (Except.mapM_forall₂ hclasses).imp (fun _ _ hclass => classify_classified hclass)
  unfold commitBatch
  rw [if_neg (not_not.mpr hvalid), hclasses]
  simp only [Except.bind_of_ok, conflictPositions_eq hclassified]
  rw [if_pos hdiffer]

theorem step_submissions (c : Crypto) (s : Store) {op : Op} (hop : ¬op.Creates)
    : (step c s op).2.submissions = s.submissions := by
  -- The submission table is only written by batches.
  cases hside : op.side with
  | arrival => rw [step_arrivalsOnly c s hside]
  | claims => rw [step_claimsOnly c s hside]
  | batch =>
    cases op with
    | commitBatch => exact absurd trivial hop
    | _ => cases hside
  | delivery => rw [step_ledgerOnly c s hside]

/--
The keys that are bound and the records that are linked stay so.
-/
structure BindingsKept (s s' : Store) : Prop where
  submissions : ∀ (k : List UInt8) entry, s.submissions[k]? = some entry →
    s'.submissions[k]? = some entry
  forward : ∀ (id : String) record jobId, s.records[id]? = some record →
    record.forwardJob = some jobId →
    ∃ record', s'.records[id]? = some record' ∧ record'.forwardJob = some jobId

theorem Touches.forward_kept {fresh : Prop} {allowed : Label → Prop} {b b' : Inbox}
    (h : Touches fresh allowed b b') {id : String} {record : InboundRecord}
    (hrecord : b.records[id]? = some record)
    : ∃ record', b'.records[id]? = some record' ∧
        (record.forwardJob ≠ none → record'.forwardJob = record.forwardJob) := by
  induction h with
  | refl => exact ⟨record, hrecord, fun _ => rfl⟩
  | tail _ hstep ih =>
    obtain ⟨label, _, htouch⟩ := hstep
    obtain ⟨record', hrecord', hforward⟩ := ih
    obtain ⟨record'', hrecord'', hkept⟩ := htouch.record_kept hrecord'
    refine ⟨record'', hrecord'', ?_⟩
    intro hne
    rw [← hforward hne]
    exact hkept.forwardJob (hforward hne ▸ hne)

theorem step_batchInv (c : Crypto) {s : Store} (hinv : BatchInv s) (op : Op)
    : BatchInv (step c s op).2 ∧ BindingsKept s (step c s op).2 := by
  have hledger : LedgerInv False (step c s op).2.ledger := step_ledgerInv c hinv.ledger False.elim
  have htouches : Touches False op.Allows s.inbox (step c s op).2.inbox :=
    step_touches False c hinv.inbox False.elim
  have hforward : ∀ (id : String) record jobId, s.records[id]? = some record →
      record.forwardJob = some jobId →
      ∃ record', (step c s op).2.records[id]? = some record' ∧ record'.forwardJob = some jobId := by
    intro id record jobId hrecord hlinked
    obtain ⟨record', hrecord', hkept⟩ := htouches.forward_kept hrecord
    exact ⟨record', hrecord', (hkept (by simp [hlinked])).trans hlinked⟩
  by_cases hop : op.Creates
  . cases op with
    | commitBatch identities build rng =>
      rcases transact_cases s (commitBatch identities build rng s) Answer.batch with
        ⟨e, _, heq⟩ | ⟨result, s', hok, heq⟩
      . have hs : (step c s (.commitBatch identities build rng)).2 = s := by simp only [step, heq]
        rw [hs]
        exact ⟨hinv, ⟨fun _ _ h => h, fun _ record _ h h' => ⟨record, h, h'⟩⟩⟩
      . have hs : (step c s (.commitBatch identities build rng)).2 = s' := by simp only [step, heq]
        rw [hs] at hledger htouches hforward ⊢
        obtain ⟨_, _, rfl⟩ | ⟨outcomes, _, _, _, hsubmission, hbound⟩ := commitBatch_effect hinv hok
        . exact ⟨hinv, ⟨fun _ _ h => h, hforward⟩⟩
        . exact ⟨⟨hledger, htouches.inv hinv.inbox, hsubmission⟩, ⟨hbound, hforward⟩⟩
    | _ => exact hop.elim
  . have hsubmissions := step_submissions c s hop
    refine ⟨⟨hledger, htouches.inv hinv.inbox, ?_⟩, ⟨?_, hforward⟩⟩
    . apply hinv.submissions.keep hsubmissions (step_derived c hinv.ledger op)
      . intro key job' hjob'
        exact step_jobs_before c hinv.ledger hop hjob'
      . intro id record hrecord
        exact htouches.forward_kept hrecord
    . intro k entry hentry
      rw [hsubmissions]
      exact hentry

theorem empty_batchInv : BatchInv .empty :=
  ⟨empty_ledgerInv False, empty_inboxInv, empty_submissionInv⟩

theorem run_batchInv (c : Crypto) {s : Store} (hinv : BatchInv s) (ops : List Op)
    : BatchInv ((storeMachine c).run s ops) := by
  apply Machine.invariant (m := storeMachine c) BatchInv _ hinv
  intro s op hinv
  exact (step_batchInv c hinv op).1

theorem run_bindingsKept (c : Crypto) {s : Store} (hinv : BatchInv s) (ops : List Op)
    : BindingsKept s ((storeMachine c).run s ops) := by
  apply Machine.relates_along (m := storeMachine c) (fun _ _ => True) BatchInv BindingsKept
  . intro s
    exact ⟨fun _ _ h => h, fun _ record _ h h' => ⟨record, h, h'⟩⟩
  . intro s t u h h'
    refine ⟨fun k entry hentry => h'.submissions k entry (h.submissions k entry hentry), ?_⟩
    intro id record jobId hrecord hlinked
    obtain ⟨record', hrecord', hlinked'⟩ := h.forward id record jobId hrecord hlinked
    exact h'.forward id record' jobId hrecord' hlinked'
  . intro s op hinv _
    exact (step_batchInv c hinv op).1
  . intro s op hinv _
    exact (step_batchInv c hinv op).2
  . exact hinv
  . apply Machine.along_true

end Tith
