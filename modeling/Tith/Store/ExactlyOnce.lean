import Tith.Store.Submission

/-!
This module contains when the store takes a batch, and that it does so exactly once: a repetition of a
batch is answered with the jobs of the first one and writes nothing.
-/

namespace Tith

/--
The job to which an earlier batch has bound the key and the digest of an identity, with its state.
-/
def Bound (s : Store) (identity : SubmissionIdentity) (earlier : String × JobState) : Prop :=
  s.submissions[identity.key]? = some ⟨earlier.1, identity.digest⟩ ∧
    ∃ job, s.jobs[earlier.1]? = some job ∧ job.state = earlier.2

def unbound (s : Store) (identities : List SubmissionIdentity) : List SubmissionIdentity :=
  identities.filter (fun identity => s.submissions[identity.key]?.isNone)

/--
The job is one for the identity, and a record that it forwards is claimed and not yet forwarded.
-/
structure Commits (s : Store) (identity : SubmissionIdentity) (value : NewOutboundJob) : Prop where
  same : value.identity = identity
  valid : validateNewJob value = .ok ()
  forward : ∀ inboundId, value.forwardInbound = some inboundId →
    ∃ token record payload, value.forwardClaimToken = some token ∧
      s.records[inboundId]? = some record ∧ s.payloads[inboundId]? = some payload ∧
      record.application = identity.application ∧ record.isHeld token value.created = true ∧
      record.forwardJob = none

/--
One job for each of the new submissions, and no record forwarded by two of them.
-/
structure CommitsAll (s : Store) (identities : List SubmissionIdentity) (newJobs : List NewOutboundJob)
    : Prop where
  takes : List.Forall₂ (Commits s) identities newJobs
  forwards : (newJobs.filterMap (·.forwardInbound)).Nodup

section Commit

variable {s s' : Store} {identity : SubmissionIdentity} {jobId : String} {value : NewOutboundJob}

theorem claimedInbound_isOk {application : Application} {inboundId claimToken : String} {now : UInt64}
    {record : InboundRecord} {payload : List UInt8} (hrecord : s.records[inboundId]? = some record)
    (hpayload : s.payloads[inboundId]? = some payload) (happ : record.application = application)
    (hheld : record.isHeld claimToken now = true) (hforward : record.forwardJob = none)
    : claimedInbound s application inboundId claimToken now = .ok ⟨record, payload⟩ := by
  simp only [InboundRecord.isHeld, decide_eq_true_eq] at hheld
  unfold claimedInbound
  rw [hrecord, hpayload, Option.okOr_some, Except.bind_of_ok, if_neg]
  . rw [hforward]
    rfl
  . simp [happ, hheld]

theorem linkForward_isOk
    : (∃ t, linkForward identity jobId value s = .ok t) ↔
        ∀ inboundId, value.forwardInbound = some inboundId →
          ∃ token record payload, value.forwardClaimToken = some token ∧
            s.records[inboundId]? = some record ∧ s.payloads[inboundId]? = some payload ∧
            record.application = identity.application ∧ record.isHeld token value.created = true ∧
            record.forwardJob = none := by
  constructor
  . rintro ⟨t, h⟩ inboundId hsome
    simp only [linkForward, hsome, Except.bind_ok_iff, Option.okOr_eq_ok] at h
    obtain ⟨token, htoken, forward, hforward, _⟩ := h
    obtain ⟨hrecord, happ, hheld, hnone, hpayload⟩ := claimedInbound_cases hforward
    exact ⟨token, forward.record, forward.payload, htoken, hrecord, hpayload, happ, hheld, hnone⟩
  . intro h
    unfold linkForward
    split
    . exact ⟨_, rfl⟩
    . next inboundId hsome =>
      obtain ⟨token, record, payload, htoken, hrecord, hpayload, happ, hheld, hnone⟩ :=
        h inboundId hsome
      rw [htoken, Option.okOr_some, Except.bind_of_ok,
        claimedInbound_isOk hrecord hpayload happ hheld hnone]
      exact ⟨_, rfl⟩

theorem commitJob_isOk (hinv : LedgerInv False s.ledger) (hfree : ColonFree jobId)
    (hnew : s.jobs[jobId]? = none)
    : (∃ state s', commitJob identity jobId value s = .ok (state, s')) ↔ Commits s identity value := by
  constructor
  . rintro ⟨state, s', h⟩
    obtain ⟨t, _, hidentity, hvalid, hlink, _⟩ := commitJob_cases h
    exact ⟨hidentity, hvalid, linkForward_isOk.mp ⟨t, hlink⟩⟩
  . rintro ⟨hidentity, hvalid, hforward⟩
    obtain ⟨t, hlink⟩ : ∃ t, linkForward identity jobId value s = .ok t :=
      linkForward_isOk.mpr hforward
    have hevents : t.events = s.events := by
      rcases linkForward_cases hlink with ⟨_, rfl⟩ | ⟨_, _, _, _, _, _, _, _, _, rfl⟩
      . rfl
      . rfl
    obtain ⟨events, happend⟩ :
        ∃ events, appendEvent s.events (makeJob jobId value) none = .ok events :=
      ⟨_, appendEvent_eq (makeJob jobId value) (hinv.isLog_nil hnew) hinv.events hfree none⟩
    unfold commitJob
    rw [if_neg (not_not.mpr hidentity), hvalid, Except.bind_of_ok, hlink, Except.bind_of_ok, hevents]
    dsimp only
    rw [happend, Except.bind_of_ok]
    exact ⟨_, _, rfl⟩

theorem commitJob_takes {other : SubmissionIdentity} {later : NewOutboundJob} {state : JobState}
    (h : commitJob identity jobId value s = .ok (state, s'))
    : Commits s' other later ↔
        Commits s other later ∧
          ∀ inboundId, value.forwardInbound = some inboundId → later.forwardInbound ≠ some inboundId := by
  -- What a job that is committed leaves to the ones behind it: every record but the one it forwards.
  obtain ⟨t, events, _, _, hlink, _, _, rfl⟩ := commitJob_cases h
  rcases linkForward_cases hlink with ⟨hnone, rfl⟩ | ⟨linked, _, record, hsome, _, hrecord, _, _, hfirst, rfl⟩
  . constructor
    . rintro ⟨hidentity, hvalid, hforward⟩
      exact ⟨⟨hidentity, hvalid, hforward⟩, by simp [hnone]⟩
    . rintro ⟨⟨hidentity, hvalid, hforward⟩, _⟩
      exact ⟨hidentity, hvalid, hforward⟩
  . constructor
    . rintro ⟨hidentity, hvalid, hforward⟩
      have hne : ∀ inboundId, later.forwardInbound = some inboundId → linked ≠ inboundId := by
        rintro inboundId hlater rfl
        obtain ⟨_, record', _, _, hrecord', _, _, _, hnone⟩ := hforward _ hlater
        rw [Std.ExtTreeMap.getElem?_insert_self] at hrecord'
        injection hrecord' with heq
        rw [← heq] at hnone
        cases hnone
      refine ⟨⟨hidentity, hvalid, ?_⟩, ?_⟩
      . intro inboundId hlater
        obtain ⟨token, record', payload, htoken, hrecord', hrest⟩ := hforward inboundId hlater
        rw [Table.getElem?_insert_ne _ (hne inboundId hlater)] at hrecord'
        exact ⟨token, record', payload, htoken, hrecord', hrest⟩
      . intro inboundId hlinked hlater
        rw [hsome] at hlinked
        exact hne inboundId hlater (Option.some.inj hlinked)
    . rintro ⟨⟨hidentity, hvalid, hforward⟩, hne⟩
      refine ⟨hidentity, hvalid, ?_⟩
      intro inboundId hlater
      obtain ⟨token, record', payload, htoken, hrecord', hrest⟩ := hforward inboundId hlater
      refine ⟨token, record', payload, htoken, ?_, hrest⟩
      rw [Table.getElem?_insert_ne _ (by rintro rfl; exact hne linked hsome hlater)]
      exact hrecord'

end Commit

theorem commitJobs_isOk {batch : List (SubmissionIdentity × SubmissionClass)}
    {newJobs : List NewOutboundJob} {s : Store} (hready : Ready batch s)
    (hconflict : ∀ entry ∈ batch, entry.2 ≠ .conflict)
    : (newJobs.length = (batch.filter (fun entry => entry.2.isNew)).length ∧
          ∃ outcomes s', commitJobs batch newJobs s = .ok (outcomes, s')) ↔
        CommitsAll s ((batch.filter (fun entry => entry.2.isNew)).map Prod.fst) newJobs := by
  induction batch generalizing newJobs s with
  | nil =>
    constructor
    . rintro ⟨hlength, _⟩
      obtain rfl := List.length_eq_zero_iff.mp hlength
      exact ⟨.nil, List.nodup_nil⟩
    . rintro ⟨htakes, _⟩
      cases htakes
      exact ⟨rfl, _, _, rfl⟩
  | cons entry batch ih =>
    obtain ⟨identity, cls⟩ := entry
    have hrest : ∀ entry ∈ batch, entry.2 ≠ .conflict := fun entry hmem => hconflict entry (by simp [hmem])
    cases cls with
    | new jobId =>
      obtain ⟨hnone, hfree⟩ := hready.free jobId (by simp [newIds, SubmissionClass.newId])
      rw [List.filter_cons_of_pos rfl]
      cases newJobs with
      | nil =>
        constructor
        . rintro ⟨hlength, _⟩
          cases hlength
        . rintro ⟨htakes, _⟩
          cases htakes
      | cons value newJobs =>
        have hiff := @commitJob_isOk _ identity _ value hready.ledger hfree hnone
        constructor
        . rintro ⟨hlength, outcomes, s', h⟩
          simp only [commitJobs, Except.bind_ok_iff, Prod.exists] at h
          obtain ⟨state, s₁, hfirst, outcomes₁, s₂, hlater, _⟩ := h
          obtain ⟨htakes, hforwards⟩ := (ih (hready.commit hfirst) hrest).mp
            ⟨Nat.succ.inj hlength, outcomes₁, s₂, hlater⟩
          have hboth := htakes.imp (fun _ _ h => (commitJob_takes hfirst).mp h)
          refine ⟨.cons (hiff.mp ⟨state, s₁, hfirst⟩) (hboth.imp (fun _ _ h => h.1)), ?_⟩
          rw [List.filterMap_cons]
          split
          . exact hforwards
          . next inboundId hsome =>
            refine List.nodup_cons.mpr ⟨?_, hforwards⟩
            intro hmem
            obtain ⟨later, hlater, hsame⟩ := List.mem_filterMap.mp hmem
            obtain ⟨_, _, htake⟩ := List.forall₂_mem_right hboth hlater
            exact htake.2 inboundId hsome hsame
        . rintro ⟨htakes, hforwards⟩
          cases htakes with
          | cons htake htakes =>
            obtain ⟨state, s₁, hfirst⟩ := hiff.mpr htake
            have hothers : ∀ inboundId, value.forwardInbound = some inboundId →
                ∀ later ∈ newJobs, later.forwardInbound ≠ some inboundId := by
              intro inboundId hsome later hlater hsame
              rw [List.filterMap_cons_some hsome, List.nodup_cons] at hforwards
              exact hforwards.1 (List.mem_filterMap.mpr ⟨later, hlater, hsame⟩)
            have htakes' : List.Forall₂ (Commits s₁)
                ((batch.filter (fun entry => entry.2.isNew)).map Prod.fst) newJobs := by
              refine List.forall₂_iff_zip.mpr ⟨htakes.length_eq, ?_⟩
              intro other later hmem
              exact (commitJob_takes hfirst).mpr ⟨List.forall₂_zip htakes hmem,
                fun inboundId hsome => hothers inboundId hsome later (List.of_mem_zip hmem).2⟩
            have hnodup : (newJobs.filterMap (·.forwardInbound)).Nodup :=
              hforwards.sublist ((List.sublist_cons_self value newJobs).filterMap _)
            obtain ⟨hlength, outcomes, s', hlater⟩ :=
              (ih (hready.commit hfirst) hrest).mpr ⟨htakes', hnodup⟩
            refine ⟨congrArg Nat.succ hlength, .new jobId state :: outcomes, s', ?_⟩
            simp only [commitJobs, hfirst, Except.bind_of_ok, hlater]
    | existing jobId state =>
      rw [List.filter_cons_of_neg Bool.false_ne_true, ← ih hready.tail hrest]
      apply and_congr_right
      intro _
      simp only [commitJobs, Except.bind_ok_iff, Except.ok.injEq, Prod.mk.injEq, Prod.exists]
      constructor
      . rintro ⟨_, _, outcomes, s', h, _⟩
        exact ⟨outcomes, s', h⟩
      . rintro ⟨outcomes, s', h⟩
        exact ⟨_, _, outcomes, s', h, rfl, rfl⟩
    | conflict => exact absurd rfl (hconflict (identity, .conflict) (by simp))

section Draws

variable {s : Store} {identities : List SubmissionIdentity}

/--
The classes of a batch before its new submissions have an identifier.
-/
def SubmissionClass.unnamed (cls : SubmissionClass) : SubmissionClass :=
  match cls with
  | .new _ => .new ""
  | cls => cls

theorem classify_of_classified {identity : SubmissionIdentity} {cls : SubmissionClass}
    (h : Classified s identity cls)
    : classify s identity = .ok cls.unnamed := by
  unfold classify
  cases cls with
  | new jobId =>
    have hnone : s.submissions[identity.key]? = none := h
    rw [show submissionKey identity.application identity.idempotencyKey = identity.key from rfl, hnone]
    rfl
  | existing jobId state =>
    obtain ⟨job, hentry, hjob, rfl⟩ := h
    rw [show submissionKey identity.application identity.idempotencyKey = identity.key from rfl, hentry]
    simp [hjob, SubmissionClass.unnamed]
  | conflict =>
    obtain ⟨entry, hentry, hne⟩ := h
    rw [show submissionKey identity.application identity.idempotencyKey = identity.key from rfl, hentry]
    simp [hne, SubmissionClass.unnamed]

theorem freshIdentifier_of_free {kind : Char} {taken : String → Bool} {bytes : Vector UInt8 16} {rng : Rng}
    (h : taken (identifierOf kind bytes) = false)
    : freshIdentifier kind taken (bytes :: rng) = .ok (identifierOf kind bytes, rng) := by
  rw [freshIdentifier, if_neg (by simp [h])]

/--
Draws that spell different identifiers which no job has.
-/
structure Fresh (s : Store) (rng : Rng) : Prop where
  nodup : (rng.map (identifierOf 'J')).Nodup
  free : ∀ bytes ∈ rng, s.jobs[identifierOf 'J' bytes]? = none

theorem assignIds_of_fresh {assigned : List SubmissionClass} {used : List String} {draws : Rng}
    (hfresh : Fresh s draws) (hused : ∀ bytes ∈ draws, identifierOf 'J' bytes ∉ used)
    (hdrawn : assigned.filterMap SubmissionClass.newId = draws.map (identifierOf 'J')) (more : Rng)
    : assignIds s (assigned.map SubmissionClass.unnamed) used (draws ++ more) = .ok assigned := by
  -- The new submissions take the identifiers of the draws in turn.
  induction assigned generalizing used draws with
  | nil => rfl
  | cons cls assigned ih =>
    cases cls with
    | new jobId =>
      cases draws with
      | nil => simp [SubmissionClass.newId] at hdrawn
      | cons bytes draws =>
        simp only [List.filterMap_cons, SubmissionClass.newId, List.map_cons, List.cons.injEq] at hdrawn
        obtain ⟨rfl, hdrawn⟩ := hdrawn
        have hnodup := List.nodup_cons.mp hfresh.nodup
        have hrest : Fresh s draws := ⟨hnodup.2, fun bytes hmem => hfresh.free bytes (by simp [hmem])⟩
        have hused' : ∀ other ∈ draws, identifierOf 'J' other ∉ identifierOf 'J' bytes :: used := by
          intro other hother hmem
          rcases List.mem_cons.mp hmem with heq | hmem
          . exact hnodup.1 (List.mem_map.mpr ⟨other, hother, heq⟩)
          . exact hused other (by simp [hother]) hmem
        have hfree : (s.jobs[identifierOf 'J' bytes]?.isSome ||
            used.contains (identifierOf 'J' bytes)) = false := by
          simp [hfresh.free bytes (by simp), hused bytes (by simp)]
        have hdraw : freshIdentifier 'J'
            (fun candidate => s.jobs[candidate]?.isSome || used.contains candidate)
            (bytes :: (draws ++ more)) = .ok (identifierOf 'J' bytes, draws ++ more) :=
          freshIdentifier_of_free hfree
        simp only [List.map_cons, List.cons_append, SubmissionClass.unnamed, assignIds, hdraw,
          Except.bind_of_ok, ih hrest hused' hdrawn]
    | existing jobId state =>
      simp only [List.map_cons, SubmissionClass.unnamed, assignIds, Except.bind_of_ok,
        ih hfresh hused hdrawn]
    | conflict =>
      simp only [List.map_cons, SubmissionClass.unnamed, assignIds, Except.bind_of_ok,
        ih hfresh hused hdrawn]

theorem differing_eq_nil
    : differing s identities = [] ↔
        ∀ identity ∈ identities, ∀ entry, s.submissions[identity.key]? = some entry →
          entry.digest = identity.digest := by
  unfold differing
  rw [List.filterMap_eq_nil_iff]
  constructor
  . intro h identity hmem entry hentry
    obtain ⟨position, hposition⟩ := List.mem_iff_getElem?.mp hmem
    have hnone := h (identity, position) (List.mem_zipIdx_iff_getElem?.mpr hposition)
    dsimp only at hnone
    rw [hentry] at hnone
    simpa using hnone
  . rintro h ⟨identity, position⟩ hmem
    have hmem := List.mem_of_getElem? (List.mem_zipIdx_iff_getElem?.mp hmem)
    dsimp only
    rw [if_neg]
    cases hentry : s.submissions[identity.key]? with
    | none => simp
    | some entry => simpa using h identity hmem entry hentry

theorem exists_assigned (hinv : SubmissionInv s) {ids : List String}
    (hsame : ∀ identity ∈ identities, ∀ entry, s.submissions[identity.key]? = some entry →
      entry.digest = identity.digest)
    (hids : (unbound s identities).length = ids.length)
    : ∃ assigned, List.Forall₂ (Classified s) identities assigned ∧
        assigned.filterMap SubmissionClass.newId = ids := by
  induction identities generalizing ids with
  | nil => exact ⟨[], .nil, (List.length_eq_zero_iff.mp hids.symm).symm⟩
  | cons identity identities ih =>
    have hrest := fun other (hmem : other ∈ identities) => hsame other (by simp [hmem])
    cases hentry : s.submissions[identity.key]? with
    | none =>
      cases ids with
      | nil => simp [unbound, hentry] at hids
      | cons jobId ids =>
        have hfewer : (unbound s identities).length = ids.length := by
          simpa [unbound, hentry] using hids
        obtain ⟨assigned, hclassified, hdrawn⟩ := ih hrest hfewer
        refine ⟨.new jobId :: assigned, .cons hentry hclassified, ?_⟩
        simp only [List.filterMap_cons, SubmissionClass.newId, hdrawn]
    | some entry =>
      have hfewer : (unbound s identities).length = ids.length := by
        simpa [unbound, hentry] using hids
      obtain ⟨assigned, hclassified, hdrawn⟩ := ih hrest hfewer
      obtain ⟨job, hjob⟩ := hinv.job _ entry hentry
      have hbound : s.submissions[identity.key]? = some ⟨entry.jobId, identity.digest⟩ := by
        rw [← hsame identity (by simp) entry hentry]
        exact hentry
      refine ⟨.existing entry.jobId job.state :: assigned, .cons ⟨job, hbound, hjob, rfl⟩ hclassified, ?_⟩
      exact hdrawn

theorem Classified.ne_conflict (hsame : differing s identities = []) {assigned : List SubmissionClass}
    (hclassified : List.Forall₂ (Classified s) identities assigned)
    : ∀ entry ∈ identities.zip assigned, entry.2 ≠ .conflict := by
  rintro ⟨identity, cls⟩ hmem rfl
  obtain ⟨entry, hentry, hne⟩ := List.forall₂_zip hclassified hmem
  exact hne (differing_eq_nil.mp hsame identity (List.of_mem_zip hmem).1 entry hentry)

theorem unbound_of_assigned {assigned : List SubmissionClass}
    (hclassified : List.Forall₂ (Classified s) identities assigned)
    : ((identities.zip assigned).filter (fun entry => entry.2.isNew)).map Prod.fst =
        unbound s identities := by
  unfold unbound
  induction hclassified with
  | nil => rfl
  | @cons identity cls identities assigned hclass _ ih =>
    cases cls with
    | new jobId =>
      have hnone : s.submissions[identity.key]? = none := hclass
      rw [List.zip_cons_cons, List.filter_cons_of_pos rfl, List.map_cons, ih,
        List.filter_cons_of_pos (by rw [hnone]; rfl)]
    | existing jobId state =>
      obtain ⟨_, hentry, _⟩ := hclass
      rw [List.zip_cons_cons, List.filter_cons_of_neg Bool.false_ne_true, ih,
        List.filter_cons_of_neg (by rw [hentry]; exact Bool.false_ne_true)]
    | conflict =>
      obtain ⟨_, hentry, _⟩ := hclass
      rw [List.zip_cons_cons, List.filter_cons_of_neg Bool.false_ne_true, ih,
        List.filter_cons_of_neg (by rw [hentry]; exact Bool.false_ne_true)]

theorem commitBatch_of_assigned {assigned : List SubmissionClass} {draws : Rng}
    (hvalid : identitiesValid identities) (hsame : differing s identities = [])
    (hclassified : List.Forall₂ (Classified s) identities assigned) (hfresh : Fresh s draws)
    (hdrawn : assigned.filterMap SubmissionClass.newId = draws.map (identifierOf 'J'))
    (build : BatchBuilder) (more : Rng) {result : BatchCommit × Store}
    : commitBatch identities build (draws ++ more) s = .ok result ↔
        ∃ newJobs, build assigned (claimedInbound s) = .ok newJobs ∧
          newJobs.length = assigned.countP SubmissionClass.isNew ∧
          ∃ outcomes s', commitJobs (identities.zip assigned) newJobs s = .ok (outcomes, s') ∧
            result = (.committed outcomes, s') := by
  have hclasses : identities.mapM (classify s) = .ok (assigned.map SubmissionClass.unnamed) := by
    apply Except.mapM_of_forall₂
    rw [List.forall₂_map_right_iff]
    exact hclassified.imp (fun _ _ => classify_of_classified)
  have hunnamed : List.Forall₂ (Classified s) identities (assigned.map SubmissionClass.unnamed) :=
    (Except.mapM_forall₂ hclasses).imp (fun _ _ hclass => classify_classified hclass)
  unfold commitBatch
  rw [if_neg (not_not.mpr hvalid), hclasses, Except.bind_of_ok, conflictPositions_eq hunnamed, hsame,
    if_neg (not_not.mpr rfl), assignIds_of_fresh hfresh (by simp) hdrawn more, Except.bind_of_ok,
    Except.bind_ok_iff]
  constructor
  . rintro ⟨newJobs, hbuild, h⟩
    split at h
    . cases h
    . next hlength =>
      simp only [Except.bind_ok_iff, Except.ok.injEq, Prod.exists] at h
      obtain ⟨outcomes, s', hcommit, h⟩ := h
      exact ⟨newJobs, hbuild, not_not.mp hlength, outcomes, s', hcommit, h.symm⟩
  . rintro ⟨newJobs, hbuild, hlength, outcomes, s', hcommit, rfl⟩
    refine ⟨newJobs, hbuild, ?_⟩
    rw [if_neg (not_not.mpr hlength), hcommit]
    rfl

end Draws

theorem commitBatch_repeated {s : Store} (hinv : SubmissionInv s) {identities : List SubmissionIdentity}
    (hvalid : identitiesValid identities)
    (hbound : ∀ identity ∈ identities, ∃ jobId,
      s.submissions[identity.key]? = some ⟨jobId, identity.digest⟩)
    : ∃ earlier, List.Forall₂ (Bound s) identities earlier ∧
        ∀ (build : BatchBuilder) rng,
          build (earlier.map (fun job => .existing job.1 job.2)) (claimedInbound s) = .ok [] →
          commitBatch identities build rng s =
            .ok (.committed (earlier.map (fun job => .existing job.1 job.2)), s) := by
  have hearlier : ∃ earlier, List.Forall₂ (Bound s) identities earlier := by
    clear hvalid
    induction identities with
    | nil => exact ⟨[], .nil⟩
    | cons identity identities ih =>
      obtain ⟨jobId, hentry⟩ := hbound identity (by simp)
      obtain ⟨job, hjob⟩ := hinv.job _ _ hentry
      obtain ⟨earlier, hrest⟩ := ih (fun other hmem => hbound other (by simp [hmem]))
      exact ⟨(jobId, job.state) :: earlier, .cons ⟨hentry, job, hjob, rfl⟩ hrest⟩
  obtain ⟨earlier, hearlier⟩ := hearlier
  have hsame : differing s identities = [] := by
    rw [differing_eq_nil]
    intro identity hmem entry hentry
    obtain ⟨jobId, hbound⟩ := hbound identity hmem
    rw [hbound] at hentry
    injection hentry with heq
    rw [← heq]
  have hclassified : List.Forall₂ (Classified s) identities
      (earlier.map (fun job => .existing job.1 job.2)) := by
    rw [List.forall₂_map_right_iff]
    refine hearlier.imp ?_
    rintro identity job ⟨hentry, record, hjob, hstate⟩
    exact ⟨record, hentry, hjob, hstate⟩
  refine ⟨earlier, hearlier, ?_⟩
  intro build rng hbuild
  have hfresh : Fresh s [] := ⟨List.nodup_nil, by simp⟩
  refine (commitBatch_of_assigned hvalid hsame hclassified hfresh ?_ build rng).mpr
    ⟨[], hbuild, ?_, _, s, ?_, rfl⟩
  . simp [List.filterMap_map, Function.comp_def, SubmissionClass.newId]
  . simp [List.countP_map, Function.comp_def, SubmissionClass.isNew]
  . clear hbuild hsame hclassified hvalid hbound
    induction hearlier with
    | nil => rfl
    | cons _ _ ih =>
      simp only [List.map_cons, List.zip_cons_cons, commitJobs, ih, Except.bind_of_ok]

theorem commitBatch_taken {s : Store} (hinv : BatchInv s) {identities : List SubmissionIdentity}
    (hvalid : identitiesValid identities) (hsame : differing s identities = []) {draws : Rng}
    (hfresh : Fresh s draws) (hlength : (unbound s identities).length = draws.length) (more : Rng)
    : ∃ assigned, List.Forall₂ (Classified s) identities assigned ∧
        assigned.filterMap SubmissionClass.newId = draws.map (identifierOf 'J') ∧
        ∀ build : BatchBuilder,
          (∃ outcomes s', commitBatch identities build (draws ++ more) s =
              .ok (.committed outcomes, s')) ↔
            ∃ newJobs, build assigned (claimedInbound s) = .ok newJobs ∧
              CommitsAll s (unbound s identities) newJobs := by
  -- With the draws that its new submissions need, a batch without conflicts is committed exactly when the builder
  -- answers with the jobs to take.
  have hids : (unbound s identities).length = (draws.map (identifierOf 'J')).length := by
    rw [hlength, List.length_map]
  obtain ⟨assigned, hclassified, hdrawn⟩ :=
    exists_assigned hinv.submissions (differing_eq_nil.mp hsame) hids
  have hunused : ∀ bytes ∈ draws, identifierOf 'J' bytes ∉ ([] : List String) := by simp
  have hready : Ready (identities.zip assigned) s :=
    ready_of_assigned hinv hvalid hclassified.length_eq (assignIds_of_fresh hfresh hunused hdrawn more)
  have hcount : assigned.countP SubmissionClass.isNew =
      ((identities.zip assigned).filter (fun entry => entry.2.isNew)).length := by
    conv_lhs => rw [← List.map_snd_zip (Nat.le_of_eq hclassified.length_eq.symm)]
    rw [List.countP_map, List.countP_eq_length_filter]
    rfl
  refine ⟨assigned, hclassified, hdrawn, ?_⟩
  intro build
  have hjobs := fun newJobs =>
    @commitJobs_isOk _ newJobs _ hready (Classified.ne_conflict hsame hclassified)
  rw [unbound_of_assigned hclassified, ← hcount] at hjobs
  constructor
  . rintro ⟨outcomes, s', h⟩
    obtain ⟨newJobs, hbuild, hcount, outcomes', s'', hcommit, _⟩ :=
      (commitBatch_of_assigned hvalid hsame hclassified hfresh hdrawn build more).mp h
    exact ⟨newJobs, hbuild, (hjobs newJobs).mp ⟨hcount, outcomes', s'', hcommit⟩⟩
  . rintro ⟨newJobs, hbuild, htakes⟩
    obtain ⟨hcount, outcomes, s', hcommit⟩ := (hjobs newJobs).mpr htakes
    exact ⟨outcomes, s', (commitBatch_of_assigned hvalid hsame hclassified hfresh hdrawn build more).mpr
      ⟨newJobs, hbuild, hcount, outcomes, s', hcommit, rfl⟩⟩

theorem step_commitBatch_iff (c : Crypto) (s : Store) (identities : List SubmissionIdentity) (build : BatchBuilder)
    (rng : Rng)
    : (∃ outcomes s', step c s (.commitBatch identities build rng) = (.ok (.batch (.committed outcomes)), s')) ↔
        ∃ outcomes s', commitBatch identities build rng s = .ok (.committed outcomes, s') := by
  constructor
  . rintro ⟨outcomes, s', h⟩
    rcases transact_cases s (commitBatch identities build rng s) Answer.batch with
      ⟨e, _, heq⟩ | ⟨result, s'', hok, heq⟩
    . cases heq.symm.trans h
    . have hresult := heq.symm.trans h
      cases hresult
      exact ⟨outcomes, s', hok⟩
  . rintro ⟨outcomes, s', h⟩
    exact ⟨outcomes, s', by simp only [step, h, transact]⟩

/--
Two jobs with one submission key, or with one inbound record to forward, are the same job.
-/
theorem BatchInv.job_unique {s : Store} (hinv : BatchInv s) {key key' : String} {job job' : OutboundJob}
    (hjob : s.jobs[key]? = some job) (hjob' : s.jobs[key']? = some job')
    (hsame : job.application = job'.application ∧ job.idempotencyKey = job'.idempotencyKey ∨
      (∃ inboundId, job.forwardInbound = some inboundId ∧ job'.forwardInbound = some inboundId))
    : key = key' := by
  rcases hsame with ⟨happlication, hkey⟩ | ⟨inboundId, hforward, hforward'⟩
  . have hbound := hinv.submissions.bound key job hjob
    rw [happlication, hkey, hinv.submissions.bound key' job' hjob'] at hbound
    injection hbound with heq
    exact (SubmissionEntry.mk.inj heq).1.symm
  . obtain ⟨record, hrecord, hlinked⟩ := hinv.submissions.forward key job _ hjob hforward
    obtain ⟨record', hrecord', hlinked'⟩ := hinv.submissions.forward key' job' _ hjob' hforward'
    rw [hrecord] at hrecord'
    injection hrecord' with heq
    subst heq
    rw [hlinked] at hlinked'
    injection hlinked'

/--
Batches in every run: all or nothing, one job for each key, conflicts exactly where the digest
differs, and one forwarding job for each inbound record. A repetition is answered with the jobs that
are there and writes nothing, and new submissions are committed when there is a job to take for each.
-/
theorem run_batches_exactly_once (c : Crypto) (ops : List Op)
    : let s := (storeMachine c).run .empty ops
      (∀ identities build rng,
        let r := step c s (.commitBatch identities build rng)
        (∃ e, r = (.error e, s)) ∨
          (r = (.ok (.batch (.conflict (differing s identities))), s) ∧
            differing s identities ≠ []) ∨
          ∃ outcomes, r.1 = .ok (.batch (.committed outcomes)) ∧ differing s identities = [] ∧
            BatchCommitted s r.2 identities outcomes) ∧
      (∀ identities build rng, identitiesValid identities → differing s identities ≠ [] →
        step c s (.commitBatch identities build rng) =
          (.ok (.batch (.conflict (differing s identities))), s)) ∧
      (∀ later, BindingsKept s ((storeMachine c).run s later)) ∧
      (∀ (key key' : String) job job', s.jobs[key]? = some job → s.jobs[key']? = some job' →
        job.application = job'.application ∧ job.idempotencyKey = job'.idempotencyKey ∨
          (∃ inboundId, job.forwardInbound = some inboundId ∧
            job'.forwardInbound = some inboundId) →
        key = key') ∧
      (∀ identities, identitiesValid identities →
        (∀ identity ∈ identities, ∃ jobId,
          s.submissions[identity.key]? = some ⟨jobId, identity.digest⟩) →
        ∃ earlier, List.Forall₂ (Bound s) identities earlier ∧
          ∀ (build : BatchBuilder) rng,
            build (earlier.map (fun job => .existing job.1 job.2)) (claimedInbound s) = .ok [] →
            step c s (.commitBatch identities build rng) =
              (.ok (.batch (.committed (earlier.map (fun job => .existing job.1 job.2)))), s)) ∧
      (∀ identities (draws more : Rng), identitiesValid identities → differing s identities = [] →
        Fresh s draws → (unbound s identities).length = draws.length →
        ∃ assigned, List.Forall₂ (Classified s) identities assigned ∧
          assigned.filterMap SubmissionClass.newId = draws.map (identifierOf 'J') ∧
          ∀ build : BatchBuilder,
            (∃ outcomes s', step c s (.commitBatch identities build (draws ++ more)) =
                (.ok (.batch (.committed outcomes)), s')) ↔
              ∃ newJobs, build assigned (claimedInbound s) = .ok newJobs ∧
                CommitsAll s (unbound s identities) newJobs) := by
  have hinv := run_batchInv c empty_batchInv ops
  generalize (storeMachine c).run .empty ops = s at *
  refine ⟨?_, ?_, ?_, ?_, ?_, ?_⟩
  . intro identities build rng r
    rcases transact_cases s (commitBatch identities build rng s) Answer.batch with
      ⟨e, _, heq⟩ | ⟨result, s', hok, heq⟩
    . exact .inl ⟨e, heq⟩
    . have hr : r = (.ok (.batch result), s') := heq
      obtain ⟨rfl, hdiffer, rfl⟩ | ⟨outcomes, rfl, hsame, hcommitted, _⟩ :=
        commitBatch_effect hinv hok
      . exact .inr (.inl ⟨hr, hdiffer⟩)
      . rw [hr]
        exact .inr (.inr ⟨outcomes, rfl, hsame, hcommitted⟩)
  . intro identities build rng hvalid hdiffer
    simp only [step, commitBatch_conflict hinv hvalid hdiffer, transact]
  . intro later
    exact run_bindingsKept c hinv later
  . intro key key' job job' hjob hjob' hsame
    exact hinv.job_unique hjob hjob' hsame
  . intro identities hvalid hbound
    obtain ⟨earlier, hearlier, hrepeated⟩ := commitBatch_repeated hinv.submissions hvalid hbound
    refine ⟨earlier, hearlier, ?_⟩
    intro build rng hbuild
    simp only [step, hrepeated build rng hbuild, transact]
  . intro identities draws more hvalid hsame hfresh hlength
    obtain ⟨assigned, hclassified, hdrawn, htaken⟩ :=
      commitBatch_taken hinv hvalid hsame hfresh hlength more
    refine ⟨assigned, hclassified, hdrawn, ?_⟩
    intro build
    rw [step_commitBatch_iff, htaken build]

namespace Sample

/--
A builder that answers for the new submissions of a batch of one.
-/
def onlyNew (value : NewOutboundJob) : BatchBuilder := fun classes _ =>
  .ok (if classes.any SubmissionClass.isNew then [value] else [])

end Sample

/--
The batch of one message comes a second time, with other draws.
-/
theorem run_batches_exactly_once_repeated
    : step Sample.crypto
          ((storeMachine Sample.crypto).run .empty [Sample.submit "k" (Sample.delivery "hub") none 7])
          (.commitBatch [Sample.identity "k"]
            (Sample.onlyNew (Sample.netMail "k" (Sample.delivery "hub") none)) [Sample.draw 8]) =
        (.ok (.batch (.committed [.existing (identifierOf 'J' (Sample.draw 7)) .queued])),
          (storeMachine Sample.crypto).run .empty
            [Sample.submit "k" (Sample.delivery "hub") none 7]) := by
  obtain ⟨_, _, _, _, hrepeated, _⟩ := run_batches_exactly_once Sample.crypto
    [Sample.submit "k" (Sample.delivery "hub") none 7]
  have hbound : ((storeMachine Sample.crypto).run .empty
      [Sample.submit "k" (Sample.delivery "hub") none 7]).submissions[(Sample.identity "k").key]? =
        some ⟨identifierOf 'J' (Sample.draw 7), (Sample.identity "k").digest⟩ := by
    decide
  have hstate : (((storeMachine Sample.crypto).run .empty
      [Sample.submit "k" (Sample.delivery "hub") none 7]).jobs[
        identifierOf 'J' (Sample.draw 7)]?).map (·.state) = some .queued := by
    decide
  obtain ⟨earlier, hearlier, hanswer⟩ := hrepeated [Sample.identity "k"] (by decide) (by
    intro identity hmem
    rw [List.mem_singleton] at hmem
    subst hmem
    exact ⟨_, hbound⟩)
  cases hearlier with
  | @cons _ job _ rest hjob hrest =>
    cases hrest
    obtain ⟨jobId, state⟩ := job
    obtain ⟨hentry, record, hrecord, rfl⟩ := hjob
    rw [hbound] at hentry
    injection hentry with hentry
    injection hentry with hjobId _
    dsimp only at hjobId
    subst hjobId
    rw [hrecord, Option.map_some] at hstate
    injection hstate with hstate
    rw [hstate] at hanswer
    exact hanswer _ _ rfl

end Tith
