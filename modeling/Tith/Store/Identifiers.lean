import Tith.Store.Submission

/-!
This module contains the identifiers in the store: all of them have been drawn by the store itself, none is
a text that a peer or an application has chosen.
-/

namespace Tith

def IsIdentifier (kind : Char) (text : String) : Prop := ∃ bytes, text = identifierOf kind bytes

/--
The identifiers in a record that is stored under `id`.
-/
structure IdentifiedRecord (id : String) (record : InboundRecord) : Prop where
  id : IsIdentifier 'I' id
  token : ∀ token, record.claimToken = some token → IsIdentifier 'C' token
  forwardJob : ∀ jobId, record.forwardJob = some jobId → IsIdentifier 'J' jobId

structure IdentifierInv (s : Store) : Prop where
  job : ∀ (key : String) job, s.jobs[key]? = some job → IsIdentifier 'J' key
  record : ∀ (id : String) record, s.records[id]? = some record → IdentifiedRecord id record

theorem empty_identifierInv : IdentifierInv .empty := by
  constructor
  . intro key job h
    simp [Store.empty] at h
  . intro id record h
    simp [Store.empty] at h

theorem IdentifierInv.insert_record {s s' : Store} (hinv : IdentifierInv s) {id : String}
    {record : InboundRecord} (hjobs : s'.jobs = s.jobs) (hrecords : s'.records = s.records.insert id record)
    (hrecord : IdentifiedRecord id record)
    : IdentifierInv s' := by
  constructor
  . rw [hjobs]
    exact hinv.job
  . intro id' record' hget
    rw [hrecords] at hget
    rcases Table.getElem?_insert_some hget with ⟨rfl, rfl⟩ | ⟨_, hold⟩
    . exact hrecord
    . exact hinv.record id' record' hold

theorem randomIdentifier_isIdentifier {kind : Char} {rng rng' : Rng} {id : String}
    (h : randomIdentifier kind rng = .ok (id, rng'))
    : IsIdentifier kind id := by
  cases rng with
  | nil => cases h
  | cons bytes rng =>
    simp only [randomIdentifier, Except.ok.injEq, Prod.mk.injEq] at h
    exact ⟨bytes, h.1.symm⟩

theorem refreshExpirations_identifierInv {now : UInt64} {s s' : Store} (hinv : IdentifierInv s)
    (hinbox : InboxInv s.inbox) (h : refreshExpirations now s = .ok s')
    : IdentifierInv s' := by
  apply Except.foldlM_invariant (P := IdentifierInv) _ hinv h
  intro record hmem t t' ht hexpire
  obtain ⟨id, hrecord, _⟩ := mem_expiredRecords.mp hmem
  have hid := hinbox.id id record hrecord
  have hidentified := hinv.record id record hrecord
  obtain ⟨_, _, _, _, _, _, rfl⟩ := expireClaim_cases hexpire
  rw [← hid] at hidentified
  exact ht.insert_record rfl rfl ⟨hidentified.id, hidentified.token, hidentified.forwardJob⟩

theorem claimNext_identifierInv {application : Application} {claimKey : String} {now duration : UInt64}
    {rng : Rng} {s s' : Store} {result : ClaimResult} (hinv : IdentifierInv s) (hinbox : InboxInv s.inbox)
    (h : claimNext application claimKey now duration rng s = .ok (result, s'))
    : IdentifierInv s' := by
  obtain ⟨_, _, _, rfl⟩ | ⟨_, _, _, rfl⟩ |
    ⟨record, token, rng', expires, attempts, _, hselect, htoken, _, rfl⟩ := claimNext_cases h
  . exact hinv
  . exact hinv
  . obtain ⟨⟨id, hrecord⟩, _, _⟩ := selectRecord_cases hselect
    have hid := hinbox.id id record hrecord
    have hidentified := hinv.record id record hrecord
    rw [← hid] at hidentified
    refine hinv.insert_record rfl rfl ⟨hidentified.id, ?_, hidentified.forwardJob⟩
    intro token' hclaimed
    injection hclaimed with heq
    exact heq ▸ randomIdentifier_isIdentifier htoken

theorem claim_identifierInv {application : Application} {claimKey : String} {now duration : UInt64}
    {rng : Rng} {s s' : Store} {result : Except StoreError ClaimResult} (hinv : IdentifierInv s)
    (hinbox : InboxInv s.inbox) (h : claim application claimKey now duration rng s = (result, s'))
    : IdentifierInv s' := by
  obtain rfl | ⟨t, hrefresh, rfl | ⟨r, hnext, _⟩⟩ := claim_cases h
  . exact hinv
  . exact refreshExpirations_identifierInv hinv hinbox hrefresh
  . have htouches : Touches False (fun _ => True) s.inbox t.inbox :=
      refreshExpirations_touches (fun _ _ => trivial) hinbox hrefresh
    exact claimNext_identifierInv (refreshExpirations_identifierInv hinv hinbox hrefresh)
      (htouches.inv hinbox) hnext

theorem resolve_identifierInv {application : Application} {inboundId token : String} {now : UInt64}
    {resolution : Resolution} {s s' : Store} {state : InboundState} (hinv : IdentifierInv s)
    (h : resolve application inboundId token now resolution s = .ok (state, s'))
    : IdentifierInv s' := by
  obtain ⟨_, _, _, _, _, _, _, _, rfl⟩ | ⟨_, _, _, _, _, _, _, rfl⟩ |
    ⟨record, claimKey, _, hrecord, _, _, _, _, rfl⟩ := resolve_cases h
  . exact hinv
  . exact hinv
  . obtain ⟨hid, htoken, hforward⟩ := hinv.record inboundId record hrecord
    exact hinv.insert_record rfl rfl ⟨hid, htoken, hforward⟩

theorem renew_identifierInv {application : Application} {inboundId token : String}
    {now duration expires : UInt64} {s s' : Store} (hinv : IdentifierInv s)
    (h : renew application inboundId token now duration s = .ok (expires, s'))
    : IdentifierInv s' := by
  obtain ⟨record, hrecord, _, _, _, rfl⟩ := renew_cases h
  obtain ⟨hid, htoken, hforward⟩ := hinv.record inboundId record hrecord
  exact hinv.insert_record rfl rfl ⟨hid, htoken, hforward⟩

theorem commitJob_identifierInv {identity : SubmissionIdentity} {jobId : String} {value : NewOutboundJob}
    {s s' : Store} {state : JobState} (hinv : IdentifierInv s) (hid : IsIdentifier 'J' jobId)
    (h : commitJob identity jobId value s = .ok (state, s'))
    : IdentifierInv s' := by
  obtain ⟨t, events, _, _, hlink, _, _, rfl⟩ := commitJob_cases h
  have hlinked : IdentifierInv t := by
    obtain ⟨_, rfl⟩ | ⟨inboundId, token, record, _, _, hrecord, _, _, _, rfl⟩ := linkForward_cases hlink
    . exact hinv
    . obtain ⟨hinbound, htoken, _⟩ := hinv.record inboundId record hrecord
      refine hinv.insert_record rfl rfl ⟨hinbound, htoken, ?_⟩
      intro jobId' hforward
      injection hforward with heq
      exact heq ▸ hid
  constructor
  . intro key job hget
    rcases Table.getElem?_insert_some hget with ⟨rfl, _⟩ | ⟨_, hold⟩
    . exact hid
    . exact hinv.job key job hold
  . exact hlinked.record

theorem commitJobs_identifierInv {batch : List (SubmissionIdentity × SubmissionClass)}
    {newJobs : List NewOutboundJob} {s s' : Store} {outcomes : List CommitOutcome} (hinv : IdentifierInv s)
    (hids : ∀ jobId ∈ batch.filterMap (fun entry => entry.2.newId), IsIdentifier 'J' jobId)
    (h : commitJobs batch newJobs s = .ok (outcomes, s'))
    : IdentifierInv s' := by
  induction batch generalizing newJobs s outcomes with
  | nil =>
    simp only [commitJobs, Except.ok.injEq, Prod.mk.injEq] at h
    exact h.2 ▸ hinv
  | cons entry batch ih =>
    obtain ⟨identity, cls⟩ := entry
    cases cls with
    | new jobId =>
      simp only [List.filterMap_cons, SubmissionClass.newId, List.forall_mem_cons] at hids
      cases newJobs with
      | nil => cases h
      | cons value newJobs =>
        simp only [commitJobs, Except.bind_ok_iff, Except.ok.injEq, Prod.mk.injEq, Prod.exists] at h
        obtain ⟨state, s₁, hfirst, outcomes₁, s₂, hrest, _, rfl⟩ := h
        exact ih (commitJob_identifierInv hinv hids.1 hfirst) hids.2 hrest
    | existing jobId state =>
      rw [List.filterMap_cons_none rfl] at hids
      simp only [commitJobs, Except.bind_ok_iff, Except.ok.injEq, Prod.mk.injEq, Prod.exists] at h
      obtain ⟨outcomes₁, s₂, hrest, _, rfl⟩ := h
      exact ih hinv hids hrest
    | conflict => cases h

theorem assignIds_isIdentifier {s : Store} {classes classes' : List SubmissionClass} {assigned : List String}
    {rng : Rng} (h : assignIds s classes assigned rng = .ok classes')
    : ∀ jobId ∈ classes'.filterMap SubmissionClass.newId, IsIdentifier 'J' jobId := by
  induction classes generalizing assigned rng classes' with
  | nil =>
    simp only [assignIds, Except.ok.injEq] at h
    simp [← h]
  | cons cls classes ih =>
    cases cls with
    | new empty =>
      simp only [assignIds, Except.bind_ok_iff, Except.ok.injEq, Prod.exists] at h
      obtain ⟨jobId, rng₁, hfresh, rest, hrest, rfl⟩ := h
      simp only [List.filterMap_cons, SubmissionClass.newId, List.forall_mem_cons]
      exact ⟨(freshIdentifier_cases hfresh).2, ih hrest⟩
    | existing jobId state =>
      simp only [assignIds, Except.bind_ok_iff, Except.ok.injEq] at h
      obtain ⟨rest, hrest, rfl⟩ := h
      rw [List.filterMap_cons_none rfl]
      exact ih hrest
    | conflict =>
      simp only [assignIds, Except.bind_ok_iff, Except.ok.injEq] at h
      obtain ⟨rest, hrest, rfl⟩ := h
      rw [List.filterMap_cons_none rfl]
      exact ih hrest

theorem commitBatch_identifierInv {identities : List SubmissionIdentity} {build : BatchBuilder} {rng : Rng}
    {s s' : Store} {result : BatchCommit} (hinv : IdentifierInv s)
    (h : commitBatch identities build rng s = .ok (result, s'))
    : IdentifierInv s' := by
  obtain ⟨_, classes, _, ⟨_, _, rfl⟩ | ⟨assigned, newJobs, outcomes, _, hassigned, _, _, hcommit, _⟩⟩ :=
    commitBatch_cases h
  . exact hinv
  . have hsub := List.filterMap_zip_sublist SubmissionClass.newId identities assigned
    apply commitJobs_identifierInv hinv _ hcommit
    intro jobId hmem
    exact assignIds_isIdentifier hassigned jobId (hsub.subset hmem)

theorem step_identifierInv (c : Crypto) {s : Store} (hbatch : BatchInv s) (hinv : IdentifierInv s) (op : Op)
    : IdentifierInv (step c s op).2 := by
  have hdelivery : op.side = .delivery → ¬op.Creates → IdentifierInv (step c s op).2 := by
    intro hside hcreates
    constructor
    . intro key job hjob
      obtain ⟨old, hold, _⟩ := step_jobs_before c hbatch.ledger hcreates hjob
      exact hinv.job key old hold
    . rw [step_ledgerOnly c s hside]
      exact hinv.record
  cases op with
  | accept value duplicateIdentity rng =>
    simp only [step]
    split
    . exact hinv
    . next h =>
      obtain ⟨_, _, _, _, ⟨_, _, _, _, rfl⟩ | ⟨id, _, halloc, _, rfl⟩⟩ := accept_cases h
      . exact hinv
      . exact hinv.insert_record rfl rfl
          ⟨(freshIdentifier_cases halloc).2, by simp [newRecord], by simp [newRecord]⟩
  | removeDuplicateIdentity identity => exact ⟨hinv.job, hinv.record⟩
  | refreshExpirations now =>
    simp only [step]
    split
    . exact hinv
    . next h => exact refreshExpirations_identifierInv hinv hbatch.inbox h
  | claim application claimKey now duration rng =>
    simp only [step]
    split
    . next h => exact claim_identifierInv hinv hbatch.inbox h
    . next h => exact claim_identifierInv hinv hbatch.inbox h
  | resolve application inboundId token now resolution =>
    exact transact_rel (R := fun _ s' => IdentifierInv s') hinv (fun _ _ h => resolve_identifierInv hinv h)
  | renew application inboundId token now duration =>
    exact transact_rel (R := fun _ s' => IdentifierInv s') hinv (fun _ _ h => renew_identifierInv hinv h)
  | commitBatch identities build rng =>
    exact transact_rel (R := fun _ s' => IdentifierInv s') hinv (fun _ _ h => commitBatch_identifierInv hinv h)
  | _ => exact hdelivery rfl (fun h => h.elim)

theorem run_identifierInv (c : Crypto) (ops : List Op)
    : IdentifierInv ((storeMachine c).run .empty ops) := by
  have hboth : BatchInv ((storeMachine c).run .empty ops) ∧ IdentifierInv ((storeMachine c).run .empty ops) := by
    apply Machine.invariant (m := storeMachine c) (fun s => BatchInv s ∧ IdentifierInv s)
    . intro s op hinv
      exact ⟨(step_batchInv c hinv.1 op).1, step_identifierInv c hinv.1 hinv.2 op⟩
    . exact ⟨empty_batchInv, empty_identifierInv⟩
  exact hboth.2

end Tith
