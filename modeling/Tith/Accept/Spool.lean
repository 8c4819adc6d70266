import Tith.Accept.Loop
import Tith.Lib.Base64
import Tith.Store.Submission
import Tith.Wire.Lemmas.Address
import Tith.Wire.Lemmas.Carrier

/-!
This module contains the spool of relayed items over whole runs of the daemon: only authorized items
enter it, an accepted item is in it, and no item enters it twice.
-/

namespace Tith

/--
What the encoding of the keys and signatures promises: it can be undone, and its length is the one of
RFC 4648 without padding.
-/
structure Nodelist.Base64.Lawful (base64 : Nodelist.Base64) : Prop where
  injective : ∀ a b, base64.encode a = base64.encode b → a = b
  length : ∀ bytes, (base64.encode bytes).length = (4 * bytes.length + 2) / 3

namespace Accept

open Config Router

theorem typeText_inj {kind kind' : SignedItemKind}
    (h : SignedItemKind.typeText kind = SignedItemKind.typeText kind')
    : kind = kind' := by
  revert h
  cases kind <;> cases kind' <;> decide

theorem length_typeText (kind : SignedItemKind) : (SignedItemKind.typeText kind).toList.length = 2 := by
  cases kind <;> decide

-- A domain may contain blanks, so the fields are told apart by their lengths from both ends.
theorem relayKey_inj {base64 : Nodelist.Base64} (hbase64 : base64.Lawful)
    {signed signed' : SignedItemIdentity} (h : relayKey base64 signed = relayKey base64 signed')
    : signed = signed' := by
  have htext := congrArg String.toList h
  simp only [relayKey, String.toList_append, String.toList_ofList] at htext
  obtain ⟨htext, hsignature⟩ := List.append_inj' htext (by simp [hbase64.length])
  obtain ⟨htext, _⟩ := List.append_inj' htext rfl
  obtain ⟨htext, hkey⟩ := List.append_inj' htext (by simp [hbase64.length])
  obtain ⟨htext, _⟩ := List.append_inj' htext rfl
  obtain ⟨htext, haddress⟩ := List.append_inj htext (by simp [length_typeText])
  obtain ⟨hkind, _⟩ := List.append_inj htext (by simp [length_typeText])
  obtain ⟨kind, ⟨address, publicKey⟩, signature⟩ := signed
  obtain ⟨kind', ⟨address', publicKey'⟩, signature'⟩ := signed'
  dsimp only at hkind haddress hkey hsignature
  have hkind := typeText_inj (String.toList_inj.mp hkind)
  have haddress := Address.display_inj (String.toList_inj.mp haddress)
  have hkey := Vector.toList_inj.mp (hbase64.injective _ _ hkey)
  have hsignature := Vector.toList_inj.mp (hbase64.injective _ _ hsignature)
  subst hkind
  subst haddress
  subst hkey
  subst hsignature
  rfl

/--
An item that arrives from a peer, after the listener or the client has validated it.
-/
structure Arrival (c : Crypto) where
  acceptance : Acceptance
  item : ValidatedItem
  responseTo : TlvHash
  peer : Identity
  surroundings : Surroundings
  valid : Validated c acceptance item

namespace Arrival

variable {c : Crypto}

def dispatch (base64 : Nodelist.Base64) (arrival : Arrival c) (s : Store)
    : Except DispatchError OwnedTlv × Store :=
  Accept.dispatch c base64 arrival.acceptance arrival.item arrival.responseTo arrival.peer
    arrival.surroundings s

def IsRelay (arrival : Arrival c) : Prop :=
  arrival.item.kind = .netMail ∧ arrival.item.destination ≠ some arrival.acceptance.localIdentity

/--
The rule that decides about an arrival: the first one whose three selectors match is an Allow.
-/
def Allowed (arrival : Arrival c) (routes : Routes) (signer destination : Identity) : Prop :=
  ∃ index rule onFailure,
    routes.relay.FirstAt (fun rule =>
      selectorMatches arrival.acceptance.sources rule.fromPeer arrival.peer = true ∧
        selectorMatches arrival.acceptance.sources rule.origin signer = true ∧
        selectorMatches arrival.acceptance.sources rule.destination destination = true) index rule ∧
    rule.action = .allow onFailure

/--
What has to hold of an arrival before a copy of its item may be spooled.
-/
structure Authorized (arrival : Arrival c) (signed : SignedItemIdentity) : Prop where
  isRelay : arrival.IsRelay
  identity : signedIdentity arrival.item = some signed
  valid : SignatureValid c arrival.item.raw signed
  routed : ∃ destination routes vias commitment,
    arrival.item.destination = some destination ∧
    routesFor arrival.acceptance.configuration arrival.acceptance.localRef = some routes ∧
    arrival.Allowed routes signed.signer destination ∧
    viaIdentities arrival.acceptance.resolver arrival.item.raw = .ok vias ∧
    routeNetmail arrival.acceptance.sources routes destination vias = .ok commitment

end Arrival

def Spools (base64 : Nodelist.Base64) (signed : SignedItemIdentity) (job : OutboundJob) : Prop :=
  job.application = relayApplication ∧ job.idempotencyKey = relayKey base64 signed

section Prepare

variable {c : Crypto} {base64 : Nodelist.Base64}

theorem signedIdentity_some {item : ValidatedItem} {signed : SignedItemIdentity}
    (h : signedIdentity item = some signed)
    : item.duplicateIdentity = some signed := by
  unfold signedIdentity at h
  split at h
  . exact h
  . exact h
  . cases h

theorem signatureValid_of_validated {acceptance : Acceptance} {item : ValidatedItem}
    (h : Validated c acceptance item) (hkind : item.kind = .netMail) {signed : SignedItemIdentity}
    (hsigned : signedIdentity item = some signed)
    : SignatureValid c item.raw signed := by
  obtain ⟨pins, resolver, _, _, hvalid⟩ := h.run
  obtain ⟨_, run, hrun⟩ := validateItem_message hvalid (.inl hkind)
  have hidentity := signedIdentity_some hsigned
  rw [← hrun] at hidentity
  exact run.signatureValid hidentity

theorem relayRule_allowed {arrival : Arrival c} {routes : Routes} {signer destination : Identity}
    {onFailure : Option FailurePolicy}
    (h : (relayRule arrival.acceptance.sources routes arrival.peer signer destination).bind
      RelayRule.allowed = some onFailure)
    : arrival.Allowed routes signer destination := by
  rw [Option.bind_eq_some_iff] at h
  obtain ⟨rule, hrule, hallowed⟩ := h
  rw [relayRule, List.find?_eq_some_iff_getElem] at hrule
  obtain ⟨hmatches, index, hindex, hget, hbefore⟩ := hrule
  refine ⟨index, rule, onFailure, ⟨?_, ?_, ?_⟩, ?_⟩
  . rw [List.getElem?_eq_getElem hindex, hget]
  . simpa [and_assoc] using hmatches
  . intro j hj other hother
    have hjlt : j < routes.relay.length := by omega
    rw [List.getElem?_eq_getElem hjlt] at hother
    cases hother
    have := hbefore j hj
    simp only [Bool.not_eq_eq_eq_not, Bool.not_true, Bool.and_eq_false_iff] at this
    rintro ⟨hpeer, horigin, hdestination⟩
    simp [hpeer, horigin, hdestination] at this
  . unfold RelayRule.allowed at hallowed
    split at hallowed
    . next policy haction =>
      cases hallowed
      exact haction
    . cases hallowed

theorem relayIdentity_eq {signed : SignedItemIdentity} {identity : SubmissionIdentity}
    (h : relayIdentity c base64 signed = .ok identity)
    : identity.application = relayApplication ∧ identity.idempotencyKey = relayKey base64 signed ∧
        c.hashTlv (Bytes.ofString (relayKey base64 signed)) = .ok identity.digest := by
  simp only [relayIdentity, Except.bind_ok_iff] at h
  obtain ⟨digest, hdigest, heq⟩ := h
  cases heq
  exact ⟨rfl, rfl, hdigest⟩

theorem prepareRelay_authorized {arrival : Arrival c} (hrelay : arrival.IsRelay)
    {requestIdentifier viaTime created : UInt64} {prepared : PreparedRelay}
    (h : prepareRelay c base64 arrival.acceptance arrival.item arrival.peer requestIdentifier viaTime
      created = .ok prepared)
    : ∃ signed, arrival.Authorized signed ∧ relayIdentity c base64 signed = .ok prepared.identity ∧
        prepared.job.identity = prepared.identity ∧ prepared.job.deliveries.length = 1 := by
  simp only [prepareRelay, Except.bind_ok_iff, Option.okOr_eq_ok, Except.mapError_eq_ok] at h
  obtain ⟨destination, hdestination, signed, hsigned, routes, hroutes, onFailure, hrule, vias, hvias,
    commitment, hcommitment, relayed, _, identity, hidentity, heq⟩ := h
  cases heq
  refine ⟨signed, ⟨hrelay, hsigned, signatureValid_of_validated arrival.valid hrelay.1 hsigned,
    destination, routes, vias, commitment, hdestination, hroutes, relayRule_allowed hrule, hvias,
    hcommitment⟩, hidentity, rfl, rfl⟩

end Prepare

theorem commitBatch_single {identity : SubmissionIdentity} {job : NewOutboundJob} {rng : Rng}
    {s s' : Store} {result : BatchCommit} (hinv : BatchInv s)
    (h : commitBatch [identity] (relayBuilder job) rng s = .ok (result, s'))
    : (∃ positions entry, result = .conflict positions ∧ s.submissions[identity.key]? = some entry ∧
          entry.digest ≠ identity.digest ∧ s' = s) ∨
        (∃ outcomes entry, result = .committed outcomes ∧ s.submissions[identity.key]? = some entry ∧
          s' = s) ∨
        ∃ outcomes jobId, result = .committed outcomes ∧ s.submissions[identity.key]? = none ∧
          s.jobs[jobId]? = none ∧ job.identity = identity ∧
          s'.jobs = s.jobs.insert jobId (makeJob jobId job) ∧ s'.items = s.items.insert jobId job.item ∧
          s'.submissions = s.submissions.insert identity.key ⟨jobId, identity.digest⟩ := by
  obtain ⟨hresult, hdiffer, rfl⟩ |
    ⟨assigned, newJobs, outcomes, hresult, _, hclassified, hready, hbuild, hcommit⟩ :=
    commitBatch_batch hinv h
  . left
    simp only [differing, List.zipIdx_cons, List.zipIdx_nil, List.filterMap_cons, List.filterMap_nil,
      ne_eq] at hdiffer
    split at hdiffer
    . exact absurd rfl hdiffer
    . next position hposition =>
      simp only [Option.ite_none_right_eq_some, Option.any_eq_true, decide_eq_true_eq] at hposition
      obtain ⟨⟨entry, hentry, hne⟩, _⟩ := hposition
      exact ⟨_, entry, hresult, hentry, hne, rfl⟩
  . right
    cases hclassified with
    | @cons _ cls _ _ hclass hnil =>
      cases hnil
      cases cls with
      | conflict =>
        simp [commitJobs] at hcommit
      | existing jobId state =>
        left
        obtain ⟨found, hentry, _⟩ := hclass
        simp only [List.zip_cons_cons, List.zip_nil_left, commitJobs, Except.bind_of_ok, Except.ok.injEq,
          Prod.mk.injEq] at hcommit
        exact ⟨outcomes, _, hresult, hentry, hcommit.2.symm⟩
      | new jobId =>
        right
        simp only [relayBuilder, List.head?_cons, Except.ok.injEq] at hbuild
        subst hbuild
        simp only [List.zip_cons_cons, List.zip_nil_left, commitJobs, Except.bind_ok_iff, Prod.exists,
          Except.bind_of_ok, Except.ok.injEq, Prod.mk.injEq] at hcommit
        obtain ⟨state, t, hjob, _, t', ⟨_, rfl⟩, _, rfl⟩ := hcommit
        obtain ⟨hnone, hfree⟩ := hready.free jobId (by simp [newIds, SubmissionClass.newId])
        obtain ⟨_, hidentity, _, _, rfl⟩ := commitJob_eq hready.ledger hfree hnone hjob
        exact ⟨outcomes, jobId, hresult, hclass, hnone, hidentity, rfl, rfl, rfl⟩

/--
An operation that leaves the name of the relay to the relay, as every other party has to.
-/
def LeavesRelay (op : Op) : Prop :=
  match op with
  | .commitBatch identities _ _ => ∀ identity ∈ identities, identity.application ≠ relayApplication
  | _ => True

/--
What happens to a daemon: an item arrives, or another party uses the store.
-/
inductive Event (c : Crypto) where
  | arrive (arrival : Arrival c)
  | other (op : Op) (h : LeavesRelay op)

def daemonStep (c : Crypto) (base64 : Nodelist.Base64) (s : Store) (event : Event c)
    : Option (Except DispatchError OwnedTlv) × Store :=
  match event with
  | .arrive arrival => ((arrival.dispatch base64 s).1, (arrival.dispatch base64 s).2)
  | .other op _ => (none, (step c s op).2)

def daemonMachine (c : Crypto) (base64 : Nodelist.Base64)
    : Machine Store (Event c) (Option (Except DispatchError OwnedTlv)) where
  init := .empty
  step := daemonStep c base64

theorem rejected_ne_accepted {requestIdentifier requestIdentifier' : UInt64} {responseTo responseTo' : TlvHash}
    {reason : RejectionReason} {description : String}
    : (rejected requestIdentifier responseTo none reason description).mapError DispatchError.wire ≠
        .ok (accepted requestIdentifier' responseTo') := by
  intro h
  rw [Except.mapError_eq_ok] at h
  simp only [rejected, Option.isSome_none, Bool.false_eq_true, false_and, ↓reduceIte,
    Except.ok.injEq] at h
  have htype := congrArg OwnedTlv.typeCode h
  rw [typeCode_carrierValue, accepted, typeCode_carrierValue] at htype
  exact absurd htype (by decide)

section Dispatch

variable {c : Crypto} {base64 : Nodelist.Base64} {arrival : Arrival c} {s : Store}

def Arrival.acceptedAnswer (arrival : Arrival c) : Except DispatchError OwnedTlv :=
  .ok (accepted arrival.item.requestIdentifier arrival.responseTo)

/--
The ways in which a relay ends once it is prepared.
-/
inductive Committed (s : Store) (arrival : Arrival c) (identity : SubmissionIdentity) (job : NewOutboundJob)
    : Except DispatchError OwnedTlv → Store → Prop where
  | conflict {entry : SubmissionEntry} (hentry : s.submissions[identity.key]? = some entry)
      (hdigest : entry.digest ≠ identity.digest)
      : Committed s arrival identity job (.error .relayConflict) s
  | existing {entry : SubmissionEntry} (hentry : s.submissions[identity.key]? = some entry)
      : Committed s arrival identity job arrival.acceptedAnswer s
  | new {s' : Store} {jobId : String} (hnone : s.submissions[identity.key]? = none)
      (hfree : s.jobs[jobId]? = none) (hjobs : s'.jobs = s.jobs.insert jobId (makeJob jobId job))
      (hsubmissions : s'.submissions = s.submissions.insert identity.key ⟨jobId, identity.digest⟩)
      : Committed s arrival identity job arrival.acceptedAnswer s'

theorem dispatch_eq_relay (hrelay : arrival.IsRelay)
    : arrival.dispatch base64 s =
        relay c base64 arrival.acceptance arrival.item arrival.responseTo arrival.peer
          arrival.surroundings s := by
  obtain ⟨hkind, hdestination⟩ := hrelay
  simp [Arrival.dispatch, Accept.dispatch, hkind, hdestination]

theorem dispatch_relay (base64 : Nodelist.Base64) (hinv : BatchInv s) (hrelay : arrival.IsRelay)
    : ((arrival.dispatch base64 s).2 = s ∧ (arrival.dispatch base64 s).1 ≠ arrival.acceptedAnswer ∧
          (arrival.dispatch base64 s).1 ≠ .error .relayConflict) ∨
        ∃ signed identity job, arrival.Authorized signed ∧
          relayIdentity c base64 signed = .ok identity ∧ job.identity = identity ∧
          job.deliveries.length = 1 ∧ BatchInv (arrival.dispatch base64 s).2 ∧
          Committed s arrival identity job (arrival.dispatch base64 s).1
            (arrival.dispatch base64 s).2 := by
  rw [dispatch_eq_relay hrelay]
  unfold relay
  split
  . next error _ =>
    left
    exact ⟨rfl, by simp [Arrival.acceptedAnswer], by simp⟩
  . next requestIdentifier _ =>
    split
    . next refusal _ =>
      left
      refine ⟨rfl, rejected_ne_accepted, ?_⟩
      intro h
      simp only [rejected, Option.isSome_none, Bool.false_eq_true, false_and, ↓reduceIte,
        Except.mapError] at h
      cases h
    . next prepared hprepared =>
      obtain ⟨signed, hauthorized, hidentity, hjob, hlength⟩ := prepareRelay_authorized hrelay hprepared
      split
      . next error _ =>
        left
        exact ⟨rfl, by simp [Arrival.acceptedAnswer], by simp⟩
      . next outcomes s' hcommit =>
        right
        have hstep : (step c s (.commitBatch [prepared.identity] (relayBuilder prepared.job)
            arrival.surroundings.rng)).2 = s' := by
          simp only [step, hcommit, transact]
        refine ⟨signed, prepared.identity, prepared.job, hauthorized, hidentity, hjob, hlength,
          hstep ▸ (step_batchInv c hinv _).1, ?_⟩
        obtain ⟨_, _, hresult, _⟩ | ⟨_, entry, _, hentry, rfl⟩ |
          ⟨_, jobId, _, hnone, hfree, _, hjobs, _, hsubmissions⟩ := commitBatch_single hinv hcommit
        . cases hresult
        . exact .existing hentry
        . exact .new hnone hfree hjobs hsubmissions
      . next positions s' hcommit =>
        right
        obtain ⟨_, entry, _, hentry, hdigest, rfl⟩ | ⟨_, _, hresult, _⟩ | ⟨_, _, hresult, _⟩ :=
          commitBatch_single hinv hcommit
        . exact ⟨signed, prepared.identity, prepared.job, hauthorized, hidentity, hjob, hlength, hinv,
            .conflict hentry hdigest⟩
        . cases hresult
        . cases hresult

end Dispatch

/--
What a key of the relay is bound to: the digest of its text, one copy, and an arrival of the past that
was authorized.
-/
structure Bound (c : Crypto) (base64 : Nodelist.Base64) (past : List (Event c)) (s : Store) (key : String)
    (entry : SubmissionEntry)
    : Prop where
  digest : c.hashTlv (Bytes.ofString key) = .ok entry.digest
  copy : ∃ job, s.jobs[entry.jobId]? = some job ∧ job.application = relayApplication ∧
    job.idempotencyKey = key ∧ job.deliveries.length = 1
  source : ∃ arrival signed, .arrive arrival ∈ past ∧ arrival.Authorized signed ∧
    key = relayKey base64 signed

/--
What holds after every run of a daemon.
-/
structure RelayInv (c : Crypto) (base64 : Nodelist.Base64) (past : List (Event c)) (s : Store) : Prop where
  batch : BatchInv s
  bound : ∀ key entry, s.submissions[submissionKey relayApplication key]? = some entry →
    Bound c base64 past s key entry

section Run

variable {c : Crypto} {base64 : Nodelist.Base64} {past : List (Event c)} {s : Store}

theorem Bound.step {key : String} {entry : SubmissionEntry} (h : Bound c base64 past s key entry)
    (hinv : BatchInv s) (op : Op) (event : Event c)
    : Bound c base64 (past ++ [event]) (Tith.step c s op).2 key entry := by
  obtain ⟨job, hjob, happlication, hkey, hlength⟩ := h.copy
  obtain ⟨arrival, signed, hmem, hsource⟩ := h.source
  refine ⟨h.digest, ?_, ⟨arrival, signed, List.mem_append_left _ hmem, hsource⟩⟩
  obtain ⟨job', hjob', rfl | hadvance⟩ := step_derived c hinv.ledger op _ job hjob
  . exact ⟨job', hjob', happlication, hkey, hlength⟩
  . exact ⟨job', hjob', hadvance.application.trans happlication, hadvance.idempotencyKey.trans hkey,
      hadvance.copies.length_eq ▸ hlength⟩

theorem step_relay_submissions (hinv : BatchInv s) {op : Op} (hop : LeavesRelay op) (key : String)
    : (Tith.step c s op).2.submissions[submissionKey relayApplication key]? =
        s.submissions[submissionKey relayApplication key]? := by
  by_cases hcreates : op.Creates
  . cases op with
    | commitBatch identities build rng =>
      rcases transact_cases s (commitBatch identities build rng s) Answer.batch with
        ⟨e, _, heq⟩ | ⟨result, s', hok, heq⟩
      . simp only [Tith.step, heq]
      . simp only [Tith.step, heq]
        apply commitBatch_submissions hinv hok
        intro identity hmem hkey
        exact hop identity hmem (submissionKey_inj hkey).1
    | _ => exact hcreates.elim
  . rw [step_submissions c s hcreates]

theorem RelayInv.step_other (h : RelayInv c base64 past s) {op : Op} (hop : LeavesRelay op)
    (event : Event c)
    : RelayInv c base64 (past ++ [event]) (Tith.step c s op).2 := by
  refine ⟨(step_batchInv c h.batch op).1, ?_⟩
  intro key entry hentry
  rw [step_relay_submissions h.batch hop] at hentry
  exact (h.bound key entry hentry).step h.batch op event

theorem RelayInv.keep (h : RelayInv c base64 past s) (event : Event c)
    : RelayInv c base64 (past ++ [event]) s := by
  refine ⟨h.batch, ?_⟩
  intro key entry hentry
  have hbound := h.bound key entry hentry
  obtain ⟨arrival, signed, hmem, hsource⟩ := hbound.source
  exact ⟨hbound.digest, hbound.copy, arrival, signed, List.mem_append_left _ hmem, hsource⟩

theorem dispatch_store (base64 : Nodelist.Base64) (s : Store) {arrival : Arrival c}
    (hlocal : ¬arrival.IsRelay)
    : (arrival.dispatch base64 s).2 = s ∨
        ∃ op, LeavesRelay op ∧ (arrival.dispatch base64 s).2 = (Tith.step c s op).2 := by
  -- An item for this node is stored by an operation that does not touch the spool.
  have hdispatch : arrival.dispatch base64 s =
      store c arrival.acceptance arrival.item arrival.responseTo arrival.peer arrival.surroundings s := by
    unfold Arrival.dispatch Accept.dispatch
    exact if_neg hlocal
  rw [hdispatch]
  unfold store
  split
  . exact .inl rfl
  . exact .inl rfl
  . exact .inl rfl
  . next authentication _ _ =>
    right
    refine ⟨.accept (inboundOf arrival.acceptance arrival.item arrival.peer authentication
      arrival.surroundings.created) arrival.item.duplicateIdentity arrival.surroundings.rng, trivial, ?_⟩
    simp only [Tith.step]
    generalize accept c _ _ _ s = outcome
    cases outcome with
    | error error => rfl
    | ok result => rfl

theorem RelayInv.spool (h : RelayInv c base64 past s) {arrival : Arrival c} {signed : SignedItemIdentity}
    {identity : SubmissionIdentity} {job : NewOutboundJob} {s' : Store} {jobId : String}
    (hauthorized : arrival.Authorized signed) (hidentity : relayIdentity c base64 signed = .ok identity)
    (hjob : job.identity = identity) (hlength : job.deliveries.length = 1) (hbatch : BatchInv s')
    (hfree : s.jobs[jobId]? = none) (hjobs : s'.jobs = s.jobs.insert jobId (makeJob jobId job))
    (hsubmissions : s'.submissions = s.submissions.insert identity.key ⟨jobId, identity.digest⟩)
    : RelayInv c base64 (past ++ [.arrive arrival]) s' := by
  -- The new job of a relay is bound to its own arrival, and the jobs there were stay bound.
  obtain ⟨happlication, hkey, hdigest⟩ := relayIdentity_eq hidentity
  refine ⟨hbatch, ?_⟩
  intro key entry hentry
  rw [hsubmissions] at hentry
  obtain ⟨heq, rfl⟩ | ⟨_, hold⟩ := Table.getElem?_insert_some hentry
  . have hkey' : identity.idempotencyKey = key := (submissionKey_inj heq).2
    refine ⟨?_, ?_, ⟨arrival, signed, by simp, hauthorized, by rw [← hkey', hkey]⟩⟩
    . rw [← hkey', hkey]
      exact hdigest
    . refine ⟨makeJob jobId job, by rw [hjobs]; simp, ?_, ?_, ?_⟩
      . simp [makeJob, hjob, happlication]
      . simp [makeJob, hjob, hkey']
      . simp [makeJob, hlength]
  . have hbound := h.bound key entry hold
    obtain ⟨old, hget, hrest⟩ := hbound.copy
    obtain ⟨source, signed', hmem, hsource⟩ := hbound.source
    refine ⟨hbound.digest, ⟨old, ?_, hrest⟩, source, signed', List.mem_append_left _ hmem, hsource⟩
    rw [hjobs, Table.getElem?_insert_ne, hget]
    rintro rfl
    rw [hfree] at hget
    cases hget

theorem RelayInv.daemonStep (h : RelayInv c base64 past s) (event : Event c)
    : RelayInv c base64 (past ++ [event]) (Accept.daemonStep c base64 s event).2 := by
  cases event with
  | other op hop => exact h.step_other hop _
  | arrive arrival =>
    dsimp only [Accept.daemonStep]
    by_cases hrelay : arrival.IsRelay
    . obtain ⟨hsame, _⟩ | ⟨signed, identity, job, hauthorized, hidentity, hjob, hlength, hbatch,
        hcommitted⟩ := dispatch_relay base64 h.batch hrelay
      . rw [hsame]
        exact h.keep _
      . generalize (arrival.dispatch base64 s).1 = answer at hcommitted
        generalize (arrival.dispatch base64 s).2 = s' at hcommitted hbatch ⊢
        cases hcommitted with
        | conflict => exact h.keep _
        | existing => exact h.keep _
        | new hnone hfree hjobs hsubmissions =>
          exact h.spool hauthorized hidentity hjob hlength hbatch hfree hjobs hsubmissions
    . obtain hsame | ⟨op, hop, heq⟩ := dispatch_store base64 s hrelay
      . rw [hsame]
        exact h.keep _
      . rw [heq]
        exact h.step_other hop _

theorem run_relayInv (c : Crypto) (base64 : Nodelist.Base64) (events : List (Event c))
    : RelayInv c base64 events ((daemonMachine c base64).run .empty events) := by
  apply Machine.history
  . intro past s event h
    exact h.daemonStep event
  . refine ⟨empty_batchInv, ?_⟩
    intro key entry hentry
    simp [Store.empty] at hentry

/--
Relays over every run of a daemon: what is spooled is authorized, what is accepted is in the spool by an
authorized arrival of the same signed item, nothing is spooled twice and no arrival is a conflict.
-/
theorem relay_spools_once (c : Crypto) (base64 : Nodelist.Base64) (hbase64 : base64.Lawful)
    (events : List (Event c))
    : let s := (daemonMachine c base64).run .empty events
      (∀ arrival : Arrival c, arrival.IsRelay →
        let answer := (arrival.dispatch base64 s).1
        let s' := (arrival.dispatch base64 s).2
        (s'.jobs ≠ s.jobs →
          ∃ signed, ∃ jobId : String, ∃ job, arrival.Authorized signed ∧ s.jobs[jobId]? = none ∧
            s'.jobs = s.jobs.insert jobId job ∧ Spools base64 signed job ∧ job.deliveries.length = 1) ∧
        (answer = arrival.acceptedAnswer →
          ∃ signed, ∃ jobId : String, ∃ job, signedIdentity arrival.item = some signed ∧
            s'.jobs[jobId]? = some job ∧ Spools base64 signed job ∧ job.deliveries.length = 1 ∧
            ∃ source : Arrival c, .arrive source ∈ events ++ [.arrive arrival] ∧
              source.Authorized signed) ∧
        (∀ signed (jobId : String) job, signedIdentity arrival.item = some signed →
          s.jobs[jobId]? = some job → Spools base64 signed job → s' = s) ∧
        answer ≠ .error .relayConflict) ∧
      ∀ (signed : SignedItemIdentity) (jobId jobId' : String) job job', s.jobs[jobId]? = some job →
        s.jobs[jobId']? = some job' → Spools base64 signed job → Spools base64 signed job' →
        jobId = jobId' := by
  have hinv := run_relayInv c base64 events
  generalize (daemonMachine c base64).run .empty events = s at *
  refine ⟨?_, ?_⟩
  . intro arrival hrelay
    have hinv' := hinv.daemonStep (.arrive arrival)
    dsimp only [daemonStep] at hinv'
    obtain ⟨hsame, hanswer, hconflict⟩ | ⟨signed, identity, job, hauthorized, hidentity, hjob, hlength,
      _, hcommitted⟩ := dispatch_relay base64 hinv.batch hrelay
    . exact ⟨fun h => absurd (by rw [hsame]) h, fun h => absurd h hanswer, fun _ _ _ _ _ _ => hsame,
        hconflict⟩
    . obtain ⟨happlication, hkey, hdigest⟩ := relayIdentity_eq hidentity
      have hsubmission : identity.key = submissionKey relayApplication (relayKey base64 signed) := by
        rw [SubmissionIdentity.key, happlication, hkey]
      -- Whatever is bound to the key now, it is a job that an authorized arrival has spooled.
      have hdurable : ∀ entry, (arrival.dispatch base64 s).2.submissions[identity.key]? = some entry →
          ∃ signed, ∃ jobId : String, ∃ job, signedIdentity arrival.item = some signed ∧
            (arrival.dispatch base64 s).2.jobs[jobId]? = some job ∧ Spools base64 signed job ∧
            job.deliveries.length = 1 ∧ ∃ source : Arrival c,
              .arrive source ∈ events ++ [.arrive arrival] ∧ source.Authorized signed := by
        intro entry hentry
        rw [hsubmission] at hentry
        have hbound := hinv'.bound _ entry hentry
        obtain ⟨found, hfound, hname, hfoundKey, hfoundLength⟩ := hbound.copy
        obtain ⟨source, signed', hmem, hsource, hsourceKey⟩ := hbound.source
        rw [← relayKey_inj hbase64 hsourceKey] at hsource
        exact ⟨signed, entry.jobId, found, hauthorized.identity, hfound, ⟨hname, hfoundKey⟩, hfoundLength,
          source, hmem, hsource⟩
      -- A job for this item is a binding of its key.
      have hspooled : ∀ signed' (jobId : String) job, signedIdentity arrival.item = some signed' →
          s.jobs[jobId]? = some job → Spools base64 signed' job →
          s.submissions[identity.key]? = some ⟨jobId, job.digest⟩ := by
        intro signed' jobId old hsigned hold hspools
        rw [hauthorized.identity] at hsigned
        cases hsigned
        rw [hsubmission, ← hspools.1, ← hspools.2]
        exact hinv.batch.submissions.bound jobId old hold
      generalize (arrival.dispatch base64 s).1 = answer at hcommitted ⊢
      generalize (arrival.dispatch base64 s).2 = s' at hcommitted hdurable ⊢
      cases hcommitted with
      | @conflict entry hentry hdifferent =>
        -- The digest of a key of the relay is the hash of its text.
        rw [hsubmission] at hentry
        have hsame := (hinv.bound _ entry hentry).digest
        rw [hdigest] at hsame
        injection hsame with hsame
        exact absurd hsame.symm hdifferent
      | @existing entry hentry =>
        exact ⟨fun h => absurd rfl h, fun _ => hdurable entry hentry, fun _ _ _ _ _ _ => rfl,
          by simp [Arrival.acceptedAnswer]⟩
      | @new _ jobId hnone hfree hjobs hsubmissions =>
        refine ⟨?_, ?_, ?_, by simp [Arrival.acceptedAnswer]⟩
        . intro _
          refine ⟨signed, jobId, makeJob jobId job, hauthorized, hfree, hjobs, ⟨?_, ?_⟩, ?_⟩
          . simp [makeJob, hjob, happlication]
          . simp [makeJob, hjob, hkey]
          . simp [makeJob, hlength]
        . intro _
          exact hdurable ⟨jobId, identity.digest⟩ (by rw [hsubmissions]; simp)
        . intro signed' jobId' old hsigned hold hspools
          rw [hspooled signed' jobId' old hsigned hold hspools] at hnone
          cases hnone
  . intro signed jobId jobId' job job' hjob hjob' hspools hspools'
    have hbound := hinv.batch.submissions.bound jobId job hjob
    have hbound' := hinv.batch.submissions.bound jobId' job' hjob'
    rw [hspools.1, hspools.2] at hbound
    rw [hspools'.1, hspools'.2, hbound] at hbound'
    injection hbound' with heq
    exact (SubmissionEntry.mk.inj heq).1

end Run

def rfc4648 : Nodelist.Base64 := ⟨Rfc4648.encode, Rfc4648.decode⟩

theorem rfc4648_lawful : rfc4648.Lawful where
  injective _ _ h := Rfc4648.encode_inj h
  length := Rfc4648.length_encode

namespace RelayedNetMail

def isRelayed (n : UInt8) (raw : OwnedTlv) (item : ValidatedItem) : Bool :=
  item.raw = raw && item.kind = .netMail && item.destination ≠ some (identity n)

def arrival (n : UInt8) (raw : OwnedTlv) (item : ValidatedItem)
    (h : validateItem crypto raw (resolver n) = .ok (some item)) (hrelayed : isRelayed n raw item = true)
    : Arrival crypto where
  acceptance := acceptance n
  item
  responseTo := Vector.replicate 32 0
  peer := identity (n - 1)
  surroundings := ⟨.ok 300, 5, 6, []⟩
  valid := by
    simp only [isRelayed, Bool.and_eq_true, decide_eq_true_eq] at hrelayed
    refine ⟨_, _, .refl, .inr rfl, ?_⟩
    rw [hrelayed.1.1]
    exact h

def surroundings (n : UInt8) : Surroundings := ⟨.ok 300, 5, 6, [Sample.draw n]⟩

def dispatched (n : UInt8) (item : ValidatedItem) (s : Store) : Except DispatchError OwnedTlv × Store :=
  dispatch crypto rfc4648 (acceptance 1) item (Vector.replicate 32 0) (identity 0) (surroundings n) s

/--
The message, if the first system accepts it when it comes twice.
-/
def acceptedTwice : Option ValidatedItem := do
  let item ← (validateItem crypto message (resolver 1)).toOption.join
  let answer := some (accepted item.requestIdentifier (Vector.replicate 32 0))
  let first := dispatched 1 item .empty
  if isRelayed 1 message item && first.1.toOption = answer && (dispatched 2 item first.2).1.toOption = answer then
    some item
  else
    none

def transmission (item : ValidatedItem) (h : validateItem crypto message (resolver 1) = .ok (some item))
    (hrelayed : isRelayed 1 message item = true) (n : UInt8)
    : Arrival crypto :=
  { arrival 1 message item h hrelayed with surroundings := surroundings n }

theorem transmission_isRelay {item : ValidatedItem} {h : validateItem crypto message (resolver 1) = .ok (some item)}
    {hrelayed : isRelayed 1 message item = true} {n : UInt8}
    : (transmission item h hrelayed n).IsRelay := by
  have hholds := hrelayed
  simp only [isRelayed, Bool.and_eq_true, decide_eq_true_eq] at hholds
  exact ⟨hholds.1.2, hholds.2⟩

end RelayedNetMail

open RelayedNetMail in
theorem relay_spools_once_retransmission
    : rfc4648.Lawful ∧ ∃ first second : Arrival crypto, first.IsRelay ∧ second.item = first.item ∧
        let s := (daemonMachine crypto rfc4648).run .empty [.arrive first]
        (second.dispatch rfc4648 s).1 = second.acceptedAnswer ∧ (second.dispatch rfc4648 s).2 = s ∧
        ∃ signed, ∃ jobId : String, ∃ job, signedIdentity first.item = some signed ∧ s.jobs[jobId]? = some job ∧
          Spools rfc4648 signed job ∧ job.deliveries.length = 1 := by
  have hsome : acceptedTwice.isSome = true := by decide +kernel
  obtain ⟨result, htaken⟩ := Option.isSome_iff_exists.mp hsome
  simp only [acceptedTwice, Option.bind_eq_bind, Option.bind_eq_some_iff, Except.toOption_eq_some,
    Option.join_eq_some_iff] at htaken
  obtain ⟨item, hitem, htaken⟩ := htaken
  split at htaken
  . next hholds =>
    simp only [Bool.and_eq_true, decide_eq_true_eq] at hholds
    obtain ⟨⟨hrelayed, hfirst⟩, hsecond⟩ := hholds
    let first := transmission item hitem hrelayed 1
    let second := transmission item hitem hrelayed 2
    obtain ⟨signed, jobId, job, hsigned, hjob, hspools, hlength, _⟩ :=
      ((relay_spools_once crypto rfc4648 rfc4648_lawful []).1 first transmission_isRelay).2.1 hfirst
    refine ⟨rfc4648_lawful, first, second, transmission_isRelay, rfl, hsecond, ?_, signed, jobId, job, hsigned, hjob,
      hspools, hlength⟩
    exact ((relay_spools_once crypto rfc4648 rfc4648_lawful [.arrive first]).1 second transmission_isRelay).2.2.1 signed
      jobId job hsigned hjob hspools
  . cases htaken

end Accept

end Tith
