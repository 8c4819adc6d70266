import Tith.Ipc.Framing
import Tith.Ipc.Requests
import Tith.Ipc.Service
import Tith.Lib.Base64

/-!
This module contains the agreement of the framer with the parsers of requests and the service that builds the
results: a stream of documents is cut where the documents end.
-/

namespace Tith.Ipc

/-!
Rules for the programs of the service.
-/

structure Sound (s : Store) : Prop where
  batch : BatchInv s
  identifiers : IdentifierInv s

section Rules

variable {c : Crypto}

theorem stable_sound : (serviceWorld c).Stable Sound := by
  rintro s s' ⟨op, rfl⟩ hs
  exact ⟨(step_batchInv c hs.batch op).1, step_identifierInv c hs.batch hs.identifiers op⟩

/--
Whatever the program ends with has the property, if nothing but the operations of the store happens to the
store.
-/
def Answers (c : Crypto) (post : α → Prop) (p : Program Call Call.reply α) : Prop :=
  (serviceWorld c).Triple (fun _ => True) (fun _ => True) Sound p (fun a s => Sound s ∧ post a)

theorem answers_pure {post : α → Prop} {a : α} (h : post a) : Answers c post (pure a) :=
  Program.World.Triple.pure stable_sound (fun _ _ => trivial) (fun _ hs => ⟨hs, h⟩)

theorem answers_bind {mid : α → Prop} {post : β → Prop} {p : Program Call Call.reply α}
    {next : α → Program Call Call.reply β} (h : Answers c mid p) (hnext : ∀ a, mid a → Answers c post (next a))
    : Answers c post (p >>= next) := by
  apply Program.World.Triple.bind h
  intro a s hs
  exact hnext a hs.2 s hs.1

theorem answers_map {mid : α → Prop} {post : β → Prop} {p : Program Call Call.reply α} {f : α → β}
    (h : Answers c mid p) (hf : ∀ a, mid a → post (f a))
    : Answers c post (f <$> p) :=
  answers_bind h (fun a ha => answers_pure (hf a ha))

theorem answers_perform {call : Call} {post : call.reply → Prop}
    (h : ∀ s f, Sound s → post ((serviceWorld c).act s call f).1)
    : Answers c post (Program.perform call) := by
  apply Program.World.Triple.perform stable_sound (fun _ _ => trivial) (fun _ _ _ => trivial)
  . intro s f hs _
    refine ⟨?_, h s f hs⟩
    cases call with
    | transact op =>
      dsimp only [serviceWorld]
      split
      . exact hs
      . exact stable_sound s _ ⟨op, rfl⟩ hs
    | _ => exact hs
  . rintro r s s' hmove ⟨hs, hr⟩
    exact ⟨stable_sound s s' hmove hs, hr⟩
  . exact fun _ _ _ => trivial

def Replies (c : Crypto) (post : α → Prop) (x : Service α) : Prop :=
  Answers c (fun r => ∀ a, r = .ok a → post a) x.run

theorem replies_pure {post : α → Prop} {a : α} (h : post a) : Replies c post (pure a) := by
  apply answers_pure
  rintro _ ⟨⟩
  exact h

theorem replies_throw {post : α → Prop} (e : StoreError) : Replies c post (throw e) := by
  apply answers_pure
  rintro _ ⟨⟩

theorem replies_bind {mid : α → Prop} {post : β → Prop} {x : Service α} {next : α → Service β}
    (h : Replies c mid x) (hnext : ∀ a, mid a → Replies c post (next a))
    : Replies c post (x >>= next) := by
  apply answers_bind h
  rintro (e | a) ha
  . exact replies_throw e
  . exact hnext a (ha a rfl)

theorem replies_map {mid : α → Prop} {post : β → Prop} {x : Service α} {f : α → β} (h : Replies c mid x)
    (hf : ∀ a, mid a → post (f a))
    : Replies c post (f <$> x) := by
  apply answers_bind h
  rintro (e | a) ha
  . exact replies_throw e
  . exact replies_pure (hf a (ha a rfl))

theorem replies_ask {call : Call} {post : call.reply → Prop}
    (h : ∀ s f, Sound s → post ((serviceWorld c).act s call f).1)
    : Replies c post (Service.ask call) := by
  apply answers_map (answers_perform h)
  rintro r hr _ ⟨⟩
  exact hr

theorem replies_any (call : Call) : Replies c (fun _ => True) (Service.ask call) :=
  replies_ask (fun _ _ _ => trivial)

theorem replies_attempt {post : α → Prop} {call : Service (Except StoreError α)}
    (h : Replies c (fun r => ∀ a, r = .ok a → post a) call)
    : Replies c post (Service.attempt call) := by
  apply replies_bind h
  rintro (e | a) ha
  . exact replies_throw e
  . exact replies_pure (ha a rfl)

theorem replies_read {post : α → Prop} {query : Store → Except StoreError α}
    (h : ∀ s a, Sound s → query s = .ok a → post a)
    : Replies c post (Service.read query) := by
  apply replies_bind (@replies_ask c .read Sound (fun s _ hs => hs))
  intro s hs
  split
  . exact replies_throw _
  . next a hquery => exact replies_pure (h s a hs hquery)

theorem replies_expect {post : α → Prop} {op : Op} {select : Answer → Option α}
    (h : ∀ s answer s' a, Sound s → Sound s' → step c s op = (.ok answer, s') → select answer = some a → post a)
    : Replies c post (Service.expect op select) := by
  have hissue : Replies c (fun answer => ∀ a, select answer = some a → post a) (Service.issue op) := by
    apply replies_attempt
    apply replies_ask
    intro s f hs answer hanswer a hselect
    dsimp only [serviceWorld] at hanswer
    split at hanswer
    . cases hanswer
    . exact h s answer (step c s op).2 a hs (stable_sound s _ ⟨op, rfl⟩ hs) (Prod.ext hanswer rfl) hselect
  apply replies_bind hissue
  intro answer hanswer
  split
  . exact replies_throw _
  . next a hselect => exact replies_pure (hanswer a hselect)

end Rules

/-!
What the store answers.
-/

theorem framed_outcomes {identities : List SubmissionIdentity} {build : BatchBuilder} {rng : Rng}
    {s s' : Store} {outcomes : List CommitOutcome} {operation : String} (hs : Sound s) (hs' : Sound s')
    (h : commitBatch identities build rng s = .ok (.committed outcomes, s')) (hoperation : IsLabel operation)
    : Framed (submitCommitted operation outcomes) := by
  obtain ⟨hconflict, _⟩ | ⟨outcomes', heq, _, hcommitted, _⟩ := commitBatch_effect hs.batch h
  . cases hconflict
  . injection heq with heq
    subst heq
    apply framed_submitCommitted hoperation
    intro outcome hmem
    obtain ⟨identity, _, hsubmitted⟩ := List.forall₂_mem_right hcommitted.submitted hmem
    unfold Submitted at hsubmitted
    split at hsubmitted
    . obtain ⟨_, job, hjob, rfl⟩ := hsubmitted
      exact hs.identifiers.job _ job hjob
    . obtain ⟨jobId, job, _, _, rfl, _, hjob, _⟩ := hsubmitted
      exact hs'.identifiers.job _ job hjob

theorem Sound.record {s : Store} (hs : Sound s) {id : String} {record : InboundRecord}
    (h : s.records[id]? = some record)
    : IdentifiedRecord record.inboundId record := by
  have hid : record.inboundId = id := hs.batch.inbox.id id record h
  rw [hid]
  exact hs.identifiers.record id record h

theorem Sound.job {s : Store} (hs : Sound s) {jobId : String} {job : OutboundJob}
    (h : s.jobs[jobId]? = some job)
    : IsIdentifier 'J' job.jobId := by
  rw [(hs.batch.ledger.jobs jobId job h).1]
  exact hs.identifiers.job jobId job h

/--
The identifiers in what a claim answers.
-/
def IdentifiedClaim (result : ClaimResult) : Prop :=
  match result with
  | .completed claim =>
    IdentifiedRecord claim.record.inboundId claim.record ∧ IsIdentifier 'C' claim.claimToken
  | .empty => True
  | .resolved inboundId _ => IsIdentifier 'I' inboundId

theorem claimNext_identified {application : Application} {claimKey : String} {now duration : UInt64} {rng : Rng}
    {s s' : Store} {result : ClaimResult} (hs : Sound s')
    (h : claimNext application claimKey now duration rng s = .ok (result, s'))
    : IdentifiedClaim result := by
  obtain ⟨mapping, hmapping, hagain, rfl⟩ | ⟨_, _, rfl, rfl⟩ |
    ⟨record, token, rng', expires, attempts, _, _, htoken, rfl, rfl⟩ := claimNext_cases h
  . simp only [claimAgain, claimFrom, Except.bind_ok_iff, Option.okOr_eq_ok] at hagain
    obtain ⟨record, hrecord, hagain⟩ := hagain
    split at hagain
    . simp only [Except.ok.injEq] at hagain
      subst hagain
      obtain ⟨other, hother⟩ := hs.batch.inbox.named _ mapping hmapping
      exact (hs.identifiers.record _ other hother).id
    . simp only [Except.bind_ok_iff, Option.okOr_eq_ok, Except.ok.injEq] at hagain
      obtain ⟨claim, ⟨token, htoken, expires, _, rfl⟩, rfl⟩ := hagain
      exact ⟨hs.record hrecord, (hs.record hrecord).token token htoken⟩
  . trivial
  . have hrecord := hs.record Std.ExtTreeMap.getElem?_insert_self
    exact ⟨hrecord, hrecord.token token rfl⟩

theorem claim_identified {application : Application} {claimKey : String} {now duration : UInt64} {rng : Rng}
    {s s' : Store} {result : ClaimResult} (hs : Sound s')
    (h : claim application claimKey now duration rng s = (.ok result, s'))
    : IdentifiedClaim result := by
  unfold claim at h
  split at h
  . simp at h
  . split at h
    . simp at h
    . split at h
      . simp at h
      . next hnext =>
        simp only [Prod.mk.injEq, Except.ok.injEq] at h
        obtain ⟨rfl, rfl⟩ := h
        exact claimNext_identified hs hnext

/-!
What the service answers.
-/

namespace IpcService

section Answers

variable {c : Crypto} {service : IpcService} {principal : Principal}

theorem replies_now : Replies c (fun _ => True) Service.now := replies_any .now

theorem replies_authorizedApplication : Replies c (fun _ => True) (authorizedApplication principal) := by
  unfold authorizedApplication
  split
  . exact replies_throw _
  . exact replies_pure trivial

theorem replies_any_expect (op : Op) (select : Answer → Option α)
    : Replies c (fun _ => True) (Service.expect op select) :=
  replies_expect (fun _ _ _ _ _ _ _ _ => trivial)

theorem replies_issue (op : Op) : Replies c (fun _ => True) (Service.issue op) :=
  replies_attempt (replies_ask (fun _ _ _ _ _ => trivial))

theorem framed_status {operation status : String} (hoperation : IsLabel operation) (hstatus : IsWord status.toList)
    : Framed (operationResult operation [status]) :=
  framed_operationResult hoperation (by simpa using hstatus)

theorem framed_state {operation status : String} (hoperation : IsLabel operation) (hstatus : IsWord status.toList)
    (state : InboundState)
    : Framed (operationResult operation [status, stateName state]) :=
  framed_operationResult hoperation (by simpa [isWord_stateName] using hstatus)

theorem framed_capabilities : Framed service.capabilities := Ipc.framed_capabilities _ _

theorem replies_control {operation id token : String} {resolution : Resolution} (hoperation : IsLabel operation)
    : Replies c Framed (control principal operation id token resolution) := by
  apply replies_bind replies_authorizedApplication
  intro application _
  apply replies_bind replies_now
  intro now _
  apply replies_bind (replies_any_expect _ _)
  intro state _
  apply replies_bind (replies_any _)
  intro _ _
  exact replies_pure (framed_state hoperation (by decide) state)

theorem replies_presentClaim {application : Application} {claim : Claim}
    (hclaim : IdentifiedClaim (.completed claim))
    : Replies c Framed (service.presentClaim application claim) := by
  apply replies_bind (replies_any _)
  intro _ _
  apply replies_bind replies_now
  intro now _
  apply @replies_bind c _ _ (fun _ => True) _ _ _ (replies_read (fun _ _ _ _ => trivial))
  intro payload _
  apply replies_bind (replies_any _)
  rintro (_ | path) _
  . exact replies_throw _
  . exact replies_pure (framed_claimResult _ hclaim.1 hclaim.2 path)

theorem replies_claimOnce {application : Application} {wait : Bool} {claimKey : String}
    {later : Service (List UInt8)} (hlater : Replies c Framed later)
    : Replies c Framed (service.claimOnce application wait claimKey later) := by
  apply replies_bind (replies_any _)
  intro rng _
  apply replies_bind replies_now
  intro now _
  apply @replies_bind c _ _ IdentifiedClaim
  . apply replies_expect
    intro s answer s' result _ hs' hstep hselect
    cases answer with
    | claimed claimed =>
      injection hselect with hselect
      subst hselect
      simp only [step] at hstep
      split at hstep
      . simp at hstep
      . next hclaim =>
        simp only [Prod.mk.injEq, Except.ok.injEq, Answer.claimed.injEq] at hstep
        obtain ⟨rfl, rfl⟩ := hstep
        exact claim_identified hs' hclaim
    | _ => cases hselect
  . rintro (claim | _ | ⟨inboundId, state⟩) hresult
    . exact replies_presentClaim hresult
    . dsimp only
      split
      . exact hlater
      . exact replies_pure (framed_status (by decide) (by decide))
    . apply replies_pure
      apply framed_operationResult (by decide)
      have hid := isWord_identifier hresult (by decide)
      simp [hid, isWord_stateName]
      decide

theorem replies_claimLoop {application : Application} {wait : Bool} {claimKey : String} {polls : Nat}
    : Replies c Framed (service.claimLoop application wait claimKey polls) := by
  induction polls with
  | zero => exact replies_claimOnce (replies_pure (framed_status (by decide) (by decide)))
  | succ polls ih => exact replies_claimOnce ih

theorem replies_claim {application : String} {wait : Bool} {claimKey : String} {presentation : Presentation}
    : Replies c Framed (service.claim principal application wait claimKey presentation) := by
  unfold claim
  split
  . exact replies_pure (framed_status (by decide) (by decide))
  . split
    . exact replies_pure (framed_status (by decide) (by decide))
    . exact replies_claimLoop

theorem replies_dispatchInner {request : ConsumeRequest}
    : Replies c Framed (service.dispatchInner request principal) := by
  unfold dispatchInner
  split
  . exact replies_throw _
  . apply replies_bind replies_now
    intro now _
    apply replies_bind (replies_issue _)
    intro _ _
    cases request with
    | capabilities => exact replies_pure framed_capabilities
    | claim => exact replies_claim
    | renew =>
      apply replies_bind replies_authorizedApplication
      intro application _
      apply replies_bind replies_now
      intro now _
      apply replies_bind (replies_any_expect _ _)
      intro expires _
      apply replies_pure
      apply framed_operationResult (by decide)
      simp [isWord_decimal]
      decide
    | acknowledge => exact replies_control (by decide)
    | release => exact replies_control (by decide)
    | defer => exact replies_control (by decide)
    | reject => exact replies_control (by decide)
    | query =>
      apply replies_bind replies_authorizedApplication
      intro application _
      apply @replies_bind c _ _ (fun record => IdentifiedRecord record.inboundId record)
      . apply replies_read
        intro s record hs hquery
        simp only [queryInboundFor, Except.bind_ok_iff, Option.okOr_eq_ok] at hquery
        obtain ⟨other, hother, hquery⟩ := hquery
        split at hquery
        . injection hquery with heq
          exact heq ▸ hs.record hother
        . cases hquery
      . intro record hrecord
        exact replies_pure (framed_queryResult _ hrecord)

theorem isLabel_requestName (request : ConsumeRequest) : IsLabel (requestName request) := by
  have hall : ∀ name ∈ "Capabilities" :: consumeOperations, IsLabel name := by decide
  apply hall
  cases request <;> simp [requestName, consumeOperations]

theorem framed_dispatchError {operation : String} (hoperation : IsLabel operation) (error : StoreError)
    : Framed (service.dispatchError operation error) := by
  unfold dispatchError
  split
  . exact framed_status hoperation (by decide)
  . exact framed_state hoperation (by decide) _
  . exact framed_errorResult (by decide) _

theorem framed_submitError {operation : String} (hoperation : IsLabel operation) (error : StoreError)
    : Framed (service.submitError operation error) := by
  unfold submitError
  split
  . next position kind description =>
    have hkind : IsWord (buildFailureName kind).toList := by cases kind <;> decide
    exact framed_submitFailure hoperation hkind position description
  . exact framed_submitFailure hoperation (by decide) _ _

theorem answers_submit {request : SubmissionRequest}
    : Answers c Framed (service.submit request principal) := by
  have hoperation : IsLabel (operationName request.operation) := by
    cases request.operation <;> decide
  have hengine : Replies c (fun result => ∀ outcomes, result = .committed outcomes →
      Framed (submitCommitted (operationName request.operation) outcomes)) (engineSubmit request) := by
    apply @replies_bind c _ _ (fun _ => True)
    . exact replies_attempt (replies_ask (fun _ _ _ _ _ => trivial))
    . rintro ⟨identities, build⟩ _
      apply replies_bind (replies_any _)
      intro rng _
      apply replies_expect
      rintro s answer s' result hs hs' hstep hselect outcomes rfl
      cases answer with
      | batch batch =>
        injection hselect with hselect
        subst hselect
        simp only [step] at hstep
        obtain ⟨e, _, heq⟩ | ⟨result, t, hbody, heq⟩ :=
          transact_cases s (commitBatch identities build rng s) Answer.batch
        . simp [heq] at hstep
        . rw [heq] at hstep
          simp only [Prod.mk.injEq, Except.ok.injEq, Answer.batch.injEq] at hstep
          obtain ⟨rfl, rfl⟩ := hstep
          exact framed_outcomes hs hs' hbody hoperation
      | _ => cases hselect
  unfold submit
  dsimp only
  split
  . exact answers_pure (framed_submitFailure hoperation (by decide) _ _)
  . split
    . apply answers_bind hengine
      rintro (e | outcomes | positions) hresult
      . exact answers_pure (framed_submitError hoperation e)
      . exact answers_pure (hresult _ rfl outcomes rfl)
      . apply answers_pure
        apply framed_submitNotCommitted hoperation
        simp only [List.forall_mem_map]
        intro position _
        exact plain_failureLine (by decide) position _
    . exact answers_pure (framed_submitFailure hoperation (by decide) _ _)

theorem answers_lookupSubmission {request : LookupSubmission}
    : Answers c Framed (lookupSubmission request principal) := by
  unfold lookupSubmission
  split
  . exact answers_pure (framed_status (by decide) (by decide))
  . next application _ =>
    have hread : Replies c (fun values => Framed (lookupResult values))
        (Service.read (lookup application request.keys)) := by
      apply replies_read
      intro s values hs hlookup
      apply framed_lookupResult
      intro jobId state hmem
      obtain ⟨key, _, hkey⟩ := List.forall₂_mem_right (Except.mapM_forall₂ hlookup) hmem
      unfold lookupKey at hkey
      split at hkey
      . cases hkey
      . next entry _ =>
        simp only [Except.bind_ok_iff, Option.okOr_eq_ok, Except.ok.injEq,
          SubmissionLookup.existing.injEq] at hkey
        obtain ⟨job, hjob, rfl, _⟩ := hkey
        exact hs.identifiers.job _ job hjob
    apply answers_bind hread
    rintro (e | values) hvalues
    . exact answers_pure (framed_status (by decide) (by decide))
    . exact answers_pure (hvalues values rfl)

theorem replies_job {application : Application} {jobId : String}
    : Replies c (fun job => IsIdentifier 'J' job.jobId) (Service.read (queryJobFor application jobId)) := by
  apply replies_read
  intro s job hs hquery
  simp only [queryJobFor, Except.bind_ok_iff, Option.okOr_eq_ok] at hquery
  obtain ⟨other, hother, hquery⟩ := hquery
  split at hquery
  . cases hquery
  . injection hquery with heq
    exact heq ▸ hs.job hother

theorem replies_reroute {jobId : String} {nextHop : NextHop} {failurePolicy : Option FailureOverride}
    : Replies c Framed (service.reroute principal jobId nextHop failurePolicy) := by
  apply replies_bind replies_authorizedApplication
  intro application _
  apply replies_bind replies_job
  intro job _
  split
  . exact replies_pure (framed_controlResult (by decide) _)
  . split
    . exact replies_pure (framed_controlResult (by decide) _)
    . split
      . apply @replies_bind c _ _ (fun _ => True) _ _ _ (replies_read (fun _ _ _ _ => trivial))
        intro item _
        apply @replies_bind c _ _ (fun _ => True)
        . exact replies_attempt (replies_ask (fun _ _ _ _ _ => trivial))
        . intro delivery _
          apply replies_bind replies_now
          intro now _
          apply replies_bind (replies_any_expect _ _)
          intro outcome _
          exact replies_pure (framed_controlResult (by decide) outcome)
      . exact replies_throw _

theorem replies_eventsOnce {application : Application} {wait : Bool} {later : Service (List UInt8)}
    (hlater : Replies c Framed later)
    : Replies c Framed (eventsOnce application wait later) := by
  apply @replies_bind c _ _ (fun events => ∀ event ∈ events, IsIdentifier 'J' event.jobId)
  . apply replies_read
    intro s events hs hread
    injection hread with hread
    subst hread
    intro event hevent
    simp only [eventsFor, List.mem_mergeSort, List.mem_map, List.mem_filter, Prod.exists] at hevent
    obtain ⟨entry, ⟨⟨key, entry', hentry, rfl⟩, _⟩, rfl⟩ := hevent
    obtain ⟨job, hjob⟩ := hs.batch.ledger.owned key entry' ((Table.mem_toList _ _ _).mp hentry)
    exact hs.identifiers.job _ job hjob
  . intro events hevents
    split
    . exact replies_pure (framed_eventsResult hevents)
    . exact hlater

theorem replies_eventsLoop {application : Application} {wait : Bool} {polls : Nat}
    : Replies c Framed (eventsLoop application wait polls) := by
  induction polls with
  | zero => exact replies_eventsOnce (replies_pure (framed_status (by decide) (by decide)))
  | succ polls ih => exact replies_eventsOnce ih

/--
What is answered is framed, unless there is no answer.
-/
def FramedAnswer (answer : Option (List UInt8)) : Prop := ∀ bytes, answer = some bytes → Framed bytes

theorem framedAnswer_some {bytes : List UInt8} (h : Framed bytes) : FramedAnswer (some bytes) := by
  rintro _ ⟨⟩
  exact h

theorem replies_controlled {operation : String} (hoperation : IsLabel operation) (op : Application → UInt64 → Op)
    : Replies c FramedAnswer (do
        let application ← authorizedApplication principal
        let outcome ← Service.expect (op application (← Service.now)) Answer.controlled?
        pure (some (controlResult operation outcome))) := by
  apply replies_bind replies_authorizedApplication
  intro application _
  apply replies_bind replies_now
  intro now _
  apply replies_bind (replies_any_expect _ _)
  intro outcome _
  exact replies_pure (framedAnswer_some (framed_controlResult hoperation outcome))

theorem replies_jobRequestInner {request : JobRequest}
    : Replies c FramedAnswer (service.jobRequestInner request principal) := by
  cases request with
  | query jobId itemAware paths =>
    apply replies_bind replies_authorizedApplication
    intro application _
    apply replies_bind replies_job
    intro job hjob
    split
    . exact replies_throw _
    . exact replies_pure (fun _ h => framed_outboundQueryResult hjob h)
  | cancel jobId => exact replies_controlled (by decide) (fun application now => .cancel application jobId now)
  | retry jobId => exact replies_controlled (by decide) (fun application now => .retry application jobId now)
  | reroute => exact replies_map replies_reroute (fun _ => framedAnswer_some)
  | events =>
    dsimp only [jobRequestInner]
    split
    . exact replies_pure (framedAnswer_some (framed_status (by decide) (by decide)))
    . exact replies_map replies_eventsLoop (fun _ => framedAnswer_some)
  | acknowledge =>
    dsimp only [jobRequestInner]
    split
    . exact replies_pure (framedAnswer_some (framed_status (by decide) (by decide)))
    . apply replies_bind (replies_issue _)
      intro _ _
      exact replies_pure (framedAnswer_some (framed_status (by decide) (by decide)))

theorem framed_jobRequestError {input : List UInt8} {document : Document} {operation : String}
    {fields : List Field} {lines : List Line} (hparse : Document.parse input .request = .ok document)
    (hlines : document.lines = ⟨⟨operation, false⟩ :: fields⟩ :: lines) (hoperation : IsLabel operation)
    (error : StoreError)
    : Framed (service.jobRequestError input error) := by
  obtain ⟨kind, _⟩ := document
  dsimp only at hlines
  subst hlines
  unfold jobRequestError
  split
  . simp only [hparse]
    exact framed_status hoperation (by decide)
  . exact framed_errorResult (by decide) _
  . exact framed_errorResult (by decide) _
  . exact framed_errorResult (by decide) _

theorem answers_invalid (error : IpcError) : Answers c FramedAnswer (invalid error) :=
  answers_pure (framedAnswer_some (framed_errorResult (by decide) _))

theorem answers_processOperation {operation : String} {document : Document} {request : List UInt8}
    {fields : List Field} {lines : List Line} (hparse : Document.parse request .request = .ok document)
    (hlines : document.lines = ⟨⟨operation, false⟩ :: fields⟩ :: lines)
    : Answers c FramedAnswer (service.processOperation operation document request principal) := by
  unfold processOperation
  split
  . exact answers_pure (framedAnswer_some framed_capabilities)
  . split
    . split
      . exact answers_invalid _
      . next parsed _ =>
        apply answers_bind replies_dispatchInner
        rintro (e | value) hvalue
        . exact answers_pure (framedAnswer_some (framed_dispatchError (isLabel_requestName parsed) e))
        . exact answers_pure (framedAnswer_some (hvalue value rfl))
    . split
      . split
        . exact answers_invalid _
        . exact answers_map answers_submit (fun _ => framedAnswer_some)
      . split
        . split
          . exact answers_invalid _
          . exact answers_map answers_lookupSubmission (fun _ => framedAnswer_some)
        . split
          . next hoperation =>
            have hall : ∀ name ∈ jobOperations, IsLabel name := by decide
            split
            . exact answers_invalid _
            . apply answers_bind replies_jobRequestInner
              rintro (e | value) hvalue
              . exact answers_pure
                  (framedAnswer_some (framed_jobRequestError hparse hlines (hall _ hoperation) e))
              . exact answers_pure (hvalue value rfl)
          . exact answers_pure (framedAnswer_some (framed_errorResult (by decide) _))

theorem answers_processRequest {request : List UInt8} {principal : Option Principal}
    : Answers c FramedAnswer (service.processRequest request principal) := by
  unfold processRequest
  split
  . exact answers_invalid _
  . next document hparse =>
    split
    . exact answers_pure (framedAnswer_some (framed_errorResult (by decide) _))
    . split
      . next hlines => exact answers_processOperation hparse hlines
      . exact answers_pure (framedAnswer_some (framed_errorResult (by decide) _))

end Answers

end IpcService

/--
The framer is not finished with a line in front of the last one, it is finished with the last one, and in a
stream it leaves what is behind.
-/
structure CutsAtEnd (kind : EnvelopeKind) (input : List UInt8) : Prop where
  feed :
    (DocumentFramer.new kind).feed (byteLines input) =
      List.replicate ((byteLines input).length - 1) (.ok false) ++ [.ok true]
  stream : ∀ rest,
    (DocumentFramer.new kind).readDocument (byteLines (input ++ rest)) = .ok (byteLines input, byteLines rest)

theorem cutsAtEnd_of_isDocument {kind : EnvelopeKind} {input : List UInt8}
    (h : DocumentFramer.IsDocument kind (byteLines input))
    : CutsAtEnd kind input := by
  refine ⟨DocumentFramer.feed_document h, ?_⟩
  intro rest
  rw [byteLines_append_of_getLast (DocumentFramer.getLast?_of_isDocument h)]
  exact DocumentFramer.readDocument_document h (byteLines rest)

/--
Every request that one of the parsers takes, and every result that the daemon builds for whatever request from
any store that it can have, with whatever others do to the store in the meantime.
-/
theorem documents_cut_at_end (c : Crypto)
    : (∀ input, (∃ request, SubmissionRequest.parse input = .ok request) ∨
          (∃ request, JobRequest.parse input = .ok request) ∨
          (∃ request, ConsumeRequest.parse input = .ok request) ∨
          (∃ request, LookupSubmission.parse input = .ok request) →
        CutsAtEnd .request input) ∧
      ∀ (service : IpcService) (request : List UInt8) (principal : Option Principal) (s : Store),
        Reachable c s →
        (serviceWorld c).Upholds (fun _ => True) (fun _ => True)
          (fun answer _ => ∀ bytes, answer = some bytes → CutsAtEnd .result bytes)
          (service.processRequest request principal) s := by
  constructor
  . rintro input (⟨_, h⟩ | ⟨_, h⟩ | ⟨_, h⟩ | ⟨_, h⟩)
    . exact cutsAtEnd_of_isDocument (isDocument_submission h)
    . exact cutsAtEnd_of_isDocument (isDocument_job h)
    . exact cutsAtEnd_of_isDocument (isDocument_consume h)
    . exact cutsAtEnd_of_isDocument (isDocument_lookup h)
  . rintro service request principal s ⟨ops, rfl⟩
    have hsound : Sound ((storeMachine c).run .empty ops) :=
      ⟨run_batchInv c empty_batchInv ops, run_identifierInv c ops⟩
    have hanswers : Answers c IpcService.FramedAnswer (service.processRequest request principal) :=
      IpcService.answers_processRequest
    apply (hanswers _ hsound).mono
    intro answer _ hanswer bytes hbytes
    exact cutsAtEnd_of_isDocument (hanswer.2 bytes hbytes)

/-!
A submission of a message with a file, and the questions after a job with two copies and what has happened to it.
-/

namespace QueriedJob

def submission : List UInt8 :=
  Bytes.ofString "TITH-IPC 1\nSubmit\nJob\nApplication \"a\"\nIdempotency-Key \"1\"\nOrigin \"f#1\"\n" ++
    Bytes.ofString "Destination \"f#2\"\nTo-User \"B\"\nFrom-User \"A\"\nMessage-Text \"End\\nEnd\"\n" ++
    Bytes.ofString "Attachment\nSource-Path \"a\"\nEnd\nEnd\nEnd\n"

def store : Store :=
  (storeMachine Sample.crypto).run .empty
    [Sample.submit "key" (Sample.delivery "fidonet#1:2/4") (some (Sample.delivery "fidonet#1:2/5")) 1]

def reply (call : Call) : call.reply :=
  match call with
  | .now => (0 : UInt64)
  | .draw => ([] : Rng)
  | .read => Store.empty
  | .transact _ => (.error .notFound : Except StoreError Answer)
  | .plan _ => (.error .notFound : Except StoreError (List SubmissionIdentity × BatchBuilder))
  | .rerouteDelivery .. => (.error .notFound : Except StoreError NewDelivery)
  | .removeExport .. => ()
  | .removeOtherExports .. => ()
  | .exportPayload .. => (none : Option String)

def around : Surroundings := ⟨none, reply⟩

def principal : Principal := ⟨"uid:1", [Sample.application], List.nodup_singleton _⟩

def service : IpcService where
  submission := true
  polls := 0
  debug _ := ""
  base64 := ⟨Rfc4648.encode, Rfc4648.decode⟩

def answer (request : String) : Option (List UInt8) :=
  ((IpcService.processRequest service (Bytes.ofString request) (some principal)).evaluate
    (serviceWorld Sample.crypto).act around store).1

def jobId : String := "J01010101010101010101010101010101"

def query : String := "TITH-IPC 1\nQuery-Job J01010101010101010101010101010101\nEnd\n"

def events : String := "TITH-IPC 1\nEvents \"reader\" Now\nEnd\n"

theorem answer_query
    : answer query = (store.jobs[jobId]?).bind fun job => outboundQueryResult job true false := by
  rfl

theorem answer_events : answer events = some (eventsResult (eventsFor Sample.application store)) := by
  decide +kernel

end QueriedJob

open QueriedJob in
theorem documents_cut_at_end_queriedJob
    : CutsAtEnd .request submission ∧
      (∃ job bytes, store.jobs[jobId]? = some job ∧ job.deliveries.length = 2 ∧
        outboundQueryResult job true false = some bytes ∧ CutsAtEnd .result bytes) ∧
      ∃ event, eventsFor Sample.application store = [event] ∧ CutsAtEnd .result (eventsResult [event]) := by
  have hcuts : ∀ {request : String} {bytes : List UInt8}, answer request = some bytes → CutsAtEnd .result bytes := by
    intro request bytes hanswer
    have hupholds := (documents_cut_at_end Sample.crypto).2 service (Bytes.ofString request)
      (some principal) store ⟨_, rfl⟩
    exact hupholds.evaluate (f := around) (fun _ _ => trivial) bytes hanswer
  have hsubmission : (SubmissionRequest.parse submission).isOk = true := by decide +kernel
  have hcopies : (store.jobs[jobId]?).map (fun job => job.deliveries.length) = some 2 := by decide +kernel
  have hevents : (eventsFor Sample.application store).length = 1 := by decide +kernel
  have hsome : (answer query).isSome = true := by decide +kernel
  refine ⟨(documents_cut_at_end Sample.crypto).1 _ (.inl (Except.exists_of_isOk hsubmission)), ?_, ?_⟩
  . obtain ⟨job, hjob, hlength⟩ := Option.map_eq_some_iff.mp hcopies
    obtain ⟨bytes, hbytes⟩ := Option.isSome_iff_exists.mp hsome
    have hresult := hbytes
    rw [answer_query, hjob, Option.bind_some] at hresult
    exact ⟨job, bytes, hjob, hlength, hresult, hcuts hbytes⟩
  . obtain ⟨event, hevent⟩ := List.length_eq_one_iff.mp hevents
    have hresult := answer_events
    rw [hevent] at hresult
    exact ⟨event, hevent, hcuts hresult⟩

end Tith.Ipc
