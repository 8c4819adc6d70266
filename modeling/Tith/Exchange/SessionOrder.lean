import Tith.Exchange.Session

/-!
This module contains the accounting of a whole session: which responses are recorded, in which order,
and when the session is complete.
-/

namespace Tith

/--
A response answers a request if it names it, and certifies a key only where one was requested.
-/
structure Answers (item : ValidatedItem) (request : OutstandingRequest) : Prop where
  response : (responseKind item).isSome
  hash : item.responseTo = some request.signedTlvHash
  identifier : item.requestIdentifier = request.requestIdentifier
  publicKey : item.responsePublicKey.isSome → request.kind = .publicKeyRequest

namespace ResponseTracker

/--
Some outstanding request that has no response yet is answered by the item.
-/
def Expects (tracker : ResponseTracker) (item : ValidatedItem) : Prop :=
  ∃ request ∈ tracker.outstanding, Answers item request ∧
    ∀ completed ∈ tracker.completed, completed.request.key ≠ request.key

/--
The completed responses belong to different outstanding requests, in the order of the requests.
-/
def InOrder (tracker : ResponseTracker) : Prop :=
  (tracker.completed.map (·.request)).Sublist tracker.outstanding

theorem position_getElem {tracker : ResponseTracker} {key : TlvHash × UInt64} {position : Nat}
    {request : OutstandingRequest} (hposition : tracker.position key = some position)
    (hrequest : tracker.outstanding[position]? = some request)
    : request ∈ tracker.outstanding ∧ request.key = key := by
  obtain ⟨hlt, hkey, _⟩ := List.findIdx?_eq_some_iff_getElem.mp hposition
  rw [List.getElem?_eq_getElem hlt, Option.some.injEq] at hrequest
  subst hrequest
  constructor
  . apply List.getElem_mem
  . simpa using hkey

theorem findRequest_ok {tracker : ResponseTracker} {item : ValidatedItem} {position : Nat}
    {completed : CompletedResponse} (h : tracker.findRequest item = .ok (position, completed))
    : completed.request ∈ tracker.outstanding ∧ Answers item completed.request ∧
      tracker.position completed.request.key = some position ∧
      ∀ existing ∈ tracker.completed, existing.request.key ≠ completed.request.key := by
  simp only [findRequest, Except.bind_ok_iff, Option.okOr_eq_ok] at h
  obtain ⟨response, hresponse, hash, hhash, position', hposition, request, hrequest, h⟩ := h
  split at h
  . cases h
  . next hpublicKey =>
    split at h
    . cases h
    . next hcompleted =>
      injection h with h
      injection h with heq hreq
      subst heq
      subst hreq
      obtain ⟨hmem, hkey⟩ := position_getElem hposition hrequest
      have hhash' : request.signedTlvHash = hash := congrArg Prod.fst hkey
      have hid : request.requestIdentifier = item.requestIdentifier := congrArg Prod.snd hkey
      refine ⟨hmem, ⟨?_, ?_, ?_, ?_⟩, ?_, ?_⟩
      . simp [hresponse]
      . rw [hhash, hhash']
      . exact hid.symm
      . intro hsome
        by_contra hne
        exact hpublicKey ⟨hsome, hne⟩
      . rw [hkey]
        exact hposition
      . intro existing hexisting heq
        apply hcompleted
        rw [List.any_eq_true]
        refine ⟨existing, hexisting, ?_⟩
        rw [decide_eq_true_iff, heq, hkey]

theorem observeResponse_cases (tracker : ResponseTracker) (item : ValidatedItem)
    : (∃ error, tracker.observeResponse item = (.error error, tracker)) ∨
      (tracker.Expects item ∧ ∃ position completed,
        tracker.findRequest item = .ok (position, completed) ∧
        tracker.observeResponse item = (.ok (), tracker.complete position completed)) := by
  unfold observeResponse
  split
  . next position completed h =>
    right
    obtain ⟨hmem, hanswers, _, hnew⟩ := findRequest_ok h
    exact ⟨⟨_, hmem, hanswers, hnew⟩, position, completed, h, rfl⟩
  . next error h =>
    left
    exact ⟨error, rfl⟩

theorem observeResponse_of_not_expects {tracker : ResponseTracker} {item : ValidatedItem}
    (h : ¬tracker.Expects item)
    : ∃ error, tracker.observeResponse item = (.error error, tracker) := by
  rcases observeResponse_cases tracker item with herror | ⟨hexpects, _⟩
  . exact herror
  . exact absurd hexpects h

theorem complete_inOrder {tracker : ResponseTracker} (hkeys : (tracker.outstanding.map (·.key)).Nodup)
    (horder : tracker.InOrder) {item : ValidatedItem} {position : Nat} {completed : CompletedResponse}
    (h : tracker.findRequest item = .ok (position, completed))
    : (tracker.complete position completed).InOrder := by
  obtain ⟨hmem, _, hposition, hnew⟩ := findRequest_ok h
  exact List.insertIdx_partitionPoint_sublist hkeys horder hmem hnew hposition

theorem completed_sublist_complete (tracker : ResponseTracker) (position : Nat)
    (completed : CompletedResponse)
    : tracker.completed.Sublist (tracker.complete position completed).completed := by
  have h := List.eraseIdx_sublist (tracker.completed.insertIdx (tracker.insertion position) completed)
    (tracker.insertion position)
  rw [List.eraseIdx_insertIdx_self] at h
  exact h

/--
The same requests are outstanding, and recorded responses stay. The order is kept as well, if the
requests can be told apart.
-/
structure Extends (tracker tracker' : ResponseTracker) : Prop where
  outstanding : tracker'.outstanding = tracker.outstanding
  completed : tracker.completed.Sublist tracker'.completed
  inOrder : (tracker.outstanding.map (·.key)).Nodup → tracker.InOrder → tracker'.InOrder

theorem Extends.refl (tracker : ResponseTracker) : tracker.Extends tracker where
  outstanding := rfl
  completed := .refl _
  inOrder _ h := h

theorem Extends.trans {t u v : ResponseTracker} (h : t.Extends u) (h' : u.Extends v) : t.Extends v where
  outstanding := h'.outstanding.trans h.outstanding
  completed := h.completed.trans h'.completed
  inOrder := by
    intro hkeys horder
    apply h'.inOrder
    . rw [h.outstanding]
      exact hkeys
    . exact h.inOrder hkeys horder

theorem observeResponse_extends (tracker : ResponseTracker) (item : ValidatedItem)
    : tracker.Extends (tracker.observeResponse item).2 := by
  rcases observeResponse_cases tracker item with ⟨error, h⟩ | ⟨_, position, completed, hfind, h⟩
  . rw [h]
    exact .refl tracker
  . rw [h]
    constructor
    . rfl
    . apply completed_sublist_complete
    . intro hkeys horder
      exact complete_inOrder hkeys horder hfind

theorem observeResponses_extends (tracker : ResponseTracker) (responses : List ValidatedItem)
    : tracker.Extends (tracker.observeResponses responses).2 := by
  induction responses generalizing tracker with
  | nil => exact .refl tracker
  | cons response responses ih =>
    have hfirst := observeResponse_extends tracker response
    unfold observeResponses
    split
    . next tracker' h =>
      rw [h] at hfirst
      exact hfirst.trans (ih tracker')
    . next error tracker' h =>
      rw [h] at hfirst
      exact hfirst

theorem observeResponses_append_of_not_expects {tracker : ResponseTracker} {item : ValidatedItem}
    {before : List ValidatedItem} (h : ¬(tracker.observeResponses before).2.Expects item)
    (after : List ValidatedItem)
    : ∃ error, tracker.observeResponses (before ++ item :: after) =
        (.error error, (tracker.observeResponses before).2) := by
  -- A response that is not expected when its turn comes ends the list, and adds nothing.
  induction before generalizing tracker with
  | nil =>
    change ¬tracker.Expects item at h
    obtain ⟨error, herror⟩ := observeResponse_of_not_expects h
    refine ⟨error, ?_⟩
    simp only [List.nil_append, observeResponses, herror]
  | cons response before ih =>
    rw [List.cons_append]
    unfold observeResponses at h ⊢
    split
    . next tracker' hfirst =>
      rw [hfirst] at h
      exact ih h
    . next error tracker' hfirst => exact ⟨error, rfl⟩

theorem isComplete_iff {tracker : ResponseTracker} (hkeys : (tracker.outstanding.map (·.key)).Nodup)
    (horder : tracker.InOrder)
    : tracker.isComplete ↔
      ∀ request ∈ tracker.outstanding, ∃ completed ∈ tracker.completed, completed.request = request := by
  rw [isComplete, received, expected, decide_eq_true_iff]
  constructor
  . intro hlength request hmem
    have heq := horder.eq_of_length (by simpa using hlength)
    rw [← heq] at hmem
    simpa using hmem
  . intro hall
    have hsubset : tracker.outstanding ⊆ tracker.completed.map (·.request) := by
      intro request hmem
      simpa using hall request hmem
    have hle := (hkeys.of_map.subperm hsubset).length_le
    have hge := horder.length_le
    simp only [List.length_map] at hle hge
    omega

theorem requiresReturnBundle_of_outstanding {tracker tracker' : ResponseTracker}
    (h : tracker'.outstanding = tracker.outstanding)
    : tracker'.requiresReturnBundle = tracker.requiresReturnBundle := by
  rw [requiresReturnBundle, requiresReturnBundle, h]

end ResponseTracker

namespace ClientSession

/--
Everything that a call can do to a session, and whether it succeeds.
-/
inductive Transition (session : ClientSession) : SessionEvent → Bool → ClientSession → Prop where
  | fail (event) (tracker) (h : session.tracker.Extends tracker)
      (hfailed : session.state = .failed → tracker = session.tracker)
      : Transition session event false { state := .failed, tracker }
  | initialSent (h : session.state = .ready)
      : Transition session .initialSent true { session with state := .awaitingReplyHeader }
  | nothingAsked (reply) (h : session.state = .awaitingReplyHeader)
      (hcomplete : session.tracker.isComplete)
      : Transition session (.replyHeaderReceived reply) true { session with state := .closing }
  | header (reply) (h : session.state = .awaitingReplyHeader)
      : Transition session (.replyHeaderReceived reply) true
          { session with state := .awaitingResponses }
  | responses (responses) (tracker) (h : session.state = .awaitingResponses)
      (hextends : session.tracker.Extends tracker)
      : Transition session (.responsesReceived responses) true
          { state := afterResponses tracker, tracker }
  | finalReplySent (h : session.state = .mustSendReply)
      : Transition session .finalReplySent true { session with state := .closing }
  | closed (h : session.state = .closing)
      : Transition session .closed true { session with state := .complete }

theorem fail_transition (session : ClientSession) (event : SessionEvent) (error : ExchangeError)
    : session.Transition event (session.fail error).1.isOk (session.fail error).2 := by
  apply Transition.fail
  . exact .refl _
  . intro _
    rfl

theorem initialSent_transition (session : ClientSession)
    : session.Transition .initialSent session.initialSent.1.isOk session.initialSent.2 := by
  unfold initialSent
  split
  . apply fail_transition
  . next h =>
    apply Transition.initialSent
    simpa using h

theorem replyHeaderReceived_transition (session : ClientSession) (reply : Bundle)
    : session.Transition (.replyHeaderReceived reply) (session.replyHeaderReceived reply).1.isOk
        (session.replyHeaderReceived reply).2 := by
  unfold replyHeaderReceived
  split
  . apply fail_transition
  . next h =>
    split
    . apply fail_transition
    . split
      . next hcomplete =>
        apply Transition.nothingAsked
        . simpa using h
        . exact hcomplete
      . apply Transition.header
        simpa using h

theorem responsesReceived_transition (session : ClientSession) (responses : List ValidatedItem)
    : session.Transition (.responsesReceived responses) (session.responsesReceived responses).1.isOk
        (session.responsesReceived responses).2 := by
  unfold responsesReceived
  split
  . apply fail_transition
  . next h =>
    have hextends := session.tracker.observeResponses_extends responses
    simp only [ne_eq, not_not] at h
    split
    . next error tracker hobserve =>
      rw [hobserve] at hextends
      apply Transition.fail
      . exact hextends
      . intro hfailed
        rw [h] at hfailed
        cases hfailed
    . next tracker hobserve =>
      rw [hobserve] at hextends
      exact Transition.responses responses tracker h hextends

theorem finalReplySent_transition (session : ClientSession)
    : session.Transition .finalReplySent session.finalReplySent.1.isOk session.finalReplySent.2 := by
  unfold finalReplySent
  split
  . apply fail_transition
  . next h =>
    apply Transition.finalReplySent
    simpa using h

theorem closed_transition (session : ClientSession)
    : session.Transition .closed session.closed.1.isOk session.closed.2 := by
  unfold closed
  split
  . next h => exact Transition.closed h
  . split
    . apply fail_transition
    . next hcomplete =>
      rw [ResponseTracker.requireComplete, if_neg hcomplete]
      apply fail_transition session .closed (.incompleteResponse _ _)

theorem step_transition (session : ClientSession) (event : SessionEvent)
    : session.Transition event (session.step event).1.isOk (session.step event).2 := by
  cases event with
  | initialSent => apply initialSent_transition
  | replyHeaderReceived reply => apply replyHeaderReceived_transition
  | responsesReceived responses => apply responsesReceived_transition
  | finalReplySent => apply finalReplySent_transition
  | closed => apply closed_transition

theorem step_extends (session : ClientSession) (event : SessionEvent)
    : session.tracker.Extends (session.step event).2.tracker := by
  have htransition := step_transition session event
  generalize (session.step event).1.isOk = ok at htransition
  generalize (session.step event).2 = session' at htransition
  cases htransition with
  | fail _ tracker hextends => exact hextends
  | initialSent => exact .refl _
  | nothingAsked => exact .refl _
  | header => exact .refl _
  | responses responses tracker _ hextends => exact hextends
  | finalReplySent => exact .refl _
  | closed => exact .refl _

/--
What holds of every session that has started with the given tracker.
-/
structure Accounts (start : ResponseTracker) (session : ClientSession) : Prop where
  tracked : start.Extends session.tracker
  unanswered : session.state = .ready ∨ session.state = .awaitingReplyHeader →
    session.tracker.completed = []
  answered : session.state = .mustSendReply ∨ session.state = .closing ∨ session.state = .complete →
    session.tracker.isComplete

theorem new_accounts {tracker : ResponseTracker} (hfresh : tracker.completed = [])
    : (new tracker).Accounts tracker where
  tracked := .refl _
  unanswered _ := hfresh
  answered := by simp [new]

theorem isComplete_of_afterResponses {tracker : ResponseTracker}
    (h : afterResponses tracker ≠ .awaitingResponses)
    : tracker.isComplete := by
  unfold afterResponses at h
  split at h
  . assumption
  . exact absurd rfl h

theorem step_accounts {start : ResponseTracker} {session : ClientSession}
    (h : session.Accounts start) (event : SessionEvent)
    : (session.step event).2.Accounts start := by
  have htransition := step_transition session event
  generalize (session.step event).1.isOk = ok at htransition
  generalize (session.step event).2 = session' at htransition
  cases htransition with
  | fail _ tracker hextends =>
    constructor
    . exact h.tracked.trans hextends
    . simp
    . simp
  | initialSent hstate =>
    constructor
    . exact h.tracked
    . intro _
      exact h.unanswered (.inl hstate)
    . simp
  | nothingAsked reply hstate hcomplete =>
    constructor
    . exact h.tracked
    . simp
    . intro _
      exact hcomplete
  | header reply hstate =>
    constructor
    . exact h.tracked
    . simp
    . simp
  | responses responses tracker hstate hextends =>
    constructor
    . exact h.tracked.trans hextends
    . intro hready
      unfold afterResponses at hready
      split at hready
      . split at hready <;> simp at hready
      . simp at hready
    . intro hdone
      apply isComplete_of_afterResponses
      intro hawaiting
      simp [hawaiting] at hdone
  | finalReplySent hstate =>
    constructor
    . exact h.tracked
    . simp
    . intro _
      exact h.answered (.inl hstate)
  | closed hstate =>
    constructor
    . exact h.tracked
    . simp
    . intro _
      exact h.answered (.inr (.inl hstate))

theorem run_accounts {tracker : ResponseTracker} (hfresh : tracker.completed = [])
    (events : List SessionEvent)
    : ((sessionMachine tracker).run (new tracker) events).Accounts tracker := by
  apply Machine.invariant (Accounts tracker)
  . intro session event h
    exact step_accounts h event
  . exact new_accounts hfresh

theorem step_of_failed {session : ClientSession} (h : session.state = .failed) (event : SessionEvent)
    : (session.step event).2 = session := by
  have htransition := step_transition session event
  generalize (session.step event).1.isOk = ok at htransition
  generalize (session.step event).2 = session' at htransition
  cases htransition with
  | fail _ tracker _ hfailed => rw [hfailed h, ← h]
  | initialSent hstate => simp [h] at hstate
  | nothingAsked reply hstate => simp [h] at hstate
  | header reply hstate => simp [h] at hstate
  | responses responses tracker hstate => simp [h] at hstate
  | finalReplySent hstate => simp [h] at hstate
  | closed hstate => simp [h] at hstate

theorem finalReplySent_of_closing {start : ResponseTracker} (hreturn : start.requiresReturnBundle)
    {session : ClientSession} (h : session.Accounts start) {event : SessionEvent}
    (hopen : session.state ≠ .closing ∧ session.state ≠ .complete)
    (hclosing : (session.step event).2.state = .closing ∨ (session.step event).2.state = .complete)
    : event = .finalReplySent ∧ session.state = .mustSendReply := by
  have hreturn' := hreturn
  rw [← ResponseTracker.requiresReturnBundle_of_outstanding h.tracked.outstanding] at hreturn'
  have htransition := step_transition session event
  generalize (session.step event).1.isOk = ok at htransition
  generalize (session.step event).2 = session' at htransition hclosing
  cases htransition with
  | fail _ tracker _ _ => simp at hclosing
  | initialSent hstate => simp at hclosing
  | nothingAsked reply hstate hcomplete =>
    -- Nothing has been answered yet, so that nothing has been asked.
    have hnone := h.unanswered (.inr hstate)
    rw [ResponseTracker.isComplete, ResponseTracker.received, ResponseTracker.expected, hnone] at hcomplete
    have hlength : 0 = session.tracker.outstanding.length := by simpa using hcomplete
    have hempty := List.length_eq_zero_iff.mp hlength.symm
    rw [ResponseTracker.requiresReturnBundle, hempty] at hreturn'
    simp at hreturn'
  | header reply hstate => simp at hclosing
  | responses responses tracker hstate hextends =>
    have heq := ResponseTracker.requiresReturnBundle_of_outstanding hextends.outstanding
    rw [hreturn'] at heq
    unfold afterResponses at hclosing
    simp only [heq] at hclosing
    split at hclosing <;> simp at hclosing
  | finalReplySent hstate => exact ⟨rfl, hstate⟩
  | closed hstate => exact absurd hstate hopen.1

theorem exists_finalReplySent {tracker : ResponseTracker} (hfresh : tracker.completed = [])
    (hreturn : tracker.requiresReturnBundle) {events : List SessionEvent}
    (hcomplete : ((sessionMachine tracker).run (new tracker) events).state = .complete)
    : ∃ before after, events = before ++ .finalReplySent :: after ∧
        ((sessionMachine tracker).run (new tracker) before).state = .mustSendReply := by
  obtain ⟨before, event, after, rfl, hopen, hclosing⟩ := (sessionMachine tracker).exists_step
    (P := fun session => session.state = .closing ∨ session.state = .complete) (s := new tracker)
    (by simp [new]) (.inr hcomplete)
  rw [not_or] at hopen
  obtain ⟨rfl, hstate⟩ := finalReplySent_of_closing hreturn (run_accounts hfresh before) hopen hclosing
  exact ⟨before, after, rfl, hstate⟩

end ClientSession

/--
A session with distinguishable requests, after any calls in any order.
-/
theorem session_accounting (tracker : ResponseTracker) (hfresh : tracker.completed = [])
    (hkeys : (tracker.outstanding.map (·.key)).Nodup) (events : List SessionEvent)
    : let session := (sessionMachine tracker).run (.new tracker) events
      let answered := ∀ request ∈ tracker.outstanding,
        ∃ completed ∈ session.responses, completed.request = request
      session.requests = tracker.outstanding ∧
      (session.responses.map (·.request)).Sublist tracker.outstanding ∧
      (session.responses.map (·.request)).Nodup ∧
      (∀ event, session.responses.Sublist (session.step event).2.responses) ∧
      (session.tracker.isComplete ↔ answered) ∧
      (∀ before item after,
        ¬(session.tracker.observeResponses before).2.Expects item →
        ∃ error, session.tracker.observeResponses (before ++ item :: after) =
          (.error error, (session.tracker.observeResponses before).2)) ∧
      (session.state = .failed → ∀ event, (session.step event).2 = session) ∧
      (session.state = .complete →
        answered ∧
        (tracker.requiresReturnBundle →
          ∃ before after, events = before ++ .finalReplySent :: after ∧
            ((sessionMachine tracker).run (.new tracker) before).state = .mustSendReply)) := by
  intro session answered
  have haccounts : session.Accounts tracker := ClientSession.run_accounts hfresh events
  have hout : session.tracker.outstanding = tracker.outstanding := haccounts.tracked.outstanding
  have horder : session.tracker.InOrder := by
    apply haccounts.tracked.inOrder hkeys
    simp [ResponseTracker.InOrder, hfresh]
  have hsublist : (session.responses.map (·.request)).Sublist tracker.outstanding := by
    rw [← hout]
    exact horder
  have hcomplete : session.tracker.isComplete ↔ answered := by
    have h := ResponseTracker.isComplete_iff (by rw [hout]; exact hkeys) horder
    rw [hout] at h
    exact h
  refine ⟨hout, hsublist, ?_, ?_, hcomplete, ?_, ?_, ?_⟩
  . exact hkeys.of_map.sublist hsublist
  . intro event
    exact (ClientSession.step_extends session event).completed
  . intro before item after hitem
    exact ResponseTracker.observeResponses_append_of_not_expects hitem after
  . intro hfailed event
    exact ClientSession.step_of_failed hfailed event
  . intro hstate
    constructor
    . apply hcomplete.mp
      exact haccounts.answered (.inr (.inr hstate))
    . intro hreturn
      exact ClientSession.exists_finalReplySent hfresh hreturn hstate

namespace OutOfOrder

theorem identity_valid : validateAddress "fidonet" 1 2 4 0 = .ok () := by decide

def identity : Identity := ⟨⟨"fidonet", 1, 2, 4, 0, identity_valid⟩, Vector.replicate 32 0⟩

def request (hash : UInt8) (identifier : UInt64) (kind : RequestKind) : OutstandingRequest :=
  ⟨Vector.replicate 32 hash, identifier, kind⟩

/--
Two payloads. Each counts its identifiers from one.
-/
def tracker : ResponseTracker :=
  ⟨identity, identity, [request 7 1 .pollMessages, request 7 2 .fileRequest, request 8 1 .message], []⟩

def reply : Bundle where
  encoded := []
  origin := identity
  advertisedOriginKey := none
  destination := identity
  requestedDestinationKey := none
  timestamp := 0
  header := { encoded := [], identity, data := [] }
  payloads := []
  unknownTopLevel := []

def answer (kind : ItemKind) (typeCode : UInt64) (hash : UInt8) (identifier : UInt64) : ValidatedItem :=
  { ValidatedItem.ofKind kind identifier (carrierValue typeCode []) with
    responseTo := some (Vector.replicate 32 hash) }

def acceptance (hash : UInt8) (identifier : UInt64) : ValidatedItem :=
  answer .accepted Types.accepted hash identifier

def rejection (hash : UInt8) (identifier : UInt64) : ValidatedItem :=
  answer .rejected Types.rejected hash identifier

def events : List SessionEvent :=
  [ .initialSent,
    .replyHeaderReceived reply,
    .responsesReceived [acceptance 8 1],
    .responsesReceived [rejection 7 2, acceptance 7 1],
    .finalReplySent,
    .closed ]

end OutOfOrder

/--
The answers come the other way round, a rejection among them, and are kept in the order of the requests.
-/
theorem session_accounting_out_of_order
    : let session := (sessionMachine OutOfOrder.tracker).run (.new OutOfOrder.tracker) OutOfOrder.events
      session.state = .complete ∧ session.responses.map (·.request) = OutOfOrder.tracker.outstanding ∧
        session.responses.map (·.response) = [.accepted, .rejected, .accepted] ∧
        ∀ event, session.responses.Sublist (session.step event).2.responses := by
  intro session
  obtain ⟨_, hsublist, _, hkept, _⟩ :=
    session_accounting OutOfOrder.tracker (by decide) (by decide) OutOfOrder.events
  have hlength : (session.responses.map (·.request)).length = OutOfOrder.tracker.outstanding.length := by
    decide
  exact ⟨by decide, hsublist.eq_of_length hlength, by decide, hkept⟩

end Tith
