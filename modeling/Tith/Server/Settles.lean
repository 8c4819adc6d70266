import Tith.Deliver.Outcomes
import Tith.Server.Account

/-!
This module contains the proof that every copy which a connection claims is finished exactly once, as
long as its calls of the store are sound.
-/

namespace Tith

open Std.Do

set_option mvcgen.warning false

section Specs

variable (c : Crypto) (sign : SignTlv) (mailer : Mailer) {n : Nat}

theorem returnClaims_spec (origin : Identity) (claims : List DeliveryClaim) (answers : PayloadAnswers)
    : ⦃fun connection => ⌜pendingAccount c mailer origin answers.returnedIdentifier claims
        connection.store connection.holds connection.calls ∧ connection.reads.length ≤ n⌝⦄
      returnClaims c mailer origin claims answers
      ⦃post⟨
        fun _ connection => ⌜accountOf c mailer connection.store connection.holds connection.calls ∧
          connection.reads.length ≤ n⌝,
        fun error connection => ⌜accountOf c mailer connection.store connection.holds connection.calls ∧
          error.isSome⌝⟩⦄ := by
  induction claims generalizing answers with
  | nil =>
    mvcgen [returnClaims]
    next connection h =>
      refine ⟨?_, h.2⟩
      intro hsound
      have haccounted := (h.1 hsound).1
      rw [List.append_nil] at haccounted
      exact haccounted
  | cons claim claims ih =>
    mvcgen [returnClaims, ServerM.ofExcept, ServerM.fail, ih]
    . next h identifier hnext _ value hvalue relayed hrelayed _ _ _ =>
      refine ⟨h.1.register (Option.okOr_eq_ok.mp hnext) ?_, h.2⟩
      apply (map_claim_setLastRelayed _ _).trans
      simp +zetaDelta [PollHold.of]
    . next h identifier hnext _ value hvalue relayed hrelayed _ _ hfailed =>
      refine ⟨h.1.failed (Option.okOr_eq_ok.mp hnext) ?_ ?_, rfl⟩
      . apply (map_claim_setLastRelayed _ _).trans
        simp +zetaDelta [PollHold.of]
      . exact not_returnable (Except.mapError_eq_ok.mp hvalue)
          (.inr (Except.isOk_of_mapError_eq_error hfailed))
    . next h identifier hnext _ value hvalue _ hfailed =>
      refine ⟨h.1.failed (Option.okOr_eq_ok.mp hnext) ?_ ?_, rfl⟩
      . simp +zetaDelta [PollHold.of]
      . exact not_returnable (Except.mapError_eq_ok.mp hvalue)
          (.inl (Except.isOk_of_mapError_eq_error hfailed))
    . next h identifier hnext _ _ hfailed =>
      refine ⟨h.1.failed (Option.okOr_eq_ok.mp hnext) ?_ ?_, rfl⟩
      . simp +zetaDelta [PollHold.of]
      . exact not_returnable_of_singleValue (Except.isOk_of_mapError_eq_error hfailed)
    . next h _ hoverflow =>
      refine ⟨h.1.overflow ?_, rfl⟩
      cases hnext : checkedAdd answers.returnedIdentifier 1 with
      | none => rfl
      | some next =>
        rw [hnext] at hoverflow
        cases hoverflow

theorem pollSnapshot_spec (kinds : List JobKind) (origin : Identity) (identifier : UInt64)
    : ⦃fun connection => ⌜accountOf c mailer connection.store connection.holds connection.calls ∧
        connection.reads.length ≤ n⌝⦄
      pollSnapshot mailer kinds origin identifier
      ⦃post⟨
        fun claims connection => ⌜pendingAccount c mailer origin identifier claims connection.store
          connection.holds connection.calls ∧ connection.reads.length ≤ n⌝,
        fun error connection => ⌜accountOf c mailer connection.store connection.holds connection.calls ∧
          error.isSome⌝⟩⦄ := by
  mvcgen [pollSnapshot, ServerM.fail]
  . next h _ _ _ => exact ⟨h.1.poll_failed, rfl⟩
  . next h _ _ hpoll _ => exact ⟨h.1.poll hpoll, h.2⟩

theorem finishClaim_spec (frame : List PollHold → List (Except ServerError OwnedTlv) → Prop)
    (claim : DeliveryClaim) (outcome : DeliveryOutcome) (claims : List DeliveryClaim)
    : ⦃fun connection => ⌜(SoundCalls c mailer connection.calls →
          Accounted connection.store connection.calls (claim :: claims)) ∧
        frame connection.holds connection.reads⌝⦄
      finishClaim mailer claim outcome
      ⦃post⟨
        fun _ connection => ⌜(SoundCalls c mailer connection.calls →
            Accounted connection.store connection.calls claims) ∧
          frame connection.holds connection.reads⌝,
        fun error connection => ⌜¬SoundCalls c mailer connection.calls ∧ error.isSome⌝⟩⦄ := by
  -- If it fails then the call was not sound. What is read and held does not matter.
  mvcgen [finishClaim, ServerM.fail]
  . next connection h call _ error houtage =>
    refine ⟨?_, rfl⟩
    intro hsound
    obtain ⟨hnone, _⟩ := finish_sound h.1 hsound (mailer.now call) outcome
    rw [houtage] at hnone
    cases hnone
  . next connection h call _ houtage error herror =>
    refine ⟨?_, rfl⟩
    intro hsound
    obtain ⟨_, state, s', hok, _⟩ := finish_sound h.1 hsound (mailer.now call) outcome
    rw [herror] at hok
    cases hok
  . next connection h call _ houtage state store hfinish _ =>
    refine ⟨?_, h.2⟩
    intro hsound
    obtain ⟨_, state', s', hok, haccounted⟩ := finish_sound h.1 hsound (mailer.now call) outcome
    rw [hfinish] at hok
    cases hok
    exact haccounted

theorem map_claim_perm {holds : List PollHold} {position : Nat} {hold : PollHold}
    (h : holds[position]? = some hold)
    : (holds.map (·.claim)).Perm (hold.claim :: (holds.eraseIdx position).map (·.claim)) := by
  obtain ⟨hlt, rfl⟩ := List.getElem?_eq_some_iff.mp h
  have hperm := (List.getElem_cons_eraseIdx_perm hlt).map (·.claim)
  exact hperm.symm

theorem finishHold_spec (connection : Connection) (position : Nat) (hold : PollHold)
    (outcome : DeliveryOutcome) (hposition : connection.holds[position]? = some hold)
    : ⦃fun current => ⌜current = connection ∧
        accountOf c mailer current.store current.holds current.calls ∧ current.reads.length ≤ n⌝⦄
      finishClaim mailer hold.claim outcome
      ⦃post⟨
        fun _ current => ⌜accountOf c mailer current.store (current.holds.eraseIdx position)
          current.calls ∧ current.reads.length ≤ n⌝,
        fun error current => ⌜accountOf c mailer current.store current.holds current.calls ∧
          error.isSome⌝⟩⦄ := by
  have hfinish := finishClaim_spec c mailer
    (fun holds reads => holds = connection.holds ∧ reads.length ≤ n) hold.claim outcome
    ((connection.holds.eraseIdx position).map (·.claim))
  mvcgen [hfinish]
  . next current h =>
    obtain ⟨rfl, haccount, hreads⟩ := h
    refine ⟨?_, rfl, hreads⟩
    intro hsound
    exact (haccount hsound).perm_claims (map_claim_perm hposition)
  . intro haccounted hholds hreads
    refine ⟨?_, hreads⟩
    rw [hholds]
    exact haccounted
  . intro hunsound herror
    exact ⟨fun hsound => absurd hsound hunsound, herror⟩

theorem keeps_resolveHold (item : ValidatedItem)
    : KeepsWithin (accountOf c mailer) n (resolveHold mailer item) := by
  have hfinish := @finishHold_spec c mailer n
  unfold KeepsWithin
  mvcgen [resolveHold, ServerM.ofExcept, ServerM.fail, currentTime, hfinish]
  all_goals simp_all

theorem keeps_resolveHolds (responses : List ValidatedItem)
    : KeepsWithin (accountOf c mailer) n (resolveHolds mailer responses) := by
  induction responses with
  | nil => apply keepsWithin_pure
  | cons response responses ih =>
    apply keepsWithin_bind (keeps_resolveHold c mailer response)
    intro _
    exact ih

theorem keeps_dispatch (item : ValidatedItem) (responseTo : TlvHash) (origin : Identity)
    : KeepsWithin (accountOf c mailer) n (dispatch c mailer item responseTo origin) := by
  unfold KeepsWithin
  mvcgen [dispatch, ServerM.ofExcept, ServerM.fail]
  . next h _ _ _ => exact ⟨fun hsound => (h.1 hsound).acceptance c _, h.2⟩
  . next h _ _ _ => exact ⟨fun hsound => (h.1 hsound).acceptance c _, rfl⟩

theorem keeps_answerRequest (origin : Identity) (responseTo : TlvHash) (request : ReceivedRequest)
    (answers : PayloadAnswers)
    : KeepsWithin (accountOf c mailer) n
        (answerRequest c mailer origin responseTo request answers) := by
  unfold answerRequest
  split
  . apply keepsWithin_bind (keeps_ofExcept _)
    intro response
    apply keepsWithin_pure
  . dsimp only
    split
    . apply Triple.bind _ _ (pollSnapshot_spec c mailer _ _ _)
      intro claims
      apply Triple.bind _ _ (returnClaims_spec c mailer _ _ _)
      intro answers
      apply keepsWithin_pure
    . apply keepsWithin_bind (keeps_dispatch c mailer _ _ _)
      intro response
      apply keepsWithin_pure

theorem keeps_answerRequests (origin : Identity) (responseTo : TlvHash)
    (requests : List ReceivedRequest) (answers : PayloadAnswers)
    : KeepsWithin (accountOf c mailer) n
        (answerRequests c mailer origin responseTo requests answers) := by
  induction requests generalizing answers with
  | nil => apply keepsWithin_pure
  | cons request requests ih =>
    apply keepsWithin_bind (keeps_answerRequest c mailer origin responseTo request answers)
    intro answers
    apply ih

theorem keeps_payloadResponses (value : OwnedTlv) (request : IncomingBundle) (allowResponses : Bool)
    : KeepsWithin (accountOf c mailer) n
        (payloadResponses c mailer value request allowResponses) := by
  unfold payloadResponses
  apply keepsWithin_bind (keeps_ofExcept _)
  intro payload
  split
  . apply keeps_fail_bind
  . apply keepsWithin_bind (keeps_resolveHolds c mailer payload.responses)
    intro _
    apply keepsWithin_bind (keeps_answerRequests c mailer _ _ _ _)
    intro answers
    apply keepsWithin_pure

theorem map_claim_setNewHashes (newHolds : Nat) (signedTlvHash : TlvHash) (holds : List PollHold)
    : (setNewHashes newHolds signedTlvHash holds).map (·.claim) = holds.map (·.claim) := by
  rw [setNewHashes, List.map_append, List.map_map]
  change (holds.take _).map (·.claim) ++ (holds.drop _).map (·.claim) = _
  rw [← List.map_append, List.take_append_drop]

theorem keeps_setNewHashes (newHolds : Nat) (signedTlvHash : TlvHash)
    : KeepsWithin (accountOf c mailer) n (modify fun connection =>
        { connection with holds := setNewHashes newHolds signedTlvHash connection.holds }) := by
  unfold KeepsWithin
  mvcgen
  next h _ =>
    refine ⟨?_, h.2⟩
    unfold accountOf
    rw [map_claim_setNewHashes]
    exact h.1

theorem keeps_sendResponses (reply : ServerReply) (responses : PayloadResponses)
    : KeepsWithin (accountOf c mailer) n (sendResponses c sign mailer reply responses) := by
  unfold sendResponses
  apply keepsWithin_bind (keeps_ofExcept _)
  intro encoded
  apply keepsWithin_bind (keeps_write mailer encoded)
  intro _
  apply keepsWithin_bind (keeps_ofExcept _)
  intro signedTlvHash
  apply keeps_setNewHashes

theorem keeps_sendReply (reply : ServerReply) (responses : PayloadResponses) (replyStarted : Bool)
    : KeepsWithin (accountOf c mailer) n
        (sendReply c sign mailer reply responses replyStarted) := by
  unfold sendReply
  split
  . apply keepsWithin_pure
  . split
    . apply keepsWithin_bind (keeps_write mailer _)
      intro _
      apply keepsWithin_bind (keeps_sendResponses c sign mailer reply responses)
      intro _
      apply keepsWithin_pure
    . apply keepsWithin_bind (keeps_sendResponses c sign mailer reply responses)
      intro _
      apply keepsWithin_pure

theorem keeps_respondToPayloads {turns : Nat} (hturns : n < turns) (peer : Identity)
    (incoming : IncomingBundle) (reply : ServerReply) (replyStarted waitForClientReply : Bool)
    : KeepsWithin (accountOf c mailer) n
        (respondToPayloads c sign mailer turns peer incoming reply replyStarted waitForClientReply) := by
  induction turns generalizing n incoming reply replyStarted waitForClientReply with
  | zero => omega
  | succ turns ih =>
    rw [respondToPayloads]
    apply keeps_readNext_bind
    . apply keeps_get_bind
      intro connection
      split
      . apply keepsWithin_pure
      . apply keeps_fail
    . intro value m hm
      dsimp only
      split
      . apply keepsWithin_bind (keeps_payloadResponses c mailer value incoming true)
        intro responses
        apply keepsWithin_bind (keeps_sendReply c sign mailer reply responses replyStarted)
        intro replyStarted
        split
        . apply keeps_fail_bind
        . apply keeps_get_bind
          intro connection
          split
          . apply keepsWithin_pure
          . apply ih
            omega
      . split
        . apply keepsWithin_bind (keeps_ofExcept _)
          intro _
          apply keepsWithin_bind (keeps_readHeader c mailer (by omega) _)
          intro incoming
          apply keepsWithin_bind (keeps_ofExcept _)
          intro incoming
          apply keepsWithin_bind (keeps_replyTo c sign mailer peer incoming)
          intro reply
          apply ih
          omega
        . split
          . apply keeps_fail
          . apply ih
            omega

theorem keeps_respondToClientReplies {turns : Nat} (hturns : n < turns) (first : OwnedTlv)
    (initial : IncomingBundle)
    : KeepsWithin (accountOf c mailer) n
        (respondToClientReplies c sign mailer turns first initial) := by
  unfold respondToClientReplies
  apply keepsWithin_bind (keeps_readHeader c mailer hturns _)
  intro incoming
  apply keepsWithin_bind (keeps_ofExcept _)
  intro incoming
  apply keepsWithin_bind (keeps_replyTo c sign mailer _ incoming)
  intro reply
  apply keeps_respondToPayloads
  exact hturns

theorem keeps_respond {turns : Nat} (request : IncomingBundle) (reply : ServerReply)
    (first : Option OwnedTlv) (hturns : n + (if first.isSome then 1 else 0) < turns)
    (waitForClientReply : Bool)
    : KeepsWithin (accountOf c mailer) n
        (respond c sign mailer turns request reply first waitForClientReply) := by
  induction turns generalizing n first waitForClientReply with
  | zero => omega
  | succ turns ih =>
    rw [respond]
    apply keeps_nextValue_bind
    . apply keepsWithin_pure
    . intro value m hm hlt
      have hmore : ∀ wait, KeepsWithin (accountOf c mailer) m
          (respond c sign mailer turns request reply none wait) := by
        intro wait
        apply ih
        change m + 0 < turns
        omega
      dsimp only
      split
      . apply keepsWithin_bind (keeps_payloadResponses c mailer value request false)
        intro responses
        split
        . apply keepsWithin_bind (keeps_sendResponses c sign mailer reply responses)
          intro _
          split
          . apply keeps_fail_bind
          . apply hmore
        . split
          . apply keeps_fail_bind
          . apply hmore
      . split
        . apply keepsWithin_bind (keeps_ofExcept _)
          intro _
          apply keeps_respondToClientReplies
          omega
        . split
          . apply keeps_fail
          . apply hmore

theorem releaseHolds_spec (holds : List PollHold)
    : ⦃fun connection => ⌜SoundCalls c mailer connection.calls →
        Accounted connection.store connection.calls (holds.map (·.claim))⌝⦄
      releaseHolds mailer holds
      ⦃post⟨
        fun _ connection => ⌜SoundCalls c mailer connection.calls →
          Accounted connection.store connection.calls []⌝,
        fun error connection => ⌜¬SoundCalls c mailer connection.calls ∧ error.isSome⌝⟩⦄ := by
  induction holds with
  | nil => mvcgen [releaseHolds]
  | cons hold holds ih =>
    have hfinish := fun outcome => finishClaim_spec c mailer (fun _ _ => True) hold.claim outcome
      (holds.map (·.claim))
    mvcgen [releaseHolds, currentTime, hfinish, ih]
    all_goals simp_all

def Closed (connection : Connection) : Prop :=
  SoundCalls c mailer connection.calls → Accounted connection.store connection.calls []

/--
Before the first payload nothing has been claimed.
-/
def startAccount (s : Store) : Account := fun s' holds calls => s' = s ∧ holds = [] ∧ calls = []

variable {s : Store} (hinv : LedgerInv False s.ledger)

include hinv

theorem closed_of_start {connection : Connection}
    (h : startAccount s connection.store connection.holds connection.calls)
    : Closed c mailer connection := by
  obtain ⟨hstore, _, hcalls⟩ := h
  intro _
  rw [hstore, hcalls]
  exact ⟨hinv, by simp, by simp, by simp, by simp⟩

omit hinv in
/--
A part that comes last, and leaves no claim open.
-/
def Closes {α : Type} (s : Store) (n : Nat) (part : ServerM α) : Prop :=
  ⦃fun connection => ⌜startAccount s connection.store connection.holds connection.calls ∧
    connection.reads.length ≤ n⌝⦄
  part
  ⦃post⟨
    fun _ connection => ⌜Closed c mailer connection⌝,
    fun error connection => ⌜Closed c mailer connection ∧ error.isSome⌝⟩⦄

theorem closes_of_keeps {α : Type} {part : ServerM α} (h : KeepsWithin (startAccount s) n part)
    : Closes c mailer s n part := by
  unfold Closes
  unfold KeepsWithin at h
  mvcgen [h]
  . intro haccount _
    exact closed_of_start c mailer hinv haccount
  . intro haccount herror
    exact ⟨closed_of_start c mailer hinv haccount, herror⟩

theorem closes_bind {α β : Type} {part : ServerM α} {rest : α → ServerM β}
    (hpart : KeepsWithin (startAccount s) n part) (hrest : ∀ value, Closes c mailer s n (rest value))
    : Closes c mailer s n (part >>= rest) := by
  unfold Closes at hrest ⊢
  unfold KeepsWithin at hpart
  mvcgen [hpart, hrest]
  intro haccount herror
  exact ⟨closed_of_start c mailer hinv haccount, herror⟩

theorem closes_readNext_bind {β : Type} {rest : Option OwnedTlv → ServerM β}
    (hnone : Closes c mailer s n (rest none))
    (hsome : ∀ value m, m < n → Closes c mailer s m (rest (some value)))
    : Closes c mailer s n (readNext >>= rest) := by
  have hrest : ∀ value,
      ⦃fun connection => ⌜startAccount s connection.store connection.holds connection.calls ∧
        connection.reads.length + (if value.isSome then 1 else 0) ≤ n⌝⦄
      rest value
      ⦃post⟨
        fun _ connection => ⌜Closed c mailer connection⌝,
        fun error connection => ⌜Closed c mailer connection ∧ error.isSome⌝⟩⦄ := by
    intro value
    cases value with
    | none => exact hnone
    | some value =>
      rw [Triple.run_iff]
      intro connection h
      have hclosed := hsome value connection.reads.length h.2
      rw [Closes, Triple.run_iff] at hclosed
      exact hclosed connection ⟨h.1, Nat.le_refl _⟩
  have hread := @readNext_spec (startAccount s) n
  unfold Closes
  mvcgen [hread, hrest]
  intro haccount herror
  exact ⟨closed_of_start c mailer hinv haccount, herror⟩

theorem closes_respondAndRelease {turns : Nat} (request : IncomingBundle) (reply : ServerReply)
    (first : Option OwnedTlv) (hturns : n + (if first.isSome then 1 else 0) < turns)
    : Closes c mailer s n (respondAndRelease c sign mailer turns request reply first) := by
  have hrespond := Triple.lift_run (keeps_respond c sign mailer request reply first hturns false)
  have hrelease := releaseHolds_spec c mailer
  unfold Closes
  mvcgen [respondAndRelease, ServerM.attempt, hrespond, hrelease, shutdown, ServerM.fail]
  . next h =>
    refine ⟨?_, h.2⟩
    rw [accountOf, h.1.2.1]
    exact closed_of_start c mailer hinv h.1
  . next result _ h =>
    cases result with
    | ok => exact h.1
    | error => exact h.1
  . next result _ hresult _ error herror connection h =>
    rw [herror] at hresult
    exact ⟨h, hresult.2⟩
  . intro hunsound herror
    exact ⟨fun hsound => absurd hsound hunsound, herror⟩

theorem closes_answerBundle {turns : Nat} (request : IncomingBundle) (first : Option OwnedTlv)
    (hturns : n + (if first.isSome then 1 else 0) < turns)
    : Closes c mailer s n (answerBundle c sign mailer turns request first) := by
  unfold answerBundle
  split
  . exact closes_of_keeps c mailer hinv (keeps_answerProbe c sign mailer request _)
  . apply closes_bind c mailer hinv (keeps_currentTime mailer)
    intro now
    apply closes_bind c mailer hinv (keeps_ofExcept _)
    intro reply
    apply closes_bind c mailer hinv (keeps_write mailer _)
    intro _
    exact closes_respondAndRelease c sign mailer hinv request reply first hturns

theorem closes_transactionWithin {turns : Nat} (hturns : n < turns)
    : Closes c mailer s n (transactionWithin c sign mailer turns) := by
  unfold transactionWithin
  apply closes_bind c mailer hinv (keeps_readHeader c mailer hturns none)
  intro request
  apply closes_bind c mailer hinv (keeps_ofExcept _)
  intro request
  apply closes_readNext_bind c mailer hinv
  . exact closes_answerBundle c sign mailer hinv request none hturns
  . intro value m hm
    apply closes_answerBundle c sign mailer hinv request (some value)
    change m + 1 < turns
    omega

end Specs

section Serve

variable (c : Crypto) (sign : SignTlv) (mailer : Mailer) (s : Store) (hreachable : Reachable c s)
  (reads : List (Except ServerError OwnedTlv))

include hreachable

theorem serve_closed
    : Triple.Holds (fun _ connection => Closed c mailer connection)
        (fun error connection => Closed c mailer connection ∧ error.isSome)
        (serve c sign mailer reads s).1 (serve c sign mailer reads s).2 := by
  obtain ⟨ops, rfl⟩ := hreachable
  have hcloses := closes_transactionWithin c sign mailer (run_ledgerInv c ops)
    (Nat.lt_succ_self reads.length)
  rw [Closes, Triple.run_iff] at hcloses
  rw [serve, transaction, Triple.run_get_bind]
  apply hcloses
  exact ⟨⟨rfl, rfl, rfl⟩, Nat.le_refl _⟩

theorem serve_ends : (serve c sign mailer reads s).1 ≠ .error none := by
  have hclosed := serve_closed c sign mailer s hreachable reads
  intro herror
  rw [herror] at hclosed
  cases hclosed.2

/--
Every copy that a connection has claimed is finished exactly once with its own token, and none of them
is left active.
-/
theorem serve_settles (hsound : ∀ call ∈ (serve c sign mailer reads s).2.calls, call.Sound c mailer)
    : (serve c sign mailer reads s).2.finished.Perm (serve c sign mailer reads s).2.claimed ∧
      ∀ claim ∈ (serve c sign mailer reads s).2.claimed,
        Settled (serve c sign mailer reads s).2.store claim.key := by
  have hclosed : Closed c mailer (serve c sign mailer reads s).2 := by
    have hclosed := serve_closed c sign mailer s hreachable reads
    cases hresult : (serve c sign mailer reads s).1 with
    | ok =>
      rw [hresult] at hclosed
      exact hclosed
    | error =>
      rw [hresult] at hclosed
      exact hclosed.1
  have haccounted := hclosed hsound
  refine ⟨?_, ?_⟩
  . have hperm := haccounted.perm
    rw [List.append_nil] at hperm
    exact hperm.symm
  . intro claim hclaim
    rcases haccounted.settled claim hclaim with hopen | hsettled
    . cases hopen
    . exact hsettled

end Serve

/--
A check for calls in a store whose jobs have one copy each.
-/
def StoreCall.check (c : Crypto) (mailer : Mailer) (call : StoreCall) : Bool :=
  match call with
  | .poll s origin kinds identifier _ =>
    let snapshot := snapshotOf origin.address.display origin.embeddedKey kinds s
    s.jobs.toList.all (fun entry => entry.2.deliveries.length ≤ 1) &&
    identifier.toNat + snapshot.length < 2 ^ 64 &&
    snapshot.dropLast.zipIdx.all (fun entry => s.items[entry.1.job.jobId]?.all fun item =>
      returnable c mailer origin item (UInt64.ofNat (identifier.toNat + entry.2 + 1)))
  | .finish s claim outage => outage = none && (lastSequence s.events claim.jobId).toNat + 1 < 2 ^ 64

theorem sound_of_check {c : Crypto} {mailer : Mailer} {call : StoreCall} (h : call.check c mailer = true)
    : call.Sound c mailer := by
  cases call with
  | poll s origin kinds identifier claims =>
    simp only [StoreCall.check, Bool.and_eq_true, decide_eq_true_eq, List.all_eq_true] at h
    obtain ⟨⟨hcopies, hlength⟩, hreturns⟩ := h
    refine ⟨?_, hlength, ?_⟩
    . intro key job hjob i j a b hi hj _ _
      have hone := hcopies (key, job) ((Table.mem_toList _ _ _).mpr hjob)
      have hi := (List.getElem?_eq_some_iff.mp hi).1
      have hj := (List.getElem?_eq_some_iff.mp hj).1
      dsimp only at hone
      omega
    . intro i selected item hselected hitem
      have hreturn := hreturns (selected, i) (List.mem_zipIdx_iff_getElem?.mpr hselected)
      rw [hitem] at hreturn
      exact hreturn
  | finish s claim outage =>
    simp only [StoreCall.check, Bool.and_eq_true, decide_eq_true_eq] at h
    exact h

namespace Leak

open SharedRequest

def job (key : String) (item : List UInt8) (created : UInt64) : NewOutboundJob where
  identity := Sample.identity key
  kind := .fileRequest
  target := .destination origin.address.display
  localIdentity := destination.address.display
  item
  deliveries := [Sample.delivery origin.address.display]
  deliveries_lt := by decide
  sources := []
  created
  forwardInbound := none
  forwardClaimToken := none

def submit (key : String) (item : List UInt8) (created : UInt64) (n : UInt8) : Op :=
  .commitBatch [Sample.identity key] (fun _ _ => .ok [job key item created]) [Sample.draw n]

def ops (first : List UInt8) : List Op :=
  [submit "one" first 1 1, submit "two" CutShort.fileRequest.encode 2 2]

def store (first : List UInt8) : Store := (storeMachine crypto).run .empty (ops first)

theorem store_reachable (first : List UInt8) : Reachable crypto (store first) := ⟨ops first, rfl⟩

def mailer : Mailer where
  resolver := resolver
  localIdentity := destination
  localSecret := secret
  retiredSecrets := []
  publicKey _ := destination.publicKey
  dispatch _ _ _ _ := (.error (.message "not dispatched"), [])
  now _ := 10
  draws n := [Sample.draw (UInt8.ofNat n), Sample.draw (UInt8.ofNat (n + 100))]
  outage _ := none
  takes _ := true

-- One bundle with a poll for file requests. The client closes behind it.
def reads : List (Except ServerError OwnedTlv) :=
  match buildBundle crypto sign origin secret destination 0
    [[pollValue Types.pollFileRequests 1]] with
  | .error _ => []
  | .ok bytes =>
    match parseSequence bytes with
    | .error _ => []
    | .ok values => values.map .ok

def run (first : List UInt8) : Connection := (serve crypto sign mailer reads (store first)).2

end Leak

/--
Two file requests are returned, and both are released when the client leaves without a response.
-/
theorem serve_settles_unanswered
    : (Leak.run CutShort.fileRequest.encode).claimed.length = 2 ∧
      (Leak.run CutShort.fileRequest.encode).finished.Perm
        (Leak.run CutShort.fileRequest.encode).claimed := by
  have hrun : (Leak.run CutShort.fileRequest.encode).claimed.length = 2 ∧
      (Leak.run CutShort.fileRequest.encode).calls.all
        (·.check SharedRequest.crypto Leak.mailer) = true := by
    decide +kernel
  obtain ⟨hclaimed, hchecks⟩ := hrun
  rw [List.all_eq_true] at hchecks
  refine ⟨hclaimed, ?_⟩
  unfold Leak.run at hchecks ⊢
  apply (serve_settles _ _ _ _ (Leak.store_reachable _) _ _).1
  intro call hcall
  exact sound_of_check (hchecks call hcall)

/--
The first of two claimed copies has no item that can be returned. The second one has been claimed with
it, and is never finished.
-/
theorem serve_leaks
    : ¬∀ (c : Crypto) (sign : SignTlv) (mailer : Mailer) (s : Store)
        (reads : List (Except ServerError OwnedTlv)), Reachable c s →
        (serve c sign mailer reads s).2.finished.Perm (serve c sign mailer reads s).2.claimed := by
  intro h
  have hperm := h SharedRequest.crypto SharedRequest.sign Leak.mailer (Leak.store [66, 0]) Leak.reads
    (Leak.store_reachable _)
  have hlength : (Leak.run [66, 0]).finished.length ≠ (Leak.run [66, 0]).claimed.length := by
    decide +kernel
  exact hlength hperm.length_eq

end Tith
