import Mathlib.Data.Prod.Lex
import Mathlib.Data.Set.Card
import Tith.Deliver.Outcomes
import Tith.Deliver.Returned
import Tith.Store.PollSnapshot

/-!
This module contains the proof that a pass claims every copy at most once, and ends, if no copy is put
off to a time that has already come.
-/

namespace Tith

def DeliveryRecord.isDue (now : UInt64) (copy : DeliveryRecord) : Bool :=
  copy.isWaiting && copy.retryAt.all (· ≤ now)

/--
Copies are known by their job and their number in it.
-/
def Due (now : UInt64) (s : Store) (key : String × UInt64) : Prop :=
  ∃ job copy, s.jobs[key.1]? = some job ∧ copy ∈ job.deliveries ∧ copy.index = key.2 ∧
    copy.isDue now = true

/--
Settles a copy for good, or until a time that is still to come.
-/
def DeliveryOutcome.isAfter (now : UInt64) (outcome : DeliveryOutcome) : Bool :=
  match outcome with
  | .deferred retryAt _ => now < retryAt
  | .delivered _ | .rejected _ _ | .failed _ => true

theorem isDue_claimCopy (now : UInt64) (copy : DeliveryRecord) (token : String) (attempts : UInt64)
    : (claimCopy copy token attempts).isDue now = false := by
  simp [DeliveryRecord.isDue, DeliveryRecord.isWaiting, claimCopy]

theorem isDue_finishCopy {now : UInt64} {outcome : DeliveryOutcome} (h : outcome.isAfter now = true)
    (copy : DeliveryRecord)
    : (finishCopy copy outcome).isDue now = false := by
  cases outcome with
  | deferred retryAt result =>
    simp only [DeliveryOutcome.isAfter, decide_eq_true_eq] at h
    simp [DeliveryRecord.isDue, DeliveryRecord.isWaiting, finishCopy, UInt64.not_le.mpr h]
  | _ => simp [DeliveryRecord.isDue, DeliveryRecord.isWaiting, finishCopy]

theorem due_of_set {now : UInt64} {s s' : Store} {id : String} {job job' : OutboundJob}
    {position : Nat} {old copy : DeliveryRecord} (hjob : s.jobs[id]? = some job) (hinv : JobInv job)
    (hget : job.deliveries[position]? = some old) (hjobs : s'.jobs = s.jobs.insert id job')
    (hdeliveries : job'.deliveries = job.deliveries.set position copy)
    (hcopy : copy.isDue now = false) {key : String × UInt64} (h : Due now s' key)
    : Due now s key ∧ key ≠ (id, old.index) := by
  -- A copy that is rewritten so that it is not due any more. No other copy becomes due by that.
  obtain ⟨found, due, hfound, hmem, hindex, hdue⟩ := h
  rw [hjobs, Table.getElem?_insert] at hfound
  split at hfound
  . next hid =>
    injection hfound with hfound
    subst hfound
    rw [hdeliveries] at hmem
    obtain ⟨i, hi, hcopyAt⟩ := List.mem_iff_getElem.mp hmem
    rw [List.getElem_set] at hcopyAt
    split at hcopyAt
    . subst hcopyAt
      rw [hdue] at hcopy
      cases hcopy
    . next hne =>
      rw [List.length_set] at hi
      have hat : job.deliveries[i]? = some due := by rw [List.getElem?_eq_getElem hi, hcopyAt]
      refine ⟨⟨job, due, ?_, List.mem_of_getElem? hat, hindex, hdue⟩, ?_⟩
      . rw [← hid]
        exact hjob
      . rintro rfl
        apply hne
        have hfirst := hinv.findIdx?_index hat
        have hsecond := hinv.findIdx?_index hget
        simp only [hindex] at hfirst
        rw [hfirst] at hsecond
        injection hsecond with hsecond
        exact hsecond.symm
  . next hid =>
    refine ⟨⟨found, due, hfound, hmem, hindex, hdue⟩, ?_⟩
    rintro rfl
    exact hid rfl

/--
What a worker does to the copies: no job comes or goes, the items stay, and no copy becomes due.
-/
structure Works (now : UInt64) (s s' : Store) : Prop where
  jobs : ∀ id : String, s'.jobs[id]? = none ↔ s.jobs[id]? = none
  items : s'.items = s.items
  shrinks : ∀ key, Due now s' key → Due now s key

namespace Works

variable {now : UInt64} {s t u : Store}

theorem refl (now : UInt64) (s : Store) : Works now s s := ⟨fun _ => .rfl, rfl, fun _ => id⟩

theorem trans (h : Works now s t) (h' : Works now t u) : Works now s u where
  jobs id := (h'.jobs id).trans (h.jobs id)
  items := h'.items.trans h.items
  shrinks key hdue := h.shrinks key (h'.shrinks key hdue)

theorem of_set {id : String} {job job' : OutboundJob} {position : Nat} {old copy : DeliveryRecord}
    (hjob : s.jobs[id]? = some job) (hinv : JobInv job) (hget : job.deliveries[position]? = some old)
    (hjobs : t.jobs = s.jobs.insert id job') (hdeliveries : job'.deliveries = job.deliveries.set position copy)
    (hcopy : copy.isDue now = false) (hitems : t.items = s.items)
    : Works now s t where
  jobs other := by
    rw [hjobs, Table.getElem?_insert]
    split
    . next heq =>
      rw [← heq, hjob]
      simp
    . rfl
  items := hitems
  shrinks key hdue := (due_of_set hjob hinv hget hjobs hdeliveries hcopy hdue).1

end Works

theorem nodup_keys_append {first second : List DeliveryClaim} (h : (first.map (·.key)).Nodup)
    (h' : (second.map (·.key)).Nodup) (hne : ∀ claim ∈ first, ∀ claim' ∈ second, claim.key ≠ claim'.key)
    : ((first ++ second).map (·.key)).Nodup := by
  rw [List.map_append, List.nodup_append]
  refine ⟨h, h', ?_⟩
  intro key hkey key' hkey' heq
  obtain ⟨claim, hclaim, rfl⟩ := List.mem_map.mp hkey
  obtain ⟨claim', hclaim', rfl⟩ := List.mem_map.mp hkey'
  exact hne claim hclaim claim' hclaim' heq

/--
Claims of different copies that were due before and are not due any more.
-/
structure Takes (now : UInt64) (s : Store) (claims : List DeliveryClaim) (s' : Store) : Prop extends
    Works now s s' where
  nodup : (claims.map (·.key)).Nodup
  due : ∀ claim ∈ claims, Due now s claim.key
  taken : ∀ claim ∈ claims, ¬Due now s' claim.key
  item : ∀ claim ∈ claims, s.items[claim.jobId]? = some claim.item

namespace Takes

variable {now : UInt64} {s t u : Store} {first second : List DeliveryClaim}

theorem nil (h : Works now s t) : Takes now s [] t where
  toWorks := h
  nodup := by simp
  due := by simp
  taken := by simp
  item := by simp

theorem append (h : Takes now s first t) (h' : Takes now t second u) : Takes now s (first ++ second) u where
  toWorks := h.toWorks.trans h'.toWorks
  nodup := by
    apply nodup_keys_append h.nodup h'.nodup
    intro claim hclaim claim' hclaim' heq
    apply h.taken claim hclaim
    rw [heq]
    exact h'.due claim' hclaim'
  due := by
    intro claim hclaim
    rcases List.mem_append.mp hclaim with hclaim | hclaim
    . exact h.due claim hclaim
    . exact h.shrinks _ (h'.due claim hclaim)
  taken := by
    intro claim hclaim hdue
    rcases List.mem_append.mp hclaim with hclaim | hclaim
    . exact h.taken claim hclaim (h'.shrinks _ hdue)
    . exact h'.taken claim hclaim hdue
  item := by
    intro claim hclaim
    rcases List.mem_append.mp hclaim with hclaim | hclaim
    . exact h.item claim hclaim
    . rw [← h.items]
      exact h'.item claim hclaim

end Takes

section Steps

variable {now : UInt64} {s s' : Store}

theorem claimScheduled_batchInv (hinv : BatchInv s) {selects : DeliveryRecord → Bool}
    {rng : Rng} {claim : Option DeliveryClaim} (h : claimScheduled now selects rng s = .ok (claim, s'))
    : BatchInv s' := by
  have hstep := (step_batchInv Sample.crypto hinv (.claimScheduled now selects rng)).1
  simpa [step, transact, h] using hstep

theorem finishDelivery_batchInv (hinv : BatchInv s) {jobId token : String}
    {index : UInt64} {outcome : DeliveryOutcome} {state : JobState}
    (h : finishDelivery jobId index token now outcome s = .ok (state, s'))
    : BatchInv s' := by
  have hstep := (step_batchInv Sample.crypto hinv (.finishDelivery jobId index token now outcome)).1
  simpa [step, transact, h] using hstep

theorem claimScheduled_takes (hinv : BatchInv s) {selects : DeliveryRecord → Bool}
    {rng : Rng} {claim : DeliveryClaim} (h : claimScheduled now selects rng s = .ok (some claim, s'))
    : Takes now s [claim] s' := by
  obtain ⟨hnone, _⟩ | ⟨selected, claim', rng', id, hjob, hget, hwaiting, hretry, hclaim, hsome⟩ :=
    claimMatching_cases h
  . cases hnone
  . injection hsome with hsome
    subst hsome
    obtain ⟨token, attempts, item, events, _, _, hitem, _, rfl, rfl⟩ := claimSelected_cases hclaim
    obtain ⟨hid, _, hjobInv⟩ := hinv.ledger.jobs id _ hjob
    rw [← hid] at hjob
    have hcopy := isDue_claimCopy now selected.copy token attempts
    constructor
    . exact .of_set hjob hjobInv hget rfl rfl hcopy rfl
    . simp
    . simp only [List.mem_singleton, forall_eq]
      exact ⟨_, selected.copy, hjob, List.mem_of_getElem? hget, rfl,
        by simp [DeliveryRecord.isDue, hwaiting, hretry]⟩
    . simp only [List.mem_singleton, forall_eq]
      intro hdue
      exact (due_of_set hjob hjobInv hget rfl rfl hcopy hdue).2 rfl
    . simpa only [List.mem_singleton, forall_eq] using hitem

theorem finishDelivery_works (hinv : BatchInv s) {jobId token : String}
    {index : UInt64} {outcome : DeliveryOutcome} {state : JobState} (hafter : outcome.isAfter now = true)
    (h : finishDelivery jobId index token now outcome s = .ok (state, s'))
    : Works now s s' := by
  obtain ⟨job, position, copy, events, hjob, _, hget, _, _, _, _, rfl⟩ := finishDelivery_cases h
  obtain ⟨_, _, hjobInv⟩ := hinv.ledger.jobs jobId _ hjob
  exact .of_set hjob hjobInv hget rfl rfl (isDue_finishCopy hafter copy) rfl

theorem claimRest_takes (hinv : BatchInv s) (selects : DeliveryRecord → Bool)
    (draws : Nat → Rng) (room : Nat)
    : BatchInv (claimRest now selects draws room s).store ∧
      Takes now s (claimRest now selects draws room s).claims
        (claimRest now selects draws room s).store := by
  induction room generalizing s with
  | zero => exact ⟨hinv, .nil (.refl now s)⟩
  | succ room ih =>
    rw [claimRest]
    split
    . exact ⟨hinv, .nil (.refl now s)⟩
    . next s' hclaim =>
      obtain ⟨_, rfl⟩ | ⟨_, _, _, _, _, _, _, _, _, hsome⟩ := claimMatching_cases hclaim
      . exact ⟨hinv, .nil (.refl now _)⟩
      . cases hsome
    . next claim s' hclaim =>
      obtain ⟨hrest, htakes⟩ := ih (claimScheduled_batchInv hinv hclaim)
      exact ⟨hrest, (claimScheduled_takes hinv hclaim).append htakes⟩

variable (now) in
theorem claimGroup_takes {c : Crypto} (hinv : BatchInv s) (turn : Turn c)
    : BatchInv (claimGroup turn now s).store ∧
      Takes now s (claimGroup turn now s).claims (claimGroup turn now s).store := by
  unfold claimGroup
  split
  . exact ⟨hinv, .nil (.refl now s)⟩
  . next s' hclaim =>
    obtain ⟨_, rfl⟩ | ⟨_, _, _, _, _, _, _, _, _, hsome⟩ := claimMatching_cases hclaim
    . exact ⟨hinv, .nil (.refl now _)⟩
    . cases hsome
  . next first s' hclaim =>
    have hinv' := claimScheduled_batchInv hinv hclaim
    refine ⟨(claimRest_takes hinv' _ _ _).1, ?_⟩
    exact (claimScheduled_takes hinv hclaim).append (claimRest_takes hinv' _ _ _).2

theorem finishGroup_works (hinv : BatchInv s)
    {finished : List (DeliveryClaim × DeliveryOutcome)}
    (hafter : ∀ entry ∈ finished, entry.2.isAfter now = true) (summary : PassSummary)
    : BatchInv (finishGroup now finished summary s).2 ∧
      Works now s (finishGroup now finished summary s).2 := by
  induction finished generalizing s summary with
  | nil => exact ⟨hinv, .refl now s⟩
  | cons entry finished ih =>
    obtain ⟨claim, outcome⟩ := entry
    rw [finishGroup]
    split
    . exact ⟨hinv, .refl now s⟩
    . next state s' hfinish =>
      obtain ⟨hrest, hworks⟩ := ih (finishDelivery_batchInv hinv hfinish)
        (fun entry hentry => hafter entry (by simp [hentry])) (summary.record outcome)
      have hfirst : outcome.isAfter now = true := hafter (claim, outcome) (by simp)
      exact ⟨hrest, (finishDelivery_works hinv hfirst hfinish).trans hworks⟩

end Steps

/--
A peer that asks for another attempt at a time of its own names one that is still to come.
-/
def Rejection.isAfter (now : UInt64) (rejection : Rejection) : Bool :=
  match rejection.reason with
  | .temporary => rejection.retryAfter.all (now < ·)
  | .permanent | .conditionUnmet => true

def SessionEvent.isAfter (now : UInt64) (event : SessionEvent) : Bool :=
  match event with
  | .responsesReceived responses => responses.all (·.rejection.all (·.isAfter now))
  | .initialSent | .replyHeaderReceived _ | .finalReplySent | .closed => true

def Network.IsAfter (now : UInt64) (network : Network) : Prop :=
  ∀ destination bytes conversation, network.connect destination bytes = .ok conversation →
    ∀ event ∈ conversation.events, event.isAfter now = true

section Outcomes

variable {now : UInt64}

def ResponseTracker.IsAfter (now : UInt64) (tracker : ResponseTracker) : Prop :=
  ∀ response ∈ tracker.completed, response.rejection.all (·.isAfter now) = true

theorem observeResponse_isAfter {tracker : ResponseTracker} (h : tracker.IsAfter now)
    {item : ValidatedItem} (hitem : item.rejection.all (·.isAfter now) = true)
    : (tracker.observeResponse item).2.IsAfter now := by
  unfold ResponseTracker.observeResponse
  split
  . next position completed hfind =>
    intro response hresponse
    have hrejection : completed.rejection = item.rejection := by
      simp only [ResponseTracker.findRequest, Except.bind_ok_iff] at hfind
      obtain ⟨_, _, _, _, _, _, _, _, hfind⟩ := hfind
      split at hfind
      . cases hfind
      . split at hfind
        . cases hfind
        . cases hfind
          rfl
    rcases List.eq_or_mem_of_mem_insertIdx hresponse with rfl | hmem
    . rw [hrejection]
      exact hitem
    . exact h response hmem
  . exact h

theorem observeResponses_isAfter {tracker : ResponseTracker} (h : tracker.IsAfter now)
    {items : List ValidatedItem}
    (hitems : ∀ item ∈ items, item.rejection.all (·.isAfter now) = true)
    : (tracker.observeResponses items).2.IsAfter now := by
  induction items generalizing tracker with
  | nil => exact h
  | cons item items ih =>
    have hfirst := observeResponse_isAfter h (hitems item (by simp))
    rw [ResponseTracker.observeResponses]
    split
    . next tracker' hobserve =>
      rw [hobserve] at hfirst
      exact ih hfirst (fun item hitem => hitems item (by simp [hitem]))
    . next error tracker' hobserve =>
      rw [hobserve] at hfirst
      exact hfirst

theorem session_step_isAfter {session : ClientSession} (h : session.tracker.IsAfter now)
    {event : SessionEvent} (hevent : event.isAfter now = true)
    : (session.step event).2.tracker.IsAfter now := by
  cases event with
  | responsesReceived responses =>
    simp only [SessionEvent.isAfter, List.all_eq_true] at hevent
    have hobserved := observeResponses_isAfter h hevent
    rw [ClientSession.step, ClientSession.responsesReceived]
    split
    . exact h
    . split
      . next hobserve =>
        rw [hobserve] at hobserved
        exact hobserved
      . next hobserve =>
        rw [hobserve] at hobserved
        exact hobserved
  | initialSent =>
    rw [ClientSession.step, ClientSession.initialSent]
    split <;> exact h
  | replyHeaderReceived reply =>
    rw [ClientSession.step, ClientSession.replyHeaderReceived]
    split
    . exact h
    . split
      . exact h
      . split <;> exact h
  | finalReplySent =>
    rw [ClientSession.step, ClientSession.finalReplySent]
    split <;> exact h
  | closed =>
    rw [ClientSession.step, ClientSession.closed]
    split
    . exact h
    . split <;> exact h

theorem session_run_isAfter {tracker : ResponseTracker} (hfresh : tracker.completed = [])
    {events : List SessionEvent} (hevents : ∀ event ∈ events, event.isAfter now = true)
    : ((sessionMachine tracker).run (.new tracker) events).tracker.IsAfter now := by
  -- The responses that an exchange has recorded name no time that has already come.
  apply Machine.invariant_along (fun _ (event : SessionEvent) => event.isAfter now = true)
    (fun (session : ClientSession) => session.tracker.IsAfter now)
  . intro session event h hevent
    exact session_step_isAfter h hevent
  . intro response hresponse
    rw [ClientSession.new, hfresh] at hresponse
    cases hresponse
  . exact (sessionMachine tracker).along_of_forall hevents _

variable {c : Crypto} {sign : SignTlv} {sender : LocalIdentity} {network : Network}
  {resolver : KeyResolver} {destination : Identity}

theorem attempt_isAfter (hnetwork : network.IsAfter now) {payloads : List (List OwnedTlv)}
    {time : UInt64} {result : Except DeliveryError Exchange} {session : ClientSession}
    (h : attempt c sign sender network resolver destination payloads time = .ok (result, session))
    : session.tracker.IsAfter now ∧
      ∀ exchange, result = .ok exchange → exchange.responses = session.responses := by
  simp only [attempt, Except.bind_ok_iff, Except.mapError_eq_ok] at h
  obtain ⟨bytes, _, bundle, _, tracker, htracker, conversation, hconnect, h⟩ := h
  have hrun := session_run_isAfter (forBundle_fresh htracker) (hnetwork _ _ _ hconnect)
  injection h with h
  unfold converse at h
  split at h
  . injection h with hresult hsession
    subst hsession
    refine ⟨hrun, ?_⟩
    intro exchange hexchange
    rw [hexchange] at hresult
    cases hresult
  . injection h with hresult hsession
    subst hsession
    refine ⟨hrun, ?_⟩
    intro exchange hexchange
    rw [hexchange] at hresult
    injection hresult with hresult
    rw [← hresult]

theorem exchangePayloads_isAfter (hnetwork : network.IsAfter now) {payloads : List (List OwnedTlv)}
    {time : UInt64} {exchange : Exchange}
    (h : exchangePayloads c sign sender network resolver destination payloads time = .ok exchange)
    : ∀ response ∈ exchange.responses, response.rejection.all (·.isAfter now) = true := by
  simp only [exchangePayloads, Except.bind_ok_iff] at h
  obtain ⟨⟨result, session⟩, hattempt, h⟩ := h
  obtain ⟨hsession, hresult⟩ := attempt_isAfter hnetwork hattempt
  dsimp only at h
  split at h
  . next exchange' =>
    injection h with h
    subst h
    rw [hresult exchange' rfl]
    exact hsession
  . split at h
    . simp only [Except.bind_ok_iff] at h
      obtain ⟨⟨key, resolver'⟩, _, ⟨result', session'⟩, hattempt', h⟩ := h
      obtain ⟨hsession', hresult'⟩ := attempt_isAfter hnetwork hattempt'
      rw [hresult' exchange h]
      exact hsession'
    . injection h with h
      subst h
      exact hsession
    . cases h

theorem outcomeFor_isAfter {nextAttempt : UInt64} (hnext : now < nextAttempt)
    {response : CompletedResponse} (h : response.rejection.all (·.isAfter now) = true) (relayed : Bool)
    : (outcomeFor response nextAttempt relayed).isAfter now = true := by
  unfold outcomeFor
  split
  . rfl
  . unfold rejectionOutcome
    split
    . simpa [DeliveryOutcome.isAfter] using hnext
    . next rejection hrejection =>
      rw [hrejection, Option.all_some, Rejection.isAfter] at h
      split
      . rfl
      . rfl
      . next htemporary =>
        rw [htemporary] at h
        rw [DeliveryOutcome.isAfter, decide_eq_true_iff]
        cases hretry : rejection.retryAfter with
        | none => exact hnext
        | some retryAfter =>
          rw [hretry] at h
          simpa using h

theorem outcomes_go_isAfter {nextAttempt : UInt64} (hnext : now < nextAttempt)
    {responses : List CompletedResponse}
    (h : ∀ response ∈ responses, response.rejection.all (·.isAfter now) = true)
    (sent : List (Nat × Bool)) (requests : List OutstandingRequest) {start : List DeliveryOutcome}
    (hstart : ∀ outcome ∈ start, outcome.isAfter now = true)
    : ∀ outcome ∈ outcomes.go responses nextAttempt sent requests start,
        outcome.isAfter now = true := by
  induction sent generalizing requests start with
  | nil => exact hstart
  | cons entry sent ih =>
    obtain ⟨index, relayed⟩ := entry
    rw [outcomes.go]
    split
    . next response hresponse =>
      apply ih
      intro outcome houtcome
      rcases List.mem_or_eq_of_mem_set houtcome with hmem | rfl
      . exact hstart outcome hmem
      . obtain ⟨request, _, hfind⟩ := Option.bind_eq_some_iff.mp hresponse
        exact outcomeFor_isAfter hnext (h response (List.mem_of_find?_eq_some hfind)) relayed
    . exact ih requests.tail hstart

theorem groupOutcomes_isAfter {describe : DeliveryError → String} {turn : Turn c}
    (hturn : turn.network.IsAfter now) {nextAttempt : UInt64} (hnext : now < nextAttempt)
    (group : List DeliveryClaim)
    : ∀ outcome ∈ groupOutcomes c sign describe sender turn group now nextAttempt,
        outcome.isAfter now = true := by
  have hdeferred : ∀ result, (DeliveryOutcome.deferred nextAttempt result).isAfter now = true := by
    intro result
    simpa [DeliveryOutcome.isAfter] using hnext
  unfold groupOutcomes
  split
  . next results hexchange =>
    simp only [exchange, exchangeTo, Except.bind_ok_iff] at hexchange
    obtain ⟨destination, _, ⟨_, returned⟩, ⟨values, _, first, _, second, _, exchange, hpayloads, h⟩,
      hresults⟩ := hexchange
    injection h with h
    injection h with h _
    injection hresults with hresults
    subst hresults
    rw [← h]
    apply outcomes_go_isAfter hnext (exchangePayloads_isAfter hturn hpayloads)
    intro outcome houtcome
    rw [List.eq_of_mem_replicate houtcome]
    apply hdeferred
  . intro outcome houtcome
    obtain ⟨_, _, rfl⟩ := List.mem_map.mp houtcome
    apply hdeferred

end Outcomes

theorem Due.job {now : UInt64} {s : Store} {key : String × UInt64} (h : Due now s key) : s.jobs[key.1]? ≠ none := by
  obtain ⟨job, copy, hjob, _⟩ := h
  rw [hjob]
  exact Option.some_ne_none job

theorem Grows.jobs {s s' : Store} (h : Grows s s') {id : String} (hnone : s'.jobs[id]? = none)
    : s.jobs[id]? = none := by
  rw [Option.eq_none_iff_forall_ne_some]
  intro job hjob
  rw [(h.keeps id job hjob).1] at hnone
  cases hnone

theorem Grows.due {now : UInt64} {s s' : Store} (h : Grows s s') {key : String × UInt64} (hdue : Due now s' key)
    : Due now s key ∨ s.jobs[key.1]? = none := by
  obtain ⟨job, copy, hjob, hmem, hindex, hwaiting⟩ := hdue
  cases hbefore : s.jobs[key.1]? with
  | none => exact .inr rfl
  | some old =>
    rw [(h.keeps _ old hbefore).1] at hjob
    injection hjob with hjob
    subst hjob
    exact .inl ⟨old, copy, hbefore, hmem, hindex, hwaiting⟩

/--
Different copies that have been claimed and are not due any more. Only jobs that have come in since the beginning
have other copies that are due.
-/
structure Attempts (now : UInt64) (s : Store) (claims : List DeliveryClaim) (s' : Store) : Prop where
  nodup : (claims.map (·.key)).Nodup
  due : ∀ claim ∈ claims, Due now s claim.key ∨ s.jobs[claim.jobId]? = none
  taken : ∀ claim ∈ claims, ¬Due now s' claim.key
  known : ∀ claim ∈ claims, s'.jobs[claim.jobId]? ≠ none
  jobs : ∀ id : String, s'.jobs[id]? = none → s.jobs[id]? = none
  shrinks : ∀ key, Due now s' key → Due now s key ∨ s.jobs[key.1]? = none

namespace Attempts

variable {now : UInt64} {s t u v : Store} {first second : List DeliveryClaim}

theorem of_turn (htakes : Takes now s first t) (hgrows : Grows t u) (hworks : Works now u v)
    : Attempts now s first v where
  nodup := htakes.nodup
  due claim hclaim := .inl (htakes.due claim hclaim)
  taken claim hclaim hdue := by
    rcases hgrows.due (hworks.shrinks _ hdue) with hdue | hnone
    . exact htakes.taken claim hclaim hdue
    . exact (htakes.due claim hclaim).job ((htakes.jobs _).mp hnone)
  known claim hclaim hnone :=
    (htakes.due claim hclaim).job ((htakes.jobs _).mp (hgrows.jobs ((hworks.jobs _).mp hnone)))
  jobs id hnone := (htakes.jobs id).mp (hgrows.jobs ((hworks.jobs id).mp hnone))
  shrinks key hdue := by
    rcases hgrows.due (hworks.shrinks key hdue) with hdue | hnone
    . exact .inl (htakes.shrinks key hdue)
    . exact .inr ((htakes.jobs _).mp hnone)

theorem append (h : Attempts now s first t) (h' : Attempts now t second u) : Attempts now s (first ++ second) u where
  nodup := by
    apply nodup_keys_append h.nodup h'.nodup
    intro claim hclaim claim' hclaim' heq
    -- What has been claimed is not due any more, and it does not belong to a job that has come in since.
    rcases h'.due claim' hclaim' with hdue | hnone
    . exact h.taken claim hclaim (heq ▸ hdue)
    . have hid : claim.jobId = claim'.jobId := congrArg Prod.fst heq
      exact h.known claim hclaim (hid ▸ hnone)
  due := by
    intro claim hclaim
    rcases List.mem_append.mp hclaim with hclaim | hclaim
    . exact h.due claim hclaim
    . rcases h'.due claim hclaim with hdue | hnone
      . exact h.shrinks _ hdue
      . exact .inr (h.jobs _ hnone)
  taken := by
    intro claim hclaim hdue
    rcases List.mem_append.mp hclaim with hclaim | hclaim
    . rcases h'.shrinks _ hdue with hdue | hnone
      . exact h.taken claim hclaim hdue
      . exact h.known claim hclaim hnone
    . exact h'.taken claim hclaim hdue
  known := by
    intro claim hclaim hnone
    rcases List.mem_append.mp hclaim with hclaim | hclaim
    . exact h.known claim hclaim (h'.jobs _ hnone)
    . exact h'.known claim hclaim hnone
  jobs id hnone := h.jobs id (h'.jobs id hnone)
  shrinks key hdue := by
    rcases h'.shrinks key hdue with hdue | hnone
    . exact h.shrinks key hdue
    . exact .inr (h.jobs _ hnone)

end Attempts

def Store.copyKeys (s : Store) : List (String × UInt64) :=
  s.jobs.toList.flatMap fun entry => entry.2.deliveries.map fun copy => (entry.1, copy.index)

theorem mem_copyKeys {now : UInt64} {s : Store} {key : String × UInt64} (h : Due now s key)
    : key ∈ s.copyKeys := by
  obtain ⟨job, copy, hjob, hcopy, hindex, _⟩ := h
  rw [Store.copyKeys, List.mem_flatMap]
  refine ⟨(key.1, job), (Table.mem_toList _ _ _).mpr hjob, ?_⟩
  rw [List.mem_map]
  exact ⟨copy, hcopy, by rw [hindex]⟩

def dueKeys (now : UInt64) (s : Store) : Set (String × UInt64) := {key | Due now s key}

def dueRequests (now : UInt64) (s : Store) : Set (String × UInt64) :=
  {key | Due now s key ∧ ∃ item, s.items[key.1]? = some item ∧ isFileRequest item = true}

theorem dueKeys_subset (now : UInt64) (s : Store) : dueKeys now s ⊆ s.copyKeys.toFinset := by
  intro key hdue
  exact List.mem_toFinset.mpr (mem_copyKeys hdue)

theorem finite_dueKeys (now : UInt64) (s : Store) : (dueKeys now s).Finite :=
  s.copyKeys.toFinset.finite_toSet.subset (dueKeys_subset now s)

theorem finite_dueRequests (now : UInt64) (s : Store) : (dueRequests now s).Finite :=
  (finite_dueKeys now s).subset fun _ h => h.1

theorem ncard_dueKeys_le (now : UInt64) (s : Store) : (dueKeys now s).ncard ≤ s.copyKeys.length := by
  have hle := Set.ncard_le_ncard (dueKeys_subset now s) s.copyKeys.toFinset.finite_toSet
  rw [Set.ncard_coe_finset] at hle
  exact hle.trans (List.toFinset_card_le _)

/--
A connection takes FileRequests out of the spool, or brings nothing in and takes other copies out of it.
-/
structure Progress {c : Crypto} (now : UInt64) (turn : Turn c) (s s' : Store) : Prop where
  requests : dueRequests now s' ⊆ dueRequests now s
  shrinks : dueRequests now s' ⊂ dueRequests now s ∨ dueKeys now s' ⊂ dueKeys now s
  alone : turn.returned = [] → dueKeys now s' ⊂ dueKeys now s

theorem dueKeys_ssubset {now : UInt64} {s t v : Store} {first : DeliveryClaim} {rest : List DeliveryClaim}
    (htakes : Takes now s (first :: rest) t) (hworks : Works now t v)
    : dueKeys now v ⊂ dueKeys now s := by
  have hfirst := List.mem_cons_self (a := first) (l := rest)
  refine ⟨fun key hdue => htakes.shrinks key (hworks.shrinks key hdue), ?_⟩
  intro hsubset
  exact htakes.taken first hfirst (hworks.shrinks _ (hsubset (htakes.due first hfirst)))

theorem dueRequests_subset {now : UInt64} {s t u v : Store} {claims : List DeliveryClaim}
    (htakes : Takes now s claims t) (hgrows : Grows t u) (hworks : Works now u v)
    : dueRequests now v ⊆ dueRequests now s := by
  rintro key ⟨hdue, item, hitem, hrequest⟩
  rw [hworks.items] at hitem
  have hdue := hworks.shrinks key hdue
  obtain ⟨job, _, hjob, _⟩ := id hdue
  rcases hgrows.due hdue with hbefore | hnone
  . obtain ⟨old, _, hold, _⟩ := id hbefore
    rw [(hgrows.keeps _ old hold).2, htakes.items] at hitem
    exact ⟨htakes.shrinks key hbefore, item, hitem, hrequest⟩
  . rw [hgrows.fresh _ job item hnone hjob hitem] at hrequest
    cases hrequest

theorem dueRequests_ssubset {now : UInt64} {s t u v : Store} {claims : List DeliveryClaim}
    (htakes : Takes now s claims t) (hgrows : Grows t u) (hworks : Works now u v)
    (hrequests : requiresReturnBundle claims = true)
    : dueRequests now v ⊂ dueRequests now s := by
  refine ⟨dueRequests_subset htakes hgrows hworks, ?_⟩
  intro hsubset
  obtain ⟨claim, hclaim, hrequest⟩ := List.any_eq_true.mp hrequests
  have hmem : claim.key ∈ dueRequests now s :=
    ⟨htakes.due claim hclaim, claim.item, htakes.item claim hclaim, hrequest⟩
  exact (Attempts.of_turn htakes hgrows hworks).taken claim hclaim (hsubset hmem).1

section Pass

variable {c : Crypto} {base64 : Nodelist.Base64} {sign : SignTlv} {describe : DeliveryError → String}
  {sender : LocalIdentity} {turns : Nat → Turn c} {now nextAttempt : UInt64} {s : Store}

variable (base64) in
theorem receiveReturned_grows (hinv : BatchInv s) (turn : Turn c) (group : List DeliveryClaim)
    : BatchInv (receiveReturned c base64 turn group s) ∧ Grows s (receiveReturned c base64 turn group s) := by
  unfold receiveReturned
  split
  . exact dispatchReturned_grows base64 hinv turn.returned
  . exact ⟨hinv, .refl s⟩

theorem progress_of_turn {t v : Store} {turn : Turn c} {first : DeliveryClaim} {rest : List DeliveryClaim}
    (hinv : BatchInv t) (htakes : Takes now s (first :: rest) t)
    (hworks : Works now (receiveReturned c base64 turn (first :: rest) t) v)
    : Progress now turn s v := by
  obtain ⟨_, hgrows⟩ := receiveReturned_grows base64 hinv turn (first :: rest)
  refine ⟨dueRequests_subset htakes hgrows hworks, ?_, ?_⟩
  . by_cases hrequests : requiresReturnBundle (first :: rest) = true
    . exact .inl (dueRequests_ssubset htakes hgrows hworks hrequests)
    . right
      rw [receiveReturned, if_neg hrequests] at hworks
      exact dueKeys_ssubset htakes hworks
  . intro halone
    have hsame : receiveReturned c base64 turn (first :: rest) t = t := by
      simp [receiveReturned, halone, dispatchReturned]
    rw [hsame] at hworks
    exact dueKeys_ssubset htakes hworks

variable (c base64 sign describe sender turns) in
/--
A turn of the pass: it is the last one, or the pass goes on with fewer copies.
-/
theorem passLoop_turn (hnext : now < nextAttempt) (hturns : ∀ n, (turns n).network.IsAfter now) (hinv : BatchInv s)
    (turn : Nat) (summary : PassSummary)
    : (∃ claims result s', Attempts now s claims s' ∧ ∀ limit,
          passLoop c base64 sign describe sender turns now nextAttempt (limit + 1) turn summary s =
            ⟨claims, some result, s'⟩) ∨
        ∃ claims summary' s', Attempts now s claims s' ∧ BatchInv s' ∧
          Progress now (turns turn) s s' ∧ ∀ limit,
          passLoop c base64 sign describe sender turns now nextAttempt (limit + 1) turn summary s =
            let rest := passLoop c base64 sign describe sender turns now nextAttempt limit (turn + 1) summary' s'
            { rest with claimed := claims ++ rest.claimed } := by
  obtain ⟨hgroup, htakes⟩ := claimGroup_takes now hinv (turns turn)
  have hstopped := Attempts.of_turn htakes (.refl _) (.refl now _)
  cases herror : (claimGroup (turns turn) now s).error with
  | some error =>
    refine .inl ⟨_, .error error, _, hstopped, ?_⟩
    intro limit
    rw [passLoop]
    simp only [herror]
  | none =>
    cases hclaims : (claimGroup (turns turn) now s).claims with
    | nil =>
      rw [hclaims] at hstopped
      refine .inl ⟨_, .ok summary, _, hstopped, ?_⟩
      intro limit
      rw [passLoop]
      simp only [herror, hclaims]
    | cons first rest =>
      rw [hclaims] at htakes
      obtain ⟨hreceived, hgrows⟩ := receiveReturned_grows base64 hgroup (turns turn) (first :: rest)
      have hafter : ∀ entry ∈ (first :: rest).zip
          (groupOutcomes c sign describe sender (turns turn) (first :: rest) now nextAttempt),
          entry.2.isAfter now = true := by
        intro entry hentry
        exact groupOutcomes_isAfter (hturns turn) hnext _ entry.2 (List.of_mem_zip hentry).2
      obtain ⟨hfinish, hworks⟩ := finishGroup_works hreceived hafter
        { summary with connections := summary.connections + 1 }
      have hattempts := Attempts.of_turn htakes hgrows hworks
      have hprogress := progress_of_turn hgroup htakes hworks
      generalize hfinished : finishGroup now _ _ _ = finished at hfinish hattempts hprogress
      obtain ⟨result, s'⟩ := finished
      cases result with
      | error error =>
        refine .inl ⟨_, .error error, _, hattempts, ?_⟩
        intro limit
        rw [passLoop]
        simp only [herror, hclaims, hfinished]
      | ok summary' =>
        refine .inr ⟨_, summary', _, hattempts, hfinish, hprogress, ?_⟩
        intro limit
        rw [passLoop]
        simp only [herror, hclaims, hfinished]

theorem passLoop_attempts (hnext : now < nextAttempt) (hturns : ∀ n, (turns n).network.IsAfter now)
    (hinv : BatchInv s) (limit turn : Nat) (summary : PassSummary)
    : Attempts now s
        (passLoop c base64 sign describe sender turns now nextAttempt limit turn summary s).claimed
        (passLoop c base64 sign describe sender turns now nextAttempt limit turn summary s).store := by
  induction limit generalizing turn summary s with
  | zero => exact .of_turn (.nil (.refl now s)) (.refl s) (.refl now s)
  | succ limit ih =>
    obtain ⟨claims, result, s', hattempts, heq⟩ | ⟨claims, summary', s', hattempts, hinv', _, heq⟩ :=
      passLoop_turn c base64 sign describe sender turns hnext hturns hinv turn summary
    . rw [heq]
      exact hattempts
    . rw [heq]
      exact hattempts.append (ih hinv' (turn + 1) summary')

/--
Every connection that brings something in takes FileRequests out of the spool, and no connection brings one in.
-/
theorem passLoop_ends (hnext : now < nextAttempt) (hturns : ∀ n, (turns n).network.IsAfter now)
    (hinv : BatchInv s) (turn : Nat) (summary : PassSummary)
    : ∃ bound, ∀ limit, bound < limit →
        (passLoop c base64 sign describe sender turns now nextAttempt limit turn summary s).ended.isSome := by
  induction hmeasure : toLex ((dueRequests now s).ncard, (dueKeys now s).ncard) using WellFoundedLT.induction
    generalizing s turn summary with
  | ind measure ih =>
    obtain ⟨claims, result, s', _, heq⟩ | ⟨claims, summary', s', _, hinv', hprogress, heq⟩ :=
      passLoop_turn c base64 sign describe sender turns hnext hturns hinv turn summary
    . refine ⟨0, ?_⟩
      intro limit hlimit
      obtain ⟨limit, rfl⟩ := Nat.exists_eq_add_of_lt hlimit
      rw [Nat.zero_add, heq]
      rfl
    . have hless : toLex ((dueRequests now s').ncard, (dueKeys now s').ncard) < measure := by
        rw [← hmeasure, Prod.Lex.toLex_lt_toLex]
        rcases hprogress.shrinks with hrequests | hkeys
        . exact .inl (Set.ncard_lt_ncard hrequests (finite_dueRequests now s))
        . rcases hprogress.requests.eq_or_ssubset with hsame | hrequests
          . exact .inr ⟨congrArg Set.ncard hsame, Set.ncard_lt_ncard hkeys (finite_dueKeys now s)⟩
          . exact .inl (Set.ncard_lt_ncard hrequests (finite_dueRequests now s))
      obtain ⟨bound, hbound⟩ := ih _ hless hinv' (turn + 1) summary' rfl
      refine ⟨bound + 1, ?_⟩
      intro limit hlimit
      cases limit with
      | zero => cases hlimit
      | succ limit =>
        rw [heq]
        exact hbound limit (Nat.lt_of_succ_lt_succ hlimit)

theorem passLoop_ends_alone (hnext : now < nextAttempt) (hturns : ∀ n, (turns n).network.IsAfter now)
    (halone : ∀ n, (turns n).returned = []) (hinv : BatchInv s) {limit : Nat} (turn : Nat) (summary : PassSummary)
    (hlimit : (dueKeys now s).ncard < limit)
    : (passLoop c base64 sign describe sender turns now nextAttempt limit turn summary s).ended.isSome := by
  induction limit generalizing turn summary s with
  | zero => cases hlimit
  | succ limit ih =>
    obtain ⟨claims, result, s', _, heq⟩ | ⟨claims, summary', s', _, hinv', hprogress, heq⟩ :=
      passLoop_turn c base64 sign describe sender turns hnext hturns hinv turn summary
    . rw [heq]
      rfl
    . rw [heq]
      have hless := Set.ncard_lt_ncard (hprogress.alone (halone turn)) (finite_dueKeys now s)
      exact ih hinv' (turn + 1) summary' (by omega)

end Pass

/--
If the next attempt is still to come and no peer asks for one at a time that has already come, a pass
claims every copy at most once, and it ends. If the peers return nothing, it ends after at most as many
connections as there are copies.
-/
theorem runPass_claims_once (c : Crypto) (base64 : Nodelist.Base64) (sign : SignTlv)
    (describe : DeliveryError → String) (s : Store) (hreachable : Reachable c s) (sender : Option LocalIdentity)
    (turns : Nat → Turn c) (now nextAttempt : UInt64) (hnext : now < nextAttempt)
    (hturns : ∀ n, (turns n).network.IsAfter now)
    : (∀ limit, ((runPass c base64 sign describe sender turns now nextAttempt limit s).claimed.map
        (·.key)).Nodup) ∧
      (∃ bound, ∀ limit, bound < limit →
        (runPass c base64 sign describe sender turns now nextAttempt limit s).ended.isSome) ∧
      ((∀ n, (turns n).returned = []) → ∀ limit, s.copyKeys.length < limit →
        (runPass c base64 sign describe sender turns now nextAttempt limit s).ended.isSome) := by
  obtain ⟨ops, rfl⟩ := hreachable
  have hinv := run_batchInv c empty_batchInv ops
  generalize (storeMachine c).run .empty ops = s at hinv
  cases sender with
  | none => simp [runPass]
  | some sender =>
    refine ⟨?_, passLoop_ends hnext hturns hinv 0 {}, ?_⟩
    . intro limit
      exact (passLoop_attempts hnext hturns hinv limit 0 {}).nodup
    . intro halone limit hlimit
      exact passLoop_ends_alone hnext hturns halone hinv 0 {} ((ncard_dueKeys_le now s).trans_lt hlimit)

namespace PutOff

open SharedRequest

def job : NewOutboundJob where
  identity := Sample.identity "one"
  kind := .fileRequest
  target := .destination destination.address.display
  localIdentity := origin.address.display
  item := CutShort.fileRequest.encode
  deliveries := [{ Sample.delivery destination.address.display with mode := .active }]
  deliveries_lt := by decide
  sources := []
  created := 1
  forwardInbound := none
  forwardClaimToken := none

def ops : List Op := [.commitBatch [Sample.identity "one"] (fun _ _ => .ok [job]) [Sample.draw 1]]

def store : Store := (storeMachine crypto).run .empty ops

-- The peer asks for another attempt at a time of its choice.
def answer (retryAfter : UInt64) : ValidatedItem :=
  { ValidatedItem.ofKind .rejected 1 (carrierValue Types.rejected []) with
    responseTo := some (Vector.replicate 32 0)
    rejection := some ⟨.temporary, some retryAfter, "busy"⟩ }

def network (retryAfter : UInt64) : Network where
  connect _ _ := .ok
    { events := [.initialSent, .replyHeaderReceived CutShort.reply, .responsesReceived [answer retryAfter]]
      failure := none
      returned := 0 }
  discoverKey _ _ := .error (.message "no key")

def turns (retryAfter : UInt64) (n : Nat) : Turn crypto where
  selects _ := true
  resolver := resolver
  network := network retryAfter
  draws _ := [Sample.draw (UInt8.ofNat n)]
  returned := []

def run (retryAfter : UInt64) (limit : Nat) : PassRun :=
  runPass crypto Accept.rfc4648 sign (fun _ => "") (some ⟨origin, secret⟩) (turns retryAfter) 10 20 limit store

theorem network_isAfter : (network 15).IsAfter 10 := by
  intro destination bytes conversation hconnect event hevent
  injection hconnect with hconnect
  subst hconnect
  simp only [List.mem_cons, List.not_mem_nil, or_false] at hevent
  rcases hevent with rfl | rfl | rfl
  . rfl
  . rfl
  . decide

end PutOff

/--
A copy that the peer puts off to a later time is claimed once, and the pass ends.
-/
theorem runPass_claims_once_put_off
    : (∀ limit, ((PutOff.run 15 limit).claimed.map (·.key)).Nodup) ∧
      (PutOff.run 15 2).ended.isSome ∧ (PutOff.run 15 2).claimed.length = 1 := by
  obtain ⟨hnodup, _, hended⟩ := runPass_claims_once SharedRequest.crypto Accept.rfc4648 SharedRequest.sign
    (fun _ => "") PutOff.store ⟨PutOff.ops, rfl⟩ (some ⟨SharedRequest.origin, SharedRequest.secret⟩)
    (PutOff.turns 15) 10 20 (by decide) (fun _ => PutOff.network_isAfter)
  have hrun : PutOff.store.copyKeys.length < 2 ∧ (PutOff.run 15 2).claimed.length = 1 := by decide +kernel
  exact ⟨hnodup, hended (fun _ => rfl) 2 hrun.1, hrun.2⟩

/--
A peer that names a time in the past gets the copy again on the next connection of the same pass.
-/
theorem runPass_claims_again
    : ¬∀ (c : Crypto) (base64 : Nodelist.Base64) (sign : SignTlv) (describe : DeliveryError → String) (s : Store)
        (sender : Option LocalIdentity) (turns : Nat → Turn c) (now nextAttempt : UInt64), Reachable c s →
        (∀ limit, ((runPass c base64 sign describe sender turns now nextAttempt limit s).claimed.map
          (·.key)).Nodup) ∧
        ∃ limit, (runPass c base64 sign describe sender turns now nextAttempt limit s).ended.isSome := by
  intro h
  have hrun := (h SharedRequest.crypto Accept.rfc4648 SharedRequest.sign (fun _ => "")
    PutOff.store (some ⟨SharedRequest.origin, SharedRequest.secret⟩) (PutOff.turns 5) 10 20 ⟨PutOff.ops, rfl⟩).1 2
  have htwice : ¬((PutOff.run 5 2).claimed.map (·.key)).Nodup := by decide +kernel
  exact htwice hrun

end Tith
