import Tith.Store.Lemmas.Copies

/-!
This module contains the life of one job. `Advance` says how an operation may rewrite a job record:
every copy takes a step, the state is aggregated anew and the rest of the record stays.
-/

namespace Tith

/--
A stored job: its state is the aggregate of its copies, the fields of every copy fit its state and
the copies are numbered from one, with numbers that do not wrap.
-/
structure JobInv (job : OutboundJob) : Prop where
  aggregate : job.state = aggregateState job.deliveries
  copies : ∀ copy ∈ job.deliveries, CopyInv copy
  indices : ∀ position copy, job.deliveries[position]? = some copy →
    copy.index = UInt64.ofNat (position + 1)
  length_lt : job.deliveries.length < 2 ^ 64

structure Advance (job job' : OutboundJob) : Prop where
  copies : List.Forall₂ CopyStep job.deliveries job'.deliveries
  aggregate : job'.state = aggregateState job'.deliveries
  jobId : job'.jobId = job.jobId
  application : job'.application = job.application
  idempotencyKey : job'.idempotencyKey = job.idempotencyKey
  digest : job'.digest = job.digest
  kind : job'.kind = job.kind
  forwardInbound : job'.forwardInbound = job.forwardInbound

namespace Advance

theorem forall₂_getElem? {copies copies' : List DeliveryRecord}
    (h : List.Forall₂ CopyStep copies copies') {position : Nat} {copy' : DeliveryRecord}
    (hget : copies'[position]? = some copy')
    : ∃ copy, copies[position]? = some copy ∧ CopyStep copy copy' := by
  induction h generalizing position with
  | nil => simp at hget
  | cons hstep _ ih =>
    cases position with
    | zero =>
      simp only [List.getElem?_cons_zero, Option.some.injEq] at hget
      subst hget
      exact ⟨_, rfl, hstep⟩
    | succ position =>
      simp only [List.getElem?_cons_succ] at hget ⊢
      exact ih hget

theorem forall₂_getElem?_left {copies copies' : List DeliveryRecord}
    (h : List.Forall₂ CopyStep copies copies') {position : Nat} {copy : DeliveryRecord}
    (hget : copies[position]? = some copy)
    : ∃ copy', copies'[position]? = some copy' ∧ CopyStep copy copy' := by
  have hlen := h.length_eq
  have hlt : position < copies.length := by
    by_contra hge
    rw [List.getElem?_eq_none (by omega)] at hget
    cases hget
  have hlt' : position < copies'.length := by omega
  have hget' : copies'[position]? = some copies'[position] := List.getElem?_eq_getElem hlt'
  obtain ⟨copy₀, hcopy₀, hstep⟩ := forall₂_getElem? h hget'
  rw [hget] at hcopy₀
  injection hcopy₀ with heq
  exact ⟨_, hget', heq ▸ hstep⟩

theorem inv {job job' : OutboundJob} (h : Advance job job') (hinv : JobInv job) : JobInv job' := by
  refine ⟨h.aggregate, ?_, ?_, ?_⟩
  . intro copy' hmem
    obtain ⟨position, hget⟩ := List.getElem?_of_mem hmem
    obtain ⟨copy, hcopy, hstep⟩ := forall₂_getElem? h.copies hget
    exact hstep.inv (hinv.copies copy (List.mem_of_getElem? hcopy))
  . intro position copy' hget
    obtain ⟨copy, hcopy, hstep⟩ := forall₂_getElem? h.copies hget
    rw [hstep.index]
    exact hinv.indices position copy hcopy
  . rw [← h.copies.length_eq]
    exact hinv.length_lt

theorem final {job job' : OutboundJob} (h : Advance job job') {position : Nat} {copy : DeliveryRecord}
    (hget : job.deliveries[position]? = some copy) (hfinal : copy.state.isFinal)
    : ∃ copy', job'.deliveries[position]? = some copy' ∧ copy'.state = copy.state := by
  obtain ⟨copy', hcopy', hstep⟩ := forall₂_getElem?_left h.copies hget
  exact ⟨copy', hcopy', hstep.final hfinal⟩

end Advance

theorem forall₂_keep (copies : List DeliveryRecord) : List.Forall₂ CopyStep copies copies := by
  induction copies with
  | nil => exact .nil
  | cons copy copies ih => exact .cons (.keep copy) ih

theorem forall₂_set {copies : List DeliveryRecord} {position : Nat} {copy copy' : DeliveryRecord}
    (hget : copies[position]? = some copy) (hstep : CopyStep copy copy')
    : List.Forall₂ CopyStep copies (copies.set position copy') := by
  induction copies generalizing position with
  | nil => simp at hget
  | cons first copies ih =>
    cases position with
    | zero =>
      simp only [List.getElem?_cons_zero, Option.some.injEq] at hget
      subst hget
      exact .cons hstep (forall₂_keep copies)
    | succ position =>
      simp only [List.getElem?_cons_succ] at hget
      exact .cons (.keep first) (ih hget)

theorem forall₂_map {copies : List DeliveryRecord} {f : DeliveryRecord → DeliveryRecord}
    (hstep : ∀ copy ∈ copies, CopyStep copy (f copy))
    : List.Forall₂ CopyStep copies (copies.map f) := by
  induction copies with
  | nil => exact .nil
  | cons copy copies ih =>
    refine .cons (hstep copy (by simp)) (ih ?_)
    intro copy' hmem
    exact hstep copy' (by simp [hmem])

theorem claimJob_advance {job : OutboundJob} {index : Nat} {copy : DeliveryRecord}
    (hget : job.deliveries[index]? = some copy) (hwaiting : copy.isWaiting) (token : String)
    (attempts now : UInt64)
    : Advance job (claimJob job index (claimCopy copy token attempts) now) := by
  refine ⟨?_, rfl, rfl, rfl, rfl, rfl, rfl, rfl⟩
  exact forall₂_set hget (.claim copy token attempts hwaiting)

theorem finishJob_advance {job : OutboundJob} {position : Nat} {copy : DeliveryRecord}
    (hget : job.deliveries[position]? = some copy) (hactive : copy.state = .active) (now : UInt64)
    (outcome : DeliveryOutcome)
    : Advance job (finishJob job position copy now outcome) := by
  refine ⟨?_, rfl, rfl, rfl, rfl, rfl, rfl, rfl⟩
  exact forall₂_set hget (.finish copy outcome hactive)

theorem recoverJob_advance (job : OutboundJob) (now retryAt : UInt64) (result : String)
    : Advance job (recoverJob now retryAt result job) := by
  refine ⟨?_, rfl, rfl, rfl, rfl, rfl, rfl, rfl⟩
  apply forall₂_map
  intro copy _
  exact .recover copy retryAt result

theorem aggregateState_singleton (copy : DeliveryRecord) : aggregateState [copy] = copy.state := by
  cases h : copy.state <;> simp [aggregateState, h]

/--
What a control update leaves to `control`: a job whose copies have taken a step and whose other
fields are untouched.
-/
structure Updates (update : OutboundJob → OutboundJob × ControlOutcome) : Prop where
  copies : ∀ job, JobInv job →
    List.Forall₂ CopyStep job.deliveries (update job).1.deliveries
  rest : ∀ job, (update job).1 = { job with deliveries := (update job).1.deliveries }

theorem cancelUpdate_updates : Updates cancelUpdate := by
  constructor
  . intro job _
    unfold cancelUpdate
    have hmap : List.Forall₂ CopyStep job.deliveries (job.deliveries.map cancelCopy) :=
      forall₂_map (fun copy _ => .cancel copy)
    split
    . exact forall₂_keep _
    . split
      . exact forall₂_keep _
      . dsimp only
        split <;> exact hmap
  . intro job
    unfold cancelUpdate
    split
    . rfl
    . split
      . rfl
      . dsimp only
        split <;> rfl

theorem retryUpdate_updates : Updates retryUpdate := by
  constructor
  . intro job _
    have hmap : List.Forall₂ CopyStep job.deliveries (job.deliveries.map retryCopy) :=
      forall₂_map (fun copy _ => .retry copy)
    unfold retryUpdate
    dsimp only
    split <;> exact hmap
  . intro job
    unfold retryUpdate
    dsimp only
    split <;> rfl

theorem rerouteUpdate_updates (delivery : NewDelivery) : Updates (rerouteUpdate delivery) := by
  constructor
  . intro job hinv
    unfold rerouteUpdate
    split
    . next copy heq =>
      have hstate := hinv.aggregate
      rw [heq, aggregateState_singleton] at hstate
      split
      . exact forall₂_keep _
      . next hpermitted =>
        split
        . exact forall₂_keep _
        . next hbusy =>
          simp only [not_or] at hpermitted
          rw [hstate] at hpermitted hbusy
          dsimp only
          rw [heq]
          exact .cons (.reroute copy delivery hbusy hpermitted.2.1 hpermitted.2.2) .nil
    . exact forall₂_keep _
  . intro job
    unfold rerouteUpdate
    split
    . split
      . rfl
      . split <;> rfl
    . rfl

def controlled (job : OutboundJob) (now : UInt64) (result : String) : OutboundJob :=
  { job with state := aggregateState job.deliveries, changed := now, lastResult := result }

theorem controlled_advance {update : OutboundJob → OutboundJob × ControlOutcome}
    (hupdate : Updates update) {job : OutboundJob} (hinv : JobInv job) (now : UInt64)
    (result : String)
    : Advance job (controlled (update job).1 now result) := by
  have hrest := hupdate.rest job
  refine ⟨hupdate.copies job hinv, rfl, ?_, ?_, ?_, ?_, ?_, ?_⟩
  all_goals
    unfold controlled
    dsimp only
    rw [hrest]

theorem makeJob_inv (jobId : String) (value : NewOutboundJob) : JobInv (makeJob jobId value) := by
  refine ⟨?_, ?_, ?_, ?_⟩
  . unfold makeJob
    dsimp only
    split
    . next h =>
      rw [h]
      rfl
    . rfl
  . intro copy hmem
    simp only [makeJob, List.mem_map] at hmem
    obtain ⟨⟨new, index⟩, _, rfl⟩ := hmem
    exact makeCopy_inv new index
  . intro position copy hget
    simp only [makeJob, List.getElem?_map, List.getElem?_zipIdx, Option.map_map,
      Option.map_eq_some_iff] at hget
    obtain ⟨new, _, rfl⟩ := hget
    simp [makeCopy]
  . simpa [makeJob] using value.deliveries_lt

end Tith
