import Tith.Store.Lemmas.Writes

/-!
This module contains the invariant of the delivery copies over whole runs of the store.
-/

namespace Tith

/--
Every copy that is done in `s` is still there in `s'`, in the same state.
-/
def FinalKept (s s' : Store) : Prop :=
  ∀ (key : String) job (position : Nat) copy, s.jobs[key]? = some job →
    job.deliveries[position]? = some copy → copy.state.isFinal →
    ∃ job' copy', s'.jobs[key]? = some job' ∧ job'.deliveries[position]? = some copy' ∧
      copy'.state = copy.state

theorem FinalKept.refl (s : Store) : FinalKept s s := by
  intro key job position copy hjob hcopy _
  exact ⟨job, copy, hjob, hcopy, rfl⟩

theorem FinalKept.trans {s t u : Store} (h : FinalKept s t) (h' : FinalKept t u) : FinalKept s u := by
  intro key job position copy hjob hcopy hfinal
  obtain ⟨job₁, copy₁, hjob₁, hcopy₁, hstate₁⟩ := h key job position copy hjob hcopy hfinal
  obtain ⟨job₂, copy₂, hjob₂, hcopy₂, hstate₂⟩ :=
    h' key job₁ position copy₁ hjob₁ hcopy₁ (hstate₁ ▸ hfinal)
  exact ⟨job₂, copy₂, hjob₂, hcopy₂, hstate₂.trans hstate₁⟩

theorem step_finalKept (c : Crypto) {s : Store} (hinv : LedgerInv False s.ledger) (op : Op)
    : FinalKept s (step c s op).2 := by
  intro key job position copy hjob hcopy hfinal
  obtain ⟨job', hjob', rfl | hadvance⟩ := step_derived c hinv op key job hjob
  . exact ⟨job', copy, hjob', hcopy, rfl⟩
  . obtain ⟨copy', hcopy', hstate⟩ := hadvance.final hcopy hfinal
    exact ⟨job', copy', hjob', hcopy', hstate⟩

theorem run_finalKept (c : Crypto) {s : Store} (hinv : LedgerInv False s.ledger) (ops : List Op)
    : FinalKept s ((storeMachine c).run s ops) := by
  apply Machine.relates_along (m := storeMachine c) (fun _ _ => True)
    (fun (s : Store) => LedgerInv False s.ledger) FinalKept
  . exact FinalKept.refl
  . intro s t u
    exact FinalKept.trans
  . intro s op hinv _
    exact step_ledgerInv c hinv False.elim
  . intro s op hinv _
    exact step_finalKept c hinv op
  . exact hinv
  . apply Machine.along_true

theorem finishDelivery_stale (c : Crypto) (s : Store) (jobId : String) (index : UInt64)
    (token : String) (now : UInt64) (outcome : DeliveryOutcome)
    (hstale : ∀ job, s.jobs[jobId]? = some job → ∀ copy ∈ job.deliveries, copy.index = index →
      copy.workerToken ≠ some token)
    : ∃ e, step c s (.finishDelivery jobId index token now outcome) = (.error e, s) := by
  -- A worker whose token is not the one the copy carries now gets an error, and nothing is written.
  rcases transact_cases s (finishDelivery jobId index token now outcome s) Answer.finished with
    ⟨e, _, heq⟩ | ⟨state, s', hok, _⟩
  . exact ⟨e, heq⟩
  . obtain ⟨job, position, copy, _, hjob, hposition, hcopy, _, htoken, _⟩ :=
      finishDelivery_cases hok
    obtain ⟨hlt, hindex, _⟩ := List.findIdx?_eq_some_iff_getElem.mp hposition
    have hget : job.deliveries[position]? = some job.deliveries[position] :=
      List.getElem?_eq_getElem hlt
    rw [hcopy] at hget
    injection hget with heq
    rw [← heq] at hindex
    exact absurd htoken (hstale job hjob copy (List.mem_of_getElem? hcopy) (by simpa using hindex))

theorem run_delivery_invariant (c : Crypto) (ops : List Op)
    : let s := (storeMachine c).run .empty ops
      (∀ (key : String) job, s.jobs[key]? = some job →
        job.state = aggregateState job.deliveries ∧ ∀ copy ∈ job.deliveries, CopyInv copy) ∧
      (∀ later, FinalKept s ((storeMachine c).run s later)) ∧
      (∀ jobId index token now outcome,
        (∀ job, s.jobs[jobId]? = some job → ∀ copy ∈ job.deliveries, copy.index = index →
          copy.workerToken ≠ some token) →
        ∃ e, step c s (.finishDelivery jobId index token now outcome) = (.error e, s)) := by
  have hinv := run_ledgerInv c ops
  refine ⟨?_, ?_, ?_⟩
  . intro key job hjob
    obtain ⟨_, _, hjobInv⟩ := hinv.jobs key job hjob
    exact ⟨hjobInv.aggregate, hjobInv.copies⟩
  . intro later
    exact run_finalKept c hinv later
  . intro jobId index token now outcome hstale
    exact finishDelivery_stale c _ jobId index token now outcome hstale

end Tith
