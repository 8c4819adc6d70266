import Tith.Deliver.Pass
import Tith.Wire.Lemmas.Build
import Tith.Wire.Lemmas.Tlv

/-!
This module contains what the values that a peer returns over a connection do to the spool: a relay brings in a
job of its own, and no other job changes.
-/

namespace Tith

/--
The jobs there were stay as they are, and no new one brings a FileRequest.
-/
structure Grows (s s' : Store) : Prop where
  keeps : ∀ (id : String) job, s.jobs[id]? = some job → s'.jobs[id]? = some job ∧ s'.items[id]? = s.items[id]?
  fresh : ∀ (id : String) job item, s.jobs[id]? = none → s'.jobs[id]? = some job → s'.items[id]? = some item →
    isFileRequest item = false

namespace Grows

variable {s t u : Store}

theorem of_eq (hjobs : t.jobs = s.jobs) (hitems : t.items = s.items) : Grows s t where
  keeps id job hjob := ⟨hjobs ▸ hjob, hitems ▸ rfl⟩
  fresh id job item hnone hjob := by
    rw [hjobs, hnone] at hjob
    cases hjob

theorem refl (s : Store) : Grows s s := of_eq rfl rfl

theorem trans (h : Grows s t) (h' : Grows t u) : Grows s u where
  keeps id job hjob := by
    obtain ⟨hkept, hitem⟩ := h.keeps id job hjob
    obtain ⟨hkept', hitem'⟩ := h'.keeps id job hkept
    exact ⟨hkept', hitem'.trans hitem⟩
  fresh id job item hnone hjob hitem := by
    cases hbetween : t.jobs[id]? with
    | none => exact h'.fresh id job item hbetween hjob hitem
    | some job' =>
      rw [(h'.keeps id job' hbetween).2] at hitem
      exact h.fresh id job' item hnone hbetween hitem

theorem insert {jobId : String} {job : OutboundJob} {item : List UInt8} (hfree : s.jobs[jobId]? = none)
    (hitem : isFileRequest item = false) (hjobs : t.jobs = s.jobs.insert jobId job)
    (hitems : t.items = s.items.insert jobId item)
    : Grows s t where
  keeps id old hold := by
    have hne : jobId ≠ id := by
      rintro rfl
      rw [hfree] at hold
      cases hold
    rw [hjobs, hitems, Table.getElem?_insert_ne _ hne, Table.getElem?_insert_ne _ hne]
    exact ⟨hold, rfl⟩
  fresh id new found hnone hnew hfound := by
    rw [hjobs] at hnew
    obtain ⟨rfl, _⟩ | ⟨_, hold⟩ := Table.getElem?_insert_some hnew
    . rw [hitems, Table.getElem?_insert, if_pos rfl] at hfound
      injection hfound with hfound
      rw [← hfound]
      exact hitem
    . rw [hnone] at hold
      cases hold

end Grows

theorem isFileRequest_encode {value : OwnedTlv} (hdefined : value.typeCode ≠ 0)
    : isFileRequest value.encode = decide (value.typeCode = Types.fileRequest) := by
  have hparse : parseSequence value.encode = .ok [value] :=
    (parseSequence_eq_ok _ _).mpr ⟨by simp [concatenate], by simpa using hdefined⟩
  simp [isFileRequest, singleValue, hparse, Except.mapError, Except.toOption]

theorem forwardItem_type {item forwarded : OwnedTlv} {identity : Identity} {requestIdentifier timestamp : UInt64}
    {software : String} {seen : List Address}
    (h : forwardItem item identity requestIdentifier timestamp software seen = .ok forwarded)
    : forwarded.typeCode = Types.message ∨ forwarded.typeCode = Types.file := by
  unfold forwardItem at h
  split at h
  . cases h
  . next htype =>
    simp only [Except.bind_ok_iff] at h
    obtain ⟨children, _, signature, _, request, _, via, _, h⟩ := h
    have hkept : forwarded.typeCode = item.typeCode := by
      split at h
      all_goals
        rw [Except.bind_ok_iff] at h
        obtain ⟨_, _, hassigned⟩ := h
        exact (assigned_ok hassigned).1
    rw [hkept]
    rcases not_and_or.mp htype with hmessage | hfile
    . exact .inl (not_not.mp hmessage)
    . exact .inr (not_not.mp hfile)

section Returned

variable {c : Crypto} {base64 : Nodelist.Base64} {s : Store}

theorem prepareRelay_item {acceptance : Accept.Acceptance} {item : ValidatedItem} {peer : Identity}
    {requestIdentifier viaTime created : UInt64} {prepared : Accept.PreparedRelay}
    (h : Accept.prepareRelay c base64 acceptance item peer requestIdentifier viaTime created = .ok prepared)
    : isFileRequest prepared.job.item = false := by
  simp only [Accept.prepareRelay, Except.bind_ok_iff, Except.mapError_eq_ok] at h
  obtain ⟨_, _, _, _, _, _, _, _, _, _, _, _, relayed, hrelayed, _, _, heq⟩ := h
  cases heq
  unfold Accept.relayJob
  rcases forwardItem_type hrelayed with htype | htype
  . rw [isFileRequest_encode (by rw [htype]; decide), htype]
    rfl
  . rw [isFileRequest_encode (by rw [htype]; decide), htype]
    rfl

theorem commitBatch_grows {identity : SubmissionIdentity} {job : NewOutboundJob} {rng : Rng} {result : BatchCommit}
    {s' : Store} (hinv : BatchInv s) (hitem : isFileRequest job.item = false)
    (h : commitBatch [identity] (Accept.relayBuilder job) rng s = .ok (result, s'))
    : BatchInv s' ∧ Grows s s' := by
  have hstep : (step Sample.crypto s (.commitBatch [identity] (Accept.relayBuilder job) rng)).2 = s' := by
    simp only [step, h, transact]
  refine ⟨hstep ▸ (step_batchInv Sample.crypto hinv _).1, ?_⟩
  obtain ⟨_, _, _, _, _, rfl⟩ | ⟨_, _, _, _, rfl⟩ | ⟨_, _, _, _, hfree, _, hjobs, hitems, _⟩ :=
    Accept.commitBatch_single hinv h
  . exact .refl _
  . exact .refl _
  . exact .insert hfree hitem hjobs hitems

theorem accept_grows {value : NewInbound} {duplicateIdentity : Option SignedItemIdentity} {rng rng' : Rng}
    {result : AcceptResult} {s' : Store} (hinv : BatchInv s)
    (h : accept c value duplicateIdentity rng s = .ok (result, rng', s'))
    : BatchInv s' ∧ Grows s s' := by
  have hstep : (step c s (.accept value duplicateIdentity rng)).2 = s' := by
    simp only [step, h]
  refine ⟨hstep ▸ (step_batchInv c hinv _).1, ?_⟩
  obtain ⟨_, _, _, _, ⟨_, _, _, _, rfl⟩ | ⟨_, _, _, _, rfl⟩⟩ := accept_cases h
  . exact .refl _
  . exact .of_eq rfl rfl

variable (base64) in
theorem dispatch_grows (hinv : BatchInv s) (arrival : Accept.Arrival c)
    : BatchInv (arrival.dispatch base64 s).2 ∧ Grows s (arrival.dispatch base64 s).2 := by
  unfold Accept.Arrival.dispatch Accept.dispatch
  split
  . unfold Accept.relay
    split
    . exact ⟨hinv, .refl s⟩
    . split
      . exact ⟨hinv, .refl s⟩
      . next hprepared =>
        split
        . exact ⟨hinv, .refl s⟩
        . next hcommit => exact commitBatch_grows hinv (prepareRelay_item hprepared) hcommit
        . next hcommit => exact commitBatch_grows hinv (prepareRelay_item hprepared) hcommit
  . unfold Accept.store
    split
    . exact ⟨hinv, .refl s⟩
    . exact ⟨hinv, .refl s⟩
    . exact ⟨hinv, .refl s⟩
    . dsimp only
      split
      . exact ⟨hinv, .refl s⟩
      . next haccept => exact accept_grows hinv haccept

variable (base64) in
theorem dispatchReturned_grows (hinv : BatchInv s) (returned : List (Accept.Arrival c))
    : BatchInv (dispatchReturned c base64 returned s) ∧ Grows s (dispatchReturned c base64 returned s) := by
  induction returned generalizing s with
  | nil => exact ⟨hinv, .refl s⟩
  | cons arrival returned ih =>
    have hfirst := dispatch_grows base64 hinv arrival
    rw [dispatchReturned]
    split
    . next hdispatch =>
      rw [hdispatch] at hfirst
      exact hfirst
    . next hdispatch =>
      rw [hdispatch] at hfirst
      obtain ⟨hrest, hgrows⟩ := ih hfirst.1
      exact ⟨hrest, hfirst.2.trans hgrows⟩

end Returned

end Tith
