import Tith.Store.Delivery

/-!
This module contains the life of one delivery copy. `CopyStep` lists everything that any operation
can do to a copy, the coupling of its state with its optional fields and the finality of delivered
and cancelled copies are then proved once.
-/

namespace Tith

/--
The optional fields of a copy are set in exactly the states they belong to.
-/
structure CopyInv (copy : DeliveryRecord) : Prop where
  active : copy.state = .active ↔ copy.workerToken.isSome
  deferred : copy.state = .deferred ↔ copy.retryAt.isSome
  rejected : copy.state = .rejected ↔ copy.lastFailure.isSome

inductive CopyStep : DeliveryRecord → DeliveryRecord → Prop where
  | keep (copy) : CopyStep copy copy
  | claim (copy) (token : String) (attempts : UInt64) (h : copy.isWaiting) :
      CopyStep copy (claimCopy copy token attempts)
  | finish (copy) (outcome : DeliveryOutcome) (h : copy.state = .active) :
      CopyStep copy (finishCopy copy outcome)
  | cancel (copy) : CopyStep copy (cancelCopy copy)
  | retry (copy) : CopyStep copy (retryCopy copy)
  | reroute (copy) (delivery : NewDelivery) (hactive : copy.state ≠ .active)
      (hdelivered : copy.state ≠ .delivered) (hcancelled : copy.state ≠ .cancelled) :
      CopyStep copy (rerouteCopy delivery copy)
  | recover (copy) (retryAt : UInt64) (result : String) :
      CopyStep copy (recoverCopy retryAt result copy)

def JobState.isFinal (state : JobState) : Prop := state = .delivered ∨ state = .cancelled

namespace CopyStep

theorem inv {copy copy' : DeliveryRecord} (h : CopyStep copy copy') (hinv : CopyInv copy)
    : CopyInv copy' := by
  obtain ⟨hactive, hdeferred, hrejected⟩ := hinv
  cases h with
  | keep => exact ⟨hactive, hdeferred, hrejected⟩
  | claim token attempts h =>
    simp only [DeliveryRecord.isWaiting, decide_eq_true_eq] at h
    have hne : copy.state ≠ .rejected := by
      intro heq
      simp [heq] at h
    refine ⟨by simp [claimCopy], by simp [claimCopy], ?_⟩
    rw [← not_iff_not] at hrejected
    simpa [claimCopy] using hrejected.mp hne
  | finish outcome h =>
    cases outcome with
    | _ => constructor <;> simp [finishCopy]
  | cancel =>
    unfold cancelCopy
    split
    . next hstate =>
      have hne : copy.state ≠ .active := by
        intro heq
        simp [heq] at hstate
      rw [← not_iff_not] at hactive
      refine ⟨?_, by simp, by simp⟩
      simpa using hactive.mp hne
    . exact ⟨hactive, hdeferred, hrejected⟩
  | retry =>
    unfold retryCopy
    split
    . next hstate =>
      have hne : copy.state ≠ .active := by
        intro heq
        simp [heq] at hstate
      rw [← not_iff_not] at hactive
      refine ⟨?_, by simp, by simp⟩
      simpa using hactive.mp hne
    . exact ⟨hactive, hdeferred, hrejected⟩
  | reroute delivery hne =>
    rw [← not_iff_not] at hactive
    refine ⟨?_, by simp [rerouteCopy], by simp [rerouteCopy]⟩
    simpa [rerouteCopy] using hactive.mp hne
  | recover retryAt result =>
    unfold recoverCopy
    split
    . next hstate =>
      have hne : copy.state ≠ .rejected := by simp [hstate]
      rw [← not_iff_not] at hrejected
      refine ⟨by simp, by simp, ?_⟩
      simpa using hrejected.mp hne
    . exact ⟨hactive, hdeferred, hrejected⟩

theorem final {copy copy' : DeliveryRecord} (h : CopyStep copy copy') (hfinal : copy.state.isFinal)
    : copy'.state = copy.state := by
  unfold JobState.isFinal at hfinal
  cases h with
  | keep => rfl
  | claim token attempts h =>
    simp only [DeliveryRecord.isWaiting, decide_eq_true_eq] at h
    rcases h with h | h <;> simp [h] at hfinal
  | finish outcome h => simp [h] at hfinal
  | cancel =>
    unfold cancelCopy
    split
    . next hstate => rcases hfinal with h | h <;> simp [h] at hstate
    . rfl
  | retry =>
    unfold retryCopy
    split
    . next hstate => rcases hfinal with h | h <;> simp [h] at hstate
    . rfl
  | reroute delivery hactive hdelivered hcancelled => simp [hdelivered, hcancelled] at hfinal
  | recover retryAt result =>
    unfold recoverCopy
    split
    . next hstate => simp [hstate] at hfinal
    . rfl

@[simp]
theorem finishCopy_index (copy : DeliveryRecord) (outcome : DeliveryOutcome)
    : (finishCopy copy outcome).index = copy.index := by
  cases outcome <;> rfl

theorem index {copy copy' : DeliveryRecord} (h : CopyStep copy copy') : copy'.index = copy.index := by
  cases h with
  | keep => rfl
  | claim token attempts h => rfl
  | finish outcome h => rw [finishCopy_index]
  | cancel =>
    unfold cancelCopy
    split <;> rfl
  | retry =>
    unfold retryCopy
    split <;> rfl
  | reroute => rfl
  | recover retryAt result =>
    unfold recoverCopy
    split <;> rfl

end CopyStep

theorem makeCopy_inv (copy : NewDelivery) (index : Nat) : CopyInv (makeCopy copy index) := by
  cases h : copy.retryAt with
  | none => constructor <;> simp [makeCopy, h]
  | some retryAt => constructor <;> simp [makeCopy, h]

end Tith
