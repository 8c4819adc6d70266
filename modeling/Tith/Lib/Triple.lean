import Mathlib

/-!
This module contains what a Hoare triple says about a computation that keeps its state when it fails.
-/

namespace Std.Do.Triple

variable {σ ε α : Type} {x : ExceptT ε (StateM σ) α} {pre : σ → Prop} {post : α → σ → Prop}
  {failed : ε → σ → Prop}

/--
The postcondition that belongs to a result.
-/
def Holds (post : α → σ → Prop) (failed : ε → σ → Prop) (result : Except ε α) (s : σ) : Prop :=
  match result with
  | .ok a => post a s
  | .error e => failed e s

theorem run_iff
    : ⦃fun s => ⌜pre s⌝⦄ x ⦃post⟨fun a s => ⌜post a s⌝, fun e s => ⌜failed e s⌝⟩⦄ ↔
        ∀ s, pre s → Holds post failed (x.run.run s).1 (x.run.run s).2 := by
  rw [Triple.iff]
  apply forall_congr'
  intro s
  apply imp_congr Iff.rfl
  simp only [WP.wp, PredTrans.apply_pushExcept, PredTrans.apply_pushArg, PredTrans.apply_Pure_pure]
  rcases x.run.run s with ⟨result, s'⟩
  cases result with
  | ok a => exact Iff.rfl
  | error e => exact Iff.rfl

theorem lift_run
    (h : ⦃fun s => ⌜pre s⌝⦄ x ⦃post⟨fun a s => ⌜post a s⌝, fun e s => ⌜failed e s⌝⟩⦄)
    : ⦃fun s => ⌜pre s⌝⦄ (ExceptT.lift x.run : ExceptT ε (StateM σ) (Except ε α))
      ⦃post⟨fun result s => ⌜Holds post failed result s⌝, fun _ _ => ⌜False⌝⟩⦄ := by
  rw [run_iff] at h ⊢
  intro s hpre
  exact h s hpre

theorem run_get_bind (f : σ → ExceptT ε (StateM σ) α) (s : σ)
    : (get >>= f : ExceptT ε (StateM σ) α).run.run s = (f s).run.run s := rfl

end Std.Do.Triple
