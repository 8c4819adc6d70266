import Mathlib.Logic.Basic

/-!
This module contains chains: lists of transitions in which each one starts where the one before it
has ended.
-/

/--
The transitions lead from `a` to `b`, one behind the other.
-/
def List.Leads (source target : τ → σ) (a : σ) (l : List τ) (b : σ) : Prop :=
  match l with
  | [] => a = b
  | t :: l => source t = a ∧ l.Leads source target (target t) b

namespace List.Leads

variable {source target : τ → σ}

theorem append_singleton {a b : σ} {l : List τ} (h : l.Leads source target a b) {t : τ}
    (ht : source t = b)
    : (l ++ [t]).Leads source target a (target t) := by
  induction l generalizing a with
  | nil =>
    have hab : a = b := h
    exact ⟨ht.trans hab.symm, rfl⟩
  | cons first l ih => exact ⟨h.1, ih h.2⟩

end List.Leads
