import Mathlib

/-!
This module contains rules for computations that read from a state and may fail: what a successful run
returns, while the part of the state that `view` shows stays as it is.
-/

namespace StateExcept

variable {σ ε α β γ : Type}

structure Ensures (view : σ → γ) (m : StateT σ (Except ε) α) (post : γ → α → Prop) : Prop where
  run : ∀ s a s', m s = .ok (a, s') → view s' = view s ∧ post (view s) a

def Keeps (view : σ → γ) (m : StateT σ (Except ε) α) : Prop := Ensures view m (fun _ _ => True)

variable {view : σ → γ}

theorem Ensures.keeps {m : StateT σ (Except ε) α} {post : γ → α → Prop} (h : Ensures view m post)
    : Keeps view m := by
  constructor
  intro s a s' hrun
  exact ⟨(h.run s a s' hrun).1, trivial⟩

theorem ensures_bind {m : StateT σ (Except ε) α} {f : α → StateT σ (Except ε) β}
    {mid : γ → α → Prop} {post : γ → β → Prop} (hm : Ensures view m mid)
    (hf : ∀ a, Ensures view (f a) (fun g b => mid g a → post g b))
    : Ensures view (m >>= f) post := by
  constructor
  intro s b s' hrun
  simp only [bind, StateT.bind, Except.bind] at hrun
  split at hrun
  . cases hrun
  . next result hfirst =>
    obtain ⟨a, s₁⟩ := result
    obtain ⟨hview, hmid⟩ := hm.run s a s₁ hfirst
    obtain ⟨hview', hpost⟩ := (hf a).run s₁ b s' hrun
    rw [hview] at hview' hpost
    exact ⟨hview', hpost hmid⟩

theorem ensures_pure {a : α} {post : γ → α → Prop} (h : ∀ g, post g a)
    : Ensures view (pure a : StateT σ (Except ε) α) post := by
  constructor
  intro s a' s' hrun
  injection hrun with hrun
  injection hrun with ha hs
  subst ha
  subst hs
  exact ⟨rfl, h _⟩

theorem keeps_bind {m : StateT σ (Except ε) α} {f : α → StateT σ (Except ε) β} (hm : Keeps view m)
    (hf : ∀ a, Keeps view (f a))
    : Keeps view (m >>= f) := by
  apply ensures_bind hm
  intro a
  constructor
  intro s b s' hrun
  exact ⟨((hf a).run s b s' hrun).1, fun _ => trivial⟩

-- What comes before the last part does not matter to what the last part returns.
theorem ensures_of_keeps {m : StateT σ (Except ε) α} {f : α → StateT σ (Except ε) β}
    {post : γ → β → Prop} (hm : Keeps view m) (hf : ∀ a, Ensures view (f a) post)
    : Ensures view (m >>= f) post := by
  apply ensures_bind hm
  intro a
  constructor
  intro s b s' hrun
  obtain ⟨hview, hpost⟩ := (hf a).run s b s' hrun
  exact ⟨hview, fun _ => hpost⟩

theorem keeps_pure (a : α) : Keeps view (pure a : StateT σ (Except ε) α) := by
  apply ensures_pure
  intro g
  trivial

theorem ensures_throw (e : ε) (post : γ → α → Prop)
    : Ensures view (throw e : StateT σ (Except ε) α) post := by
  constructor
  intro s a s' hrun
  cases hrun

theorem keeps_throw (e : ε) : Keeps view (throw e : StateT σ (Except ε) α) := ensures_throw e _

theorem ensures_lift (x : Except ε α)
    : Ensures view (liftM x : StateT σ (Except ε) α) (fun _ a => x = .ok a) := by
  constructor
  intro s a s' hrun
  cases x with
  | error e => cases hrun
  | ok b =>
    injection hrun with hrun
    injection hrun with ha hs
    subst ha
    subst hs
    exact ⟨rfl, rfl⟩

theorem keeps_lift (x : Except ε α) : Keeps view (liftM x : StateT σ (Except ε) α) :=
  (ensures_lift x).keeps

theorem keeps_unit (m : StateT σ (Except ε) α) : Keeps (fun _ => ()) m := by
  constructor
  intro s a s' _
  exact ⟨rfl, trivial⟩

theorem keeps_forM {l : List β} {f : β → StateT σ (Except ε) PUnit} (hf : ∀ b, Keeps view (f b))
    : Keeps view (l.forM f) := by
  induction l with
  | nil => apply keeps_pure
  | cons b l ih =>
    apply keeps_bind (hf b)
    intro _
    apply ih

/--
Where a successful run leaves a state of the one kind, it was started in a state of the other.
-/
structure Backward (P : σ → Prop) (m : StateT σ (Except ε) α) (Q : σ → Prop) : Prop where
  run : ∀ s a s', m s = .ok (a, s') → Q s' → P s

section Backward
variable {P Q R : σ → Prop}

theorem backward_bind {m : StateT σ (Except ε) α} {f : α → StateT σ (Except ε) β} (hm : Backward P m Q)
    (hf : ∀ a, Backward Q (f a) R)
    : Backward P (m >>= f) R := by
  constructor
  intro s b s' hrun hR
  simp only [bind, StateT.bind, Except.bind] at hrun
  split at hrun
  . cases hrun
  . next result hfirst =>
    obtain ⟨a, s₁⟩ := result
    exact hm.run s a s₁ hfirst ((hf a).run s₁ b s' hrun hR)

theorem backward_pure {a : α} : Backward P (pure a : StateT σ (Except ε) α) P := by
  constructor
  intro s a' s' hrun hP
  injection hrun with hrun
  injection hrun with _ hs
  exact hs ▸ hP

end Backward

section Run

variable {s s' : σ} {a : α}

theorem bind_of_ok {m : StateT σ (Except ε) α} {f : α → StateT σ (Except ε) β} (h : m s = .ok (a, s'))
    : (m >>= f) s = f a s' := by
  simp only [bind, StateT.bind, h, Except.bind]

theorem lift_of_ok {m : Except ε α} (h : m = .ok a)
    : (liftM m : StateT σ (Except ε) α) s = .ok (a, s) := by
  rw [h]
  rfl

theorem pure_run : (pure a : StateT σ (Except ε) α) s = .ok (a, s) := rfl

@[simp]
theorem bind_run_iff {m : StateT σ (Except ε) α} {f : α → StateT σ (Except ε) β} {result : β × σ}
    : (m >>= f) s = .ok result ↔ ∃ a s₁, m s = .ok (a, s₁) ∧ f a s₁ = .ok result := by
  constructor
  . intro h
    simp only [bind, StateT.bind, Except.bind] at h
    split at h
    . cases h
    . next first hfirst => exact ⟨first.1, first.2, hfirst, h⟩
  . rintro ⟨a, s₁, hfirst, hrest⟩
    rw [bind_of_ok hfirst]
    exact hrest

@[simp]
theorem lift_run_iff {m : Except ε α} {result : α × σ}
    : (liftM m : StateT σ (Except ε) α) s = .ok result ↔ m = .ok result.1 ∧ s = result.2 := by
  obtain ⟨b, s₁⟩ := result
  cases m with
  | error e =>
    constructor
    . intro h
      cases h
    . rintro ⟨h, _⟩
      cases h
  | ok c =>
    rw [lift_of_ok rfl]
    simp

@[simp]
theorem pure_run_iff {result : α × σ}
    : (pure a : StateT σ (Except ε) α) s = .ok result ↔ a = result.1 ∧ s = result.2 := by
  obtain ⟨b, s₁⟩ := result
  rw [pure_run]
  simp

@[simp]
theorem throw_run_iff {e : ε} {result : α × σ}
    : (throw e : StateT σ (Except ε) α) s = .ok result ↔ False := by
  constructor
  . intro h
    cases h
  . intro h
    exact h.elim

@[simp]
theorem guard_run_iff {p : Prop} [Decidable p] {e : ε} {f : α → StateT σ (Except ε) β}
    {rest : StateT σ (Except ε) β} {result : β × σ}
    : (if p then throw e >>= f else rest) s = .ok result ↔ ¬p ∧ rest s = .ok result := by
  split
  . next hp => simp [hp]
  . next hp => simp [hp]

end Run

end StateExcept
