import Mathlib.Data.List.Forall2

/-!
This module contains the small vocabulary for fallible computations: turning an `Option` into an
`Except`, taking a successful bind apart and putting it together again.
-/

def Option.okOr (o : Option α) (e : ε) : Except ε α :=
  match o with
  | some a => .ok a
  | none => .error e

@[simp]
theorem Option.okOr_some (a : α) (e : ε) : (some a).okOr e = .ok a := rfl

@[simp]
theorem Option.okOr_none (e : ε) : (none : Option α).okOr e = .error e := rfl

@[simp]
theorem Option.okOr_eq_ok {o : Option α} {e : ε} {a : α} : o.okOr e = .ok a ↔ o = some a := by
  cases o with
  | none => simp
  | some b => simp

theorem Option.okOr_eq_error {o : Option α} {e e' : ε} : o.okOr e = .error e' ↔ o = none ∧ e = e' := by
  cases o with
  | none => simp
  | some a => simp

namespace Except

@[simp]
theorem bind_of_ok (f : α → Except ε β) (a : α) : (Except.ok a >>= f) = f a := rfl

@[simp]
theorem bind_of_error (f : α → Except ε β) (e : ε) : (Except.error e >>= f) = .error e := rfl

@[simp]
theorem bind_ok_iff {x : Except ε α} {f : α → Except ε β} {b : β}
    : (x >>= f) = .ok b ↔ ∃ a, x = .ok a ∧ f a = .ok b := by
  constructor
  . intro h
    match x with
    | .ok a => exact ⟨a, rfl, h⟩
  . rintro ⟨a, rfl, h⟩
    exact h

theorem bind_error_iff {x : Except ε α} {f : α → Except ε β} {e : ε}
    : (x >>= f) = .error e ↔ x = .error e ∨ ∃ a, x = .ok a ∧ f a = .error e := by
  cases x with
  | error e' => simp
  | ok a => simp

theorem check_bind_ok {x : Except ε PUnit} {f : PUnit → Except ε β} {b : β}
    : (x >>= f) = .ok b ↔ x = .ok ⟨⟩ ∧ f ⟨⟩ = .ok b := by
  rw [bind_ok_iff]
  constructor
  . rintro ⟨_, hx, hf⟩
    exact ⟨hx, hf⟩
  . rintro ⟨hx, hf⟩
    exact ⟨⟨⟩, hx, hf⟩

@[simp]
theorem pure_eq_ok (a : α) : (pure a : Except ε α) = .ok a := rfl

@[simp]
theorem throw_eq_error (e : ε) : (throw e : Except ε α) = .error e := rfl

theorem mapError_eq_ok {x : Except ε α} {f : ε → ε'} {a : α} : x.mapError f = .ok a ↔ x = .ok a := by
  cases x with
  | error e => simp [Except.mapError]
  | ok b => simp [Except.mapError]

theorem mapError_eq_error {x : Except ε α} {f : ε → ε'} {e : ε'}
    : x.mapError f = .error e ↔ ∃ e₀, x = .error e₀ ∧ f e₀ = e := by
  cases x with
  | ok a => simp [Except.mapError]
  | error e₀ => simp [Except.mapError]

theorem map_eq_ok {x : Except ε α} {f : α → β} {b : β} : x.map f = .ok b ↔ ∃ a, x = .ok a ∧ f a = b := by
  cases x with
  | ok a => simp [Except.map]
  | error e => simp [Except.map]

theorem map_eq_error {x : Except ε α} {f : α → β} {e : ε} : x.map f = .error e ↔ x = .error e := by
  cases x with
  | ok a => simp [Except.map]
  | error e' => simp [Except.map]

theorem isOk_of_mapError_eq_error {x : Except ε α} {f : ε → ε'} {e : ε'} (h : x.mapError f = .error e)
    : x.isOk = false := by
  cases x with
  | error => rfl
  | ok => cases h

theorem foldlM_invariant {P : β → Prop} {f : β → α → Except ε β} {l : List α} {b b' : β}
    (hturn : ∀ a ∈ l, ∀ b b', P b → f b a = .ok b' → P b') (hb : P b) (h : l.foldlM f b = .ok b')
    : P b' := by
  induction l generalizing b with
  | nil =>
    simp only [List.foldlM_nil, pure_eq_ok, Except.ok.injEq] at h
    exact h ▸ hb
  | cons a l ih =>
    simp only [List.foldlM_cons, bind_ok_iff] at h
    obtain ⟨b₁, hfirst, hrest⟩ := h
    apply ih _ _ hrest
    . intro a' ha'
      exact hturn a' (by simp [ha'])
    . exact hturn a (by simp) b b₁ hb hfirst

theorem foldlM_error {f : β → α → Except ε β} {l : List α} {b : β} {e : ε} (h : l.foldlM f b = .error e)
    : ∃ l₁ a l₂ b', l = l₁ ++ a :: l₂ ∧ l₁.foldlM f b = .ok b' ∧ f b' a = .error e := by
  induction l generalizing b with
  | nil => cases h
  | cons a l ih =>
    rw [List.foldlM_cons] at h
    cases hfirst : f b a with
    | error e' =>
      rw [hfirst] at h
      cases h
      exact ⟨[], a, l, b, rfl, rfl, hfirst⟩
    | ok b₁ =>
      rw [hfirst] at h
      obtain ⟨l₁, a', l₂, b', rfl, hrest, hturn⟩ := ih h
      refine ⟨a :: l₁, a', l₂, b', rfl, ?_, hturn⟩
      rw [List.foldlM_cons, hfirst]
      exact hrest

theorem forM_eq_ok {f : α → Except ε PUnit} {l : List α} : l.forM f = .ok ⟨⟩ ↔ ∀ a ∈ l, f a = .ok ⟨⟩ := by
  induction l with
  | nil => exact ⟨fun _ => nofun, fun _ => rfl⟩
  | cons a l ih =>
    change (f a >>= fun _ => l.forM f) = .ok ⟨⟩ ↔ _
    rw [bind_ok_iff, List.forall_mem_cons]
    constructor
    . rintro ⟨_, hfirst, hrest⟩
      exact ⟨hfirst, ih.mp hrest⟩
    . rintro ⟨hfirst, hrest⟩
      exact ⟨⟨⟩, hfirst, ih.mpr hrest⟩

theorem forM_error {f : α → Except ε PUnit} {l : List α} {e : ε} (h : l.forM f = .error e)
    : ∃ a ∈ l, f a = .error e := by
  induction l with
  | nil => cases h
  | cons a l ih =>
    change (f a >>= fun _ => l.forM f) = .error e at h
    cases hfirst : f a with
    | error e' =>
      rw [hfirst] at h
      cases h
      exact ⟨a, by simp, hfirst⟩
    | ok u =>
      rw [hfirst] at h
      obtain ⟨b, hb, hturn⟩ := ih h
      exact ⟨b, by simp [hb], hturn⟩

theorem mapM_forall₂ {f : α → Except ε β} {l : List α} {l' : List β} (h : l.mapM f = .ok l')
    : List.Forall₂ (fun a b => f a = .ok b) l l' := by
  induction l generalizing l' with
  | nil =>
    simp only [List.mapM_nil, pure_eq_ok, Except.ok.injEq] at h
    rw [← h]
    exact .nil
  | cons a l ih =>
    simp only [List.mapM_cons, bind_ok_iff, pure_eq_ok, Except.ok.injEq] at h
    obtain ⟨b, hfirst, rest, hrest, rfl⟩ := h
    exact .cons hfirst (ih hrest)

theorem mapM_id_eq_ok {l : List (Except ε α)} {l' : List α} (h : l.mapM id = .ok l') : l = l'.map .ok := by
  have hall := mapM_forall₂ h
  clear h
  induction hall with
  | nil => rfl
  | cons hfirst _ ih =>
    rw [List.map_cons, ← ih]
    exact congrArg (· :: _) hfirst

theorem mapM_of_forall₂ {f : α → Except ε β} {l : List α} {l' : List β}
    (h : List.Forall₂ (fun a b => f a = .ok b) l l')
    : l.mapM f = .ok l' := by
  induction h with
  | nil => rfl
  | cons hfirst _ ih =>
    rw [List.mapM_cons, hfirst, bind_of_ok, ih, bind_of_ok]
    rfl

theorem mapM_mem {f : α → Except ε β} {l : List α} {l' : List β} (h : l.mapM f = .ok l') {b : β}
    (hb : b ∈ l')
    : ∃ a ∈ l, f a = .ok b := by
  have hall := mapM_forall₂ h
  clear h
  induction hall with
  | nil => cases hb
  | cons hfirst _ ih =>
    rcases List.mem_cons.mp hb with rfl | hb
    . exact ⟨_, by simp, hfirst⟩
    . obtain ⟨a, ha, hrest⟩ := ih hb
      exact ⟨a, by simp [ha], hrest⟩

theorem mapM_of_mem {f : α → Except ε β} {l : List α} {l' : List β} (h : l.mapM f = .ok l') {a : α}
    (ha : a ∈ l)
    : ∃ b, f a = .ok b := by
  have hall := mapM_forall₂ h
  clear h
  induction hall with
  | nil => cases ha
  | cons hfirst _ ih =>
    rcases List.mem_cons.mp ha with rfl | ha
    . exact ⟨_, hfirst⟩
    . exact ih ha

theorem mapM_inverse {f : α → Except ε β} {g : β → Except ε' α} (hinverse : ∀ a b, f a = .ok b → g b = .ok a)
    {l : List α} {l' : List β} (h : l.mapM f = .ok l')
    : l'.mapM g = .ok l := by
  have hall := mapM_forall₂ h
  clear h
  induction hall with
  | nil => rfl
  | cons hfirst _ ih =>
    simp only [List.mapM_cons, hinverse _ _ hfirst, ih, bind_of_ok]
    rfl

theorem mapM_error {f : α → Except ε β} {l : List α} {e : ε} (h : l.mapM f = .error e)
    : ∃ a ∈ l, f a = .error e := by
  induction l with
  | nil => cases h
  | cons a l ih =>
    rw [List.mapM_cons, bind_error_iff] at h
    rcases h with h | ⟨b, -, h⟩
    . exact ⟨a, by simp, h⟩
    . rw [bind_error_iff] at h
      rcases h with h | ⟨rest, -, h⟩
      . obtain ⟨a', hmem, ha'⟩ := ih h
        exact ⟨a', by simp [hmem], ha'⟩
      . cases h

theorem mapM_isOk {f : α → Except ε β} {l : List α} (h : ∀ a ∈ l, ∃ b, f a = .ok b)
    : ∃ l', l.mapM f = .ok l' := by
  induction l with
  | nil => exact ⟨[], rfl⟩
  | cons a l ih =>
    obtain ⟨b, hfirst⟩ := h a (by simp)
    obtain ⟨rest, hrest⟩ := ih (fun a' hmem => h a' (by simp [hmem]))
    exact ⟨b :: rest, by simp [List.mapM_cons, hfirst, hrest]⟩

theorem mapM_valid_iff {f : α → Except ε β} {g : α → Except ε γ} {valid : γ → Prop}
    (h : ∀ a, (∃ b, f a = .ok b) ↔ ∃ c, g a = .ok c ∧ valid c) {l : List α}
    : (∃ l', l.mapM f = .ok l') ↔ ∃ l', l.mapM g = .ok l' ∧ ∀ c ∈ l', valid c := by
  induction l with
  | nil => simp
  | cons a l ih =>
    simp only [List.mapM_cons, bind_ok_iff, pure_eq_ok, Except.ok.injEq]
    constructor
    . rintro ⟨_, b, hb, rest, hrest, rfl⟩
      obtain ⟨c, hc, hvalid⟩ := (h a).mp ⟨b, hb⟩
      obtain ⟨l', hl', hall⟩ := ih.mp ⟨rest, hrest⟩
      exact ⟨c :: l', ⟨c, hc, l', hl', rfl⟩, by simpa using ⟨hvalid, hall⟩⟩
    . rintro ⟨_, ⟨c, hc, l', hl', rfl⟩, hvalid⟩
      rw [List.forall_mem_cons] at hvalid
      obtain ⟨b, hb⟩ := (h a).mpr ⟨c, hc, hvalid.1⟩
      obtain ⟨rest, hrest⟩ := ih.mpr ⟨l', hl', hvalid.2⟩
      exact ⟨b :: rest, b, hb, rest, hrest, rfl⟩

theorem exists_of_isOk {x : Except ε α} (h : x.isOk = true) : ∃ a, x = .ok a := by
  cases x with
  | error e => cases h
  | ok a => exact ⟨a, rfl⟩

theorem exists_of_isSome {x : Except ε (Option α)} (h : x.toOption.join.isSome = true) : ∃ a, x = .ok (some a) := by
  match x with
  | .error e => cases h
  | .ok none => cases h
  | .ok (some a) => exact ⟨a, rfl⟩

theorem toOption_eq_some {x : Except ε α} {a : α} : x.toOption = some a ↔ x = .ok a := by
  cases x with
  | error e => simp [Except.toOption]
  | ok b => simp [Except.toOption]

end Except
