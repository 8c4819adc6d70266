import Mathlib.Logic.Basic

/-!
This module contains deterministic machines, the runs of a machine over a list of inputs and the
rules that carry a property of single steps over to whole runs.
-/

/--
A machine with states `σ`, inputs `ι` and outputs `ο`. Every input is answered, also in a state
where it fails: the failure is then part of the output.
-/
structure Machine (σ : Type u) (ι : Type v) (ο : Type w) where
  init : σ
  step : σ → ι → ο × σ

namespace Machine

variable (m : Machine σ ι ο)

/--
The state after a list of inputs.
-/
def run (s : σ) : List ι → σ
  | [] => s
  | i :: is => run (m.step s i).2 is

def outputs (s : σ) : List ι → List ο
  | [] => []
  | i :: is => (m.step s i).1 :: outputs (m.step s i).2 is

/--
Every step of the run over `is` from `s` satisfies `P`, which sees the state before the step.
-/
def Along (P : σ → ι → Prop) (s : σ) : List ι → Prop
  | [] => True
  | i :: is => P s i ∧ Along P (m.step s i).2 is

@[simp]
theorem run_nil (s : σ) : m.run s [] = s := rfl

@[simp]
theorem run_cons (s : σ) (i : ι) (is : List ι) : m.run s (i :: is) = m.run (m.step s i).2 is := rfl

@[simp]
theorem outputs_nil (s : σ) : m.outputs s [] = [] := rfl

@[simp]
theorem outputs_cons (s : σ) (i : ι) (is : List ι)
    : m.outputs s (i :: is) = (m.step s i).1 :: m.outputs (m.step s i).2 is := rfl

@[simp]
theorem along_nil (P : σ → ι → Prop) (s : σ) : m.Along P s [] ↔ True := Iff.rfl

@[simp]
theorem along_cons (P : σ → ι → Prop) (s : σ) (i : ι) (is : List ι)
    : m.Along P s (i :: is) ↔ P s i ∧ m.Along P (m.step s i).2 is := Iff.rfl

theorem run_append (s : σ) (is js : List ι) : m.run s (is ++ js) = m.run (m.run s is) js := by
  induction is generalizing s with
  | nil => rfl
  | cons i is ih =>
    simp only [List.cons_append, run_cons]
    rw [ih]

theorem along_append (P : σ → ι → Prop) (s : σ) (is js : List ι)
    : m.Along P s (is ++ js) ↔ m.Along P s is ∧ m.Along P (m.run s is) js := by
  induction is generalizing s with
  | nil => simp
  | cons i is ih => simp [ih, and_assoc]

theorem along_true (s : σ) (is : List ι) : m.Along (fun _ _ => True) s is := by
  induction is generalizing s with
  | nil => trivial
  | cons i is ih => exact ⟨trivial, ih _⟩

theorem along_of_forall {P : ι → Prop} {is : List ι} (h : ∀ i ∈ is, P i) (s : σ)
    : m.Along (fun _ i => P i) s is := by
  induction is generalizing s with
  | nil => trivial
  | cons i is ih => exact ⟨h i (by simp), ih (fun j hj => h j (by simp [hj])) _⟩

/--
What the steps of a run leave behind, each one seeing the state before it.
-/
def emitted (f : σ → ι → List τ) (s : σ) : List ι → List τ
  | [] => []
  | i :: is => f s i ++ emitted f (m.step s i).2 is

theorem emitted_append (f : σ → ι → List τ) (s : σ) (is js : List ι)
    : m.emitted f s (is ++ js) = m.emitted f s is ++ m.emitted f (m.run s is) js := by
  induction is generalizing s with
  | nil => rfl
  | cons i is ih =>
    simp only [List.cons_append, emitted, run_cons]
    rw [ih, List.append_assoc]

theorem exists_step {P : σ → Prop} {s : σ} {is : List ι} (hstart : ¬P s) (hend : P (m.run s is))
    : ∃ before i after, is = before ++ i :: after ∧ ¬P (m.run s before) ∧
        P (m.step (m.run s before) i).2 := by
  -- What holds at the end of a run and not at its beginning has come about in one of the steps.
  induction is generalizing s with
  | nil => exact absurd hend hstart
  | cons i is ih =>
    by_cases h : P (m.step s i).2
    . exact ⟨[], i, is, rfl, hstart, h⟩
    . obtain ⟨before, j, after, rfl, hbefore, hafter⟩ := ih h hend
      exact ⟨i :: before, j, after, rfl, hbefore, hafter⟩

variable {m}

theorem history (P : List ι → σ → Prop) (hstep : ∀ past s i, P past s → P (past ++ [i]) (m.step s i).2)
    {s : σ} (hs : P [] s) (is : List ι)
    : P is (m.run s is) := by
  suffices h : ∀ past s, P past s → P (past ++ is) (m.run s is) from h [] s hs
  intro past s hpast
  induction is generalizing past s with
  | nil => simpa using hpast
  | cons i is ih =>
    have := ih (past ++ [i]) _ (hstep past s i hpast)
    simpa using this

theorem emitted_along (f : σ → ι → List τ) (guard : σ → ι → Prop) (P : List τ → σ → Prop)
    (hstep : ∀ past s i, P past s → guard s i → P (past ++ f s i) (m.step s i).2) {s : σ} (hs : P [] s) {is : List ι}
    (his : m.Along guard s is)
    : P (m.emitted f s is) (m.run s is) := by
  suffices h : ∀ past s, P past s → m.Along guard s is → P (past ++ m.emitted f s is) (m.run s is) from
    h [] s hs his
  clear hs his
  intro past s hpast his
  induction is generalizing past s with
  | nil => simpa [emitted] using hpast
  | cons i is ih =>
    rw [emitted, ← List.append_assoc]
    exact ih _ _ (hstep past s i hpast his.1) his.2

theorem invariant_along (guard : σ → ι → Prop) (Inv : σ → Prop)
    (hstep : ∀ s i, Inv s → guard s i → Inv (m.step s i).2) {s : σ} (hs : Inv s) {is : List ι}
    (his : m.Along guard s is)
    : Inv (m.run s is) := by
  induction is generalizing s with
  | nil => exact hs
  | cons i is ih => exact ih (hstep s i hs his.1) his.2

theorem invariant (Inv : σ → Prop) (hstep : ∀ s i, Inv s → Inv (m.step s i).2) {s : σ} (hs : Inv s)
    (is : List ι)
    : Inv (m.run s is) := by
  apply invariant_along (fun _ _ => True) Inv
  . intro s i hs _
    exact hstep s i hs
  . exact hs
  . apply along_true

theorem relates_along (guard : σ → ι → Prop) (Inv : σ → Prop) (R : σ → σ → Prop)
    (hrefl : ∀ s, R s s) (htrans : ∀ s t u, R s t → R t u → R s u)
    (hinv : ∀ s i, Inv s → guard s i → Inv (m.step s i).2)
    (hstep : ∀ s i, Inv s → guard s i → R s (m.step s i).2) {s : σ} (hs : Inv s) {is : List ι}
    (his : m.Along guard s is)
    : R s (m.run s is) := by
  induction is generalizing s with
  | nil => exact hrefl s
  | cons i is ih =>
    apply htrans _ _ _ (hstep s i hs his.1)
    exact ih (hinv s i hs his.1) his.2

end Machine
