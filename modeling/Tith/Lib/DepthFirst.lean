import Mathlib.Data.Finset.Card
import Mathlib.Logic.Relation
import Tith.Lib.Except

/-!
This module contains the depth first visit of a graph that ends at the first cycle, with the nodes that are
being visited and those that are done.
-/

namespace DepthFirst

/--
How a visit ends without being done: at a node that is being visited, at one that the graph does not
have, or with no round left.
-/
inductive Failure where
  | cycle
  | missing
  | rounds
  deriving DecidableEq, Repr

structure Marks (α : Type u) where
  active : Finset α
  done : Finset α

section Visit

variable {α : Type u} [DecidableEq α]

/--
The visit of one node and all nodes behind it. Every nested visit takes a round.
-/
def visit (next : α → Option (List α)) (rounds : Nat) (marks : Marks α) (a : α)
    : Except Failure (Marks α) :=
  if a ∈ marks.done then
    .ok marks
  else if a ∈ marks.active then
    .error .cycle
  else
    match rounds with
    | 0 => .error .rounds
    | rounds + 1 =>
      match next a with
      | none => .error .missing
      | some successors => do
        let marks ← successors.foldlM (visit next rounds) { marks with active := insert a marks.active }
        .ok ⟨marks.active.erase a, insert a marks.done⟩

/--
The visits of several nodes, each of them with no node being visited yet.
-/
def visitAll (next : α → Option (List α)) (rounds : Nat) (nodes : List α) : Except Failure (Finset α) :=
  nodes.foldlM (fun done a => (visit next rounds ⟨∅, done⟩ a).map Marks.done) ∅

end Visit

/--
The edges of the graph.
-/
def Edge {α : Type u} (next : α → Option (List α)) (a b : α) : Prop :=
  ∃ successors, next a = some successors ∧ b ∈ successors

variable {α : Type u} {next : α → Option (List α)}

theorem not_cycle_of_acc {r : α → α → Prop} {a : α} (h : Acc (flip r) a) : ¬Relation.TransGen r a a := by
  induction h with
  | intro a _ ih =>
    intro hcycle
    obtain ⟨b, hab, hba⟩ := Relation.TransGen.head'_iff.mp hcycle
    exact ih b hab (Relation.TransGen.tail' hba hab)

/--
What a finished visit has done: all nodes that are done are accessible if they were before.
-/
structure Finished (next : α → Option (List α)) (marks marks' : Marks α) : Prop where
  active : marks'.active = marks.active
  done : marks.done ⊆ marks'.done
  acc : (∀ a ∈ marks.done, Acc (flip (Edge next)) a) → ∀ a ∈ marks'.done, Acc (flip (Edge next)) a

namespace Finished

theorem refl (marks : Marks α) : Finished next marks marks := ⟨rfl, subset_rfl, id⟩

theorem trans {a b c : Marks α} (h : Finished next a b) (h' : Finished next b c) : Finished next a c :=
  ⟨h'.active.trans h.active, h.done.trans h'.done, fun hacc => h'.acc (h.acc hacc)⟩

end Finished

variable [DecidableEq α]

theorem foldlM_finished {rounds : Nat}
    (hvisit : ∀ {marks marks' a}, visit next rounds marks a = .ok marks' →
      a ∈ marks'.done ∧ Finished next marks marks')
    {l : List α} {marks marks' : Marks α} (h : l.foldlM (visit next rounds) marks = .ok marks')
    : (∀ a ∈ l, a ∈ marks'.done) ∧ Finished next marks marks' := by
  induction l generalizing marks with
  | nil =>
    cases h
    exact ⟨nofun, .refl _⟩
  | cons a l ih =>
    simp only [List.foldlM_cons, Except.bind_ok_iff] at h
    obtain ⟨middle, hfirst, hrest⟩ := h
    obtain ⟨hdone, hfinished⟩ := hvisit hfirst
    obtain ⟨hall, hfinished'⟩ := ih hrest
    refine ⟨?_, hfinished.trans hfinished'⟩
    intro b hb
    rcases List.mem_cons.mp hb with rfl | hb
    . exact hfinished'.done hdone
    . exact hall b hb

theorem visit_ok {rounds : Nat} {marks marks' : Marks α} {a : α}
    (h : visit next rounds marks a = .ok marks')
    : a ∈ marks'.done ∧ Finished next marks marks' := by
  induction rounds generalizing marks marks' a with
  | zero =>
    unfold visit at h
    split at h
    . next hdone =>
      cases h
      exact ⟨hdone, .refl _⟩
    . split at h <;> cases h
  | succ rounds ih =>
    unfold visit at h
    split at h
    . next hdone =>
      cases h
      exact ⟨hdone, .refl _⟩
    . split at h
      . cases h
      . next hactive =>
        dsimp only at h
        split at h
        . cases h
        . next successors hnext =>
          rw [Except.bind_ok_iff] at h
          obtain ⟨last, hfold, h⟩ := h
          cases h
          obtain ⟨hall, hfinished⟩ := foldlM_finished ih hfold
          refine ⟨Finset.mem_insert_self _ _, ?_, ?_, ?_⟩
          . dsimp only
            rw [hfinished.active, Finset.erase_insert hactive]
          . exact hfinished.done.trans (Finset.subset_insert _ _)
          . intro hacc b hb
            have hlast := hfinished.acc hacc
            rcases Finset.mem_insert.mp hb with rfl | hb
            . -- All nodes behind the visited one are done.
              constructor
              rintro c ⟨successors', hnext', hc⟩
              rw [hnext] at hnext'
              cases hnext'
              exact hlast c (hall c hc)
            . exact hlast b hb

theorem visit_cycle {rounds : Nat} {marks : Marks α} {a : α}
    (h : visit next rounds marks a = .error .cycle)
    (hpath : ∀ b ∈ marks.active, Relation.TransGen (Edge next) b a)
    : ∃ b, Relation.TransGen (Edge next) b b := by
  induction rounds generalizing marks a with
  | zero =>
    unfold visit at h
    split at h
    . cases h
    . split at h
      . next hactive => exact ⟨a, hpath a hactive⟩
      . cases h
  | succ rounds ih =>
    unfold visit at h
    split at h
    . cases h
    . split at h
      . next hactive => exact ⟨a, hpath a hactive⟩
      . dsimp only at h
        split at h
        . cases h
        . next successors hnext =>
          cases hfold : successors.foldlM (visit next rounds)
              { marks with active := insert a marks.active } with
          | ok last =>
            rw [hfold] at h
            cases h
          | error e =>
            rw [hfold] at h
            cases h
            obtain ⟨l₁, b, l₂, middle, rfl, hbefore, hturn⟩ := Except.foldlM_error hfold
            apply ih hturn
            rw [(foldlM_finished visit_ok hbefore).2.active]
            have hedge : Edge next a b := ⟨_, hnext, by simp⟩
            intro c hc
            rcases Finset.mem_insert.mp hc with rfl | hc
            . exact .single hedge
            . exact (hpath c hc).tail hedge

theorem visit_safe {nodes : Finset α} (hclosed : ∀ a ∈ nodes, ∃ successors, next a = some successors ∧
      ∀ b ∈ successors, b ∈ nodes)
    {rounds : Nat} {marks : Marks α} {a : α} (ha : a ∈ nodes) (hactive : marks.active ⊆ nodes)
    (hrounds : (nodes \ marks.active).card ≤ rounds) {e : Failure}
    (h : visit next rounds marks a = .error e)
    : e = .cycle := by
  -- The rounds suffice if there is one for every node that may still be visited.
  induction rounds generalizing marks a with
  | zero =>
    unfold visit at h
    split at h
    . cases h
    . split at h
      . cases h
        rfl
      . next hnew =>
        rw [Nat.le_zero, Finset.card_eq_zero, Finset.sdiff_eq_empty_iff_subset] at hrounds
        exact absurd (hrounds ha) hnew
  | succ rounds ih =>
    unfold visit at h
    split at h
    . cases h
    . split at h
      . cases h
        rfl
      . next hnew =>
        dsimp only at h
        obtain ⟨successors, hnext, hsuccessors⟩ := hclosed a ha
        rw [hnext] at h
        dsimp only at h
        cases hfold : successors.foldlM (visit next rounds)
            { marks with active := insert a marks.active } with
        | ok last =>
          rw [hfold] at h
          cases h
        | error e =>
          rw [hfold] at h
          cases h
          obtain ⟨l₁, b, l₂, middle, rfl, hbefore, hturn⟩ := Except.foldlM_error hfold
          have hmiddle := (foldlM_finished visit_ok hbefore).2.active
          apply ih (hsuccessors b (by simp)) _ _ hturn
          . rw [hmiddle]
            exact Finset.insert_subset ha hactive
          . rw [hmiddle]
            have hless : (nodes \ insert a marks.active).card < (nodes \ marks.active).card := by
              apply Finset.card_lt_card
              refine ⟨Finset.sdiff_subset_sdiff subset_rfl (Finset.subset_insert _ _), ?_⟩
              intro hsubset
              have hmem := hsubset (Finset.mem_sdiff.mpr ⟨ha, hnew⟩)
              simp at hmem
            exact Nat.le_of_lt_succ (lt_of_lt_of_le hless hrounds)

theorem visitAll_ok {rounds : Nat} {nodes : List α} {done : Finset α}
    (h : visitAll next rounds nodes = .ok done)
    : ∀ a ∈ nodes, Acc (flip (Edge next)) a := by
  unfold visitAll at h
  suffices hsuffices : ∀ start : Finset α, (∀ a ∈ start, Acc (flip (Edge next)) a) →
      nodes.foldlM (fun done a => (visit next rounds ⟨∅, done⟩ a).map Marks.done) start = .ok done →
      (∀ a ∈ nodes, a ∈ done) ∧ start ⊆ done ∧ ∀ a ∈ done, Acc (flip (Edge next)) a by
    obtain ⟨hall, -, hacc⟩ := hsuffices ∅ (by simp) h
    exact fun a ha => hacc a (hall a ha)
  clear h
  induction nodes with
  | nil =>
    intro start hstart h
    cases h
    exact ⟨nofun, subset_rfl, hstart⟩
  | cons a nodes ih =>
    intro start hstart h
    rw [List.foldlM_cons, Except.bind_ok_iff] at h
    obtain ⟨middle, hfirst, hrest⟩ := h
    obtain ⟨marks, hvisit, rfl⟩ := Except.map_eq_ok.mp hfirst
    obtain ⟨hdone, hfinished⟩ := visit_ok hvisit
    obtain ⟨hall, hsubset, hacc⟩ := ih marks.done (hfinished.acc hstart) hrest
    refine ⟨?_, hfinished.done.trans hsubset, hacc⟩
    intro b hb
    rcases List.mem_cons.mp hb with rfl | hb
    . exact hsubset hdone
    . exact hall b hb

theorem visitAll_error {rounds : Nat} {nodes : List α} {e : Failure}
    (h : visitAll next rounds nodes = .error e)
    : ∃ a ∈ nodes, ∃ done, visit next rounds ⟨∅, done⟩ a = .error e := by
  obtain ⟨l₁, a, l₂, done, rfl, -, hturn⟩ := Except.foldlM_error h
  exact ⟨a, by simp, done, Except.map_eq_error.mp hturn⟩

theorem visitAll_cycle {rounds : Nat} {nodes : List α} (h : visitAll next rounds nodes = .error .cycle)
    : ∃ a, Relation.TransGen (Edge next) a a := by
  obtain ⟨a, -, done, hvisit⟩ := visitAll_error h
  exact visit_cycle hvisit (by simp)

theorem visitAll_safe {nodes : List α} (hclosed : ∀ a ∈ nodes, ∃ successors, next a = some successors ∧
      ∀ b ∈ successors, b ∈ nodes)
    {rounds : Nat} (hrounds : nodes.length ≤ rounds) {e : Failure} (h : visitAll next rounds nodes = .error e)
    : e = .cycle := by
  -- In a graph whose edges end at its nodes the visit of all of them fails only at a cycle.
  obtain ⟨a, ha, done, hvisit⟩ := visitAll_error h
  refine @visit_safe _ _ _ nodes.toFinset ?_ _ _ _ (by simpa using ha) (by simp) ?_ _ hvisit
  . intro b hb
    obtain ⟨successors, hnext, hsuccessors⟩ := hclosed b (by simpa using hb)
    exact ⟨successors, hnext, fun c hc => by simpa using hsuccessors c hc⟩
  . rw [Finset.sdiff_empty]
    exact (List.toFinset_card_le nodes).trans hrounds

end DepthFirst
