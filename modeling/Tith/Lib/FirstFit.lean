import Mathlib

/-!
This module contains claims on a pool: each one takes the first entry with its key that is still there.
-/

namespace FirstFit

variable {α : Type u} {κ : Type v} [DecidableEq κ] (key : α → κ)

/--
The entries that the claims get, in their order, and what is left of the pool.
-/
def takeAll (pool : List α) (wants : List κ) : List (Option α) × List α :=
  match wants with
  | [] => ([], pool)
  | want :: wants =>
    let taken := pool.find? (fun a => key a = want)
    let rest := takeAll (pool.eraseP (fun a => key a = want)) wants
    (taken :: rest.1, rest.2)

theorem takeAll_append (pool : List α) (wants wants' : List κ)
    : takeAll key pool (wants ++ wants') =
        ((takeAll key pool wants).1 ++ (takeAll key (takeAll key pool wants).2 wants').1,
          (takeAll key (takeAll key pool wants).2 wants').2) := by
  induction wants generalizing pool with
  | nil => rfl
  | cons want wants ih =>
    rw [List.cons_append, takeAll, ih]
    rfl

theorem perm_find?_eraseP (p : α → Bool) (pool : List α)
    : List.Perm ((pool.find? p).toList ++ pool.eraseP p) pool := by
  induction pool with
  | nil => exact .refl _
  | cons a pool ih =>
    cases h : p a with
    | true => simp [h]
    | false =>
      rw [List.find?_cons_of_neg (by simp [h]), List.eraseP_cons_of_neg (by simp [h])]
      exact List.perm_middle.trans (ih.cons a)

theorem perm_takeAll (pool : List α) (wants : List κ)
    : List.Perm ((takeAll key pool wants).1.reduceOption ++ (takeAll key pool wants).2) pool := by
  induction wants generalizing pool with
  | nil => exact .refl _
  | cons want wants ih =>
    have hcons : ∀ (taken : Option α) rest, (taken :: rest).reduceOption = taken.toList ++ rest.reduceOption := by
      intro taken rest
      cases taken with
      | none => rfl
      | some a => rfl
    rw [takeAll, hcons, List.append_assoc]
    exact ((ih _).append_left _).trans (perm_find?_eraseP _ _)

theorem key_takeAll (pool : List α) (wants : List κ)
    : List.Forall₂ (fun taken want => ∀ a ∈ taken, key a = want) (takeAll key pool wants).1 wants := by
  induction wants generalizing pool with
  | nil => exact .nil
  | cons want wants ih =>
    refine .cons ?_ (ih _)
    intro a ha
    simpa using List.find?_some ha

theorem count_eraseP (pool : List α) (want k : κ)
    : ((pool.eraseP fun a => key a = want).map key).count k =
        (pool.map key).count k - if want = k then 1 else 0 := by
  induction pool with
  | nil => simp
  | cons a pool ih =>
    by_cases ha : key a = want
    . rw [List.eraseP_cons_of_pos (by simpa using ha), List.map_cons, List.count_cons, ha]
      by_cases hk : want = k
      . simp [hk]
      . simp [hk]
    . rw [List.eraseP_cons_of_neg (by simpa using ha), List.map_cons, List.map_cons, List.count_cons,
        List.count_cons, ih]
      by_cases hk : want = k
      . subst hk
        simp [ha]
      . simp [hk]

theorem all_taken_iff (pool : List α) (wants : List κ)
    : (∀ taken ∈ (takeAll key pool wants).1, taken.isSome = true) ↔
        ∀ k, wants.count k ≤ (pool.map key).count k := by
  induction wants generalizing pool with
  | nil => simp [takeAll]
  | cons want wants ih =>
    rw [takeAll, List.forall_mem_cons, ih]
    constructor
    . rintro ⟨hsome, hrest⟩ k
      have hk := hrest k
      rw [count_eraseP] at hk
      rw [List.count_cons]
      by_cases hwant : want = k
      . subst hwant
        rw [List.find?_isSome] at hsome
        obtain ⟨a, hmem, ha⟩ := hsome
        have hpos : 0 < (pool.map key).count want :=
          List.count_pos_iff.mpr (List.mem_map.mpr ⟨a, hmem, by simpa using ha⟩)
        simp only [beq_self_eq_true, if_true] at hk ⊢
        omega
      . simp only [hwant, if_false, beq_iff_eq] at hk ⊢
        omega
    . intro h
      constructor
      . have hwant := h want
        rw [List.count_cons_self] at hwant
        obtain ⟨a, hmem, ha⟩ := List.mem_map.mp (List.count_pos_iff.mp (by omega : 0 < (pool.map key).count want))
        rw [List.find?_isSome]
        exact ⟨a, hmem, by simpa using ha⟩
      . intro k
        have hk := h k
        rw [count_eraseP]
        rw [List.count_cons] at hk
        by_cases hwant : want = k
        . simp only [hwant, beq_self_eq_true, if_true] at hk ⊢
          omega
        . simp only [hwant, if_false, beq_iff_eq] at hk ⊢
          omega

section Served

variable [DecidableEq α]

/--
First come, first served: each claim in turn gets the first entry with its key that none before it has got.
-/
structure Served (pool : List α) (wants : List κ) (slots : List (Option α)) : Prop where
  length : slots.length = wants.length
  slot : ∀ n want, wants[n]? = some want →
    slots[n]? = some ((pool.filter (fun a => some a ∉ slots.take n)).find? (fun a => key a = want))

theorem eraseP_eq_filter {p : α → Bool} {pool : List α} (hnodup : pool.Nodup)
    : pool.eraseP p = pool.filter (fun a => some a ≠ pool.find? p) := by
  induction pool with
  | nil => rfl
  | cons first pool ih =>
    rw [List.nodup_cons] at hnodup
    cases hp : p first with
    | true =>
      rw [List.eraseP_cons_of_pos hp, List.find?_cons_of_pos hp, List.filter_cons_of_neg (by simp)]
      symm
      rw [List.filter_eq_self]
      intro a ha
      rw [decide_eq_true_eq]
      rintro heq
      exact hnodup.1 (Option.some.inj heq ▸ ha)
    | false =>
      have hne : some first ≠ pool.find? p := by
        intro heq
        rw [List.find?_some heq.symm] at hp
        cases hp
      rw [List.eraseP_cons_of_neg (by simp [hp]), List.find?_cons_of_neg (by simp [hp]),
        List.filter_cons_of_pos (by simpa using hne), ih hnodup.2]

theorem served_takeAll {pool : List α} (hnodup : pool.Nodup) (wants : List κ)
    : Served key pool wants (takeAll key pool wants).1 := by
  induction wants generalizing pool with
  | nil => exact ⟨rfl, by simp⟩
  | cons want wants ih =>
    have hrest : (pool.eraseP (fun a => key a = want)).Nodup := List.eraseP_sublist.nodup hnodup
    obtain ⟨hlength, hslot⟩ := ih hrest
    rw [takeAll]
    dsimp only
    generalize (takeAll key (pool.eraseP (fun a => key a = want)) wants).1 = slots at hlength hslot ⊢
    simp only [eraseP_eq_filter hnodup, List.filter_filter] at hslot
    refine ⟨congrArg Nat.succ hlength, ?_⟩
    intro n want' hwant
    cases n with
    | zero =>
      injection hwant with hwant
      subst hwant
      simp
    | succ n =>
      rw [List.getElem?_cons_succ] at hwant ⊢
      rw [hslot n want' hwant]
      congr 3
      funext a
      rw [List.take_succ_cons, Bool.eq_iff_iff]
      simp only [List.mem_cons, not_or, Bool.and_eq_true, decide_eq_true_eq, ne_eq, and_comm]

end Served

end FirstFit
