import Mathlib.Data.List.Chain
import Mathlib.Data.List.Destutter
import Mathlib.Data.List.Forall2
import Mathlib.Data.List.TakeDrop

/-!
This module contains facts about lists that the loops of the store and the parsers need.
-/

namespace List

/--
The entry at the index is the first one with the property.
-/
def FirstAt (p : α → Prop) (l : List α) (index : Nat) (a : α) : Prop :=
  l[index]? = some a ∧ p a ∧ ∀ j < index, ∀ b, l[j]? = some b → ¬p b

theorem firstAt_cons_zero {p : α → Prop} {l : List α} {a b : α}
    : FirstAt p (a :: l) 0 b ↔ a = b ∧ p a := by
  constructor
  . rintro ⟨hget, hp, _⟩
    cases hget
    exact ⟨rfl, hp⟩
  . rintro ⟨rfl, hp⟩
    exact ⟨rfl, hp, fun j hj => absurd hj (Nat.not_lt_zero j)⟩

theorem firstAt_cons_succ {p : α → Prop} {l : List α} {a b : α} {index : Nat}
    : FirstAt p (a :: l) (index + 1) b ↔ ¬p a ∧ FirstAt p l index b := by
  constructor
  . rintro ⟨hget, hp, hbefore⟩
    refine ⟨hbefore 0 (Nat.succ_pos index) a rfl, hget, hp, ?_⟩
    intro j hj
    exact hbefore (j + 1) (Nat.succ_lt_succ hj)
  . rintro ⟨hfirst, hget, hp, hbefore⟩
    refine ⟨hget, hp, ?_⟩
    intro j hj
    cases j with
    | zero =>
      intro c hc
      cases hc
      exact hfirst
    | succ j => exact hbefore j (Nat.lt_of_succ_lt_succ hj)

theorem find?_zipIdx_eq_some {p : α → Bool} {l : List α} {start index : Nat} {a : α}
    (h : (l.zipIdx start).find? (fun entry => p entry.1) = some (a, index))
    : ∃ offset, index = start + offset ∧ FirstAt (fun a => p a = true) l offset a := by
  induction l generalizing start with
  | nil => cases h
  | cons b l ih =>
    rw [zipIdx_cons, find?_cons] at h
    split at h
    . next hp =>
      cases h
      exact ⟨0, rfl, firstAt_cons_zero.mpr ⟨rfl, hp⟩⟩
    . next hp =>
      obtain ⟨offset, rfl, hfirst⟩ := ih h
      refine ⟨offset + 1, by omega, firstAt_cons_succ.mpr ⟨?_, hfirst⟩⟩
      simpa using hp

theorem foldl_keep {P : α → Prop} {f : Option α → α → Option α}
    (hf : ∀ kept a, f kept a = kept ∨ (f kept a = some a ∧ P a)) {l : List α} {start : Option α}
    {a : α} (h : l.foldl f start = some a)
    : start = some a ∨ (a ∈ l ∧ P a) := by
  induction l generalizing start with
  | nil => exact .inl h
  | cons first l ih =>
    rw [foldl_cons] at h
    rcases ih h with hfirst | ⟨hmem, hp⟩
    . rcases hf start first with hkept | ⟨hnew, hp⟩
      . exact .inl (hkept.symm.trans hfirst)
      . rw [hnew] at hfirst
        injection hfirst with heq
        subst heq
        exact .inr ⟨by simp, hp⟩
    . exact .inr ⟨by simp [hmem], hp⟩

theorem forall₂_mem_left {R : α → β → Prop} {l : List α} {l' : List β} (h : Forall₂ R l l') {a : α}
    (ha : a ∈ l)
    : ∃ b ∈ l', R a b := by
  induction h with
  | nil => simp at ha
  | cons hr _ ih =>
    rcases mem_cons.mp ha with rfl | ha
    . exact ⟨_, by simp, hr⟩
    . obtain ⟨b, hb, hab⟩ := ih ha
      exact ⟨b, by simp [hb], hab⟩

theorem forall₂_mem_right {R : α → β → Prop} {l : List α} {l' : List β} (h : Forall₂ R l l') {b : β}
    (hb : b ∈ l')
    : ∃ a ∈ l, R a b :=
  forall₂_mem_left h.flip hb

theorem Forall₂.zip_trans {R : α → β → Prop} {Q : α × β → γ → Prop} {P : α → γ → Prop} {l : List α}
    {m : List β} {n : List γ} (h : Forall₂ R l m) (h' : Forall₂ Q (l.zip m) n)
    (htrans : ∀ a b c, (a, b) ∈ l.zip m → R a b → Q (a, b) c → P a c)
    : Forall₂ P l n := by
  induction h generalizing n with
  | nil =>
    cases h'
    exact .nil
  | cons hr _ ih =>
    cases h' with
    | cons hq hrest =>
      refine .cons (htrans _ _ _ (by simp) hr hq) (ih hrest ?_)
      intro a b c hmem
      exact htrans a b c (by simp [hmem])

theorem Forall₂.comp {R : α → β → Prop} {Q : β → γ → Prop} {l : List α} {m : List β} {n : List γ}
    (h : Forall₂ R l m) (h' : Forall₂ Q m n)
    : Forall₂ (fun a c => ∃ b, R a b ∧ Q b c) l n := by
  induction h generalizing n with
  | nil =>
    cases h'
    exact .nil
  | cons hr _ ih =>
    cases h' with
    | cons hq hrest => exact .cons ⟨_, hr, hq⟩ (ih hrest)

theorem Forall₂.append {R : α → β → Prop} {l₁ l₂ : List α} {m₁ m₂ : List β} (h₁ : Forall₂ R l₁ m₁)
    (h₂ : Forall₂ R l₂ m₂)
    : Forall₂ R (l₁ ++ l₂) (m₁ ++ m₂) := by
  induction h₁ with
  | nil => exact h₂
  | cons hr _ ih => exact .cons hr ih

theorem Forall₂.of_append_left {R : α → β → Prop} {l₁ l₂ : List α} {m : List β}
    (h : Forall₂ R (l₁ ++ l₂) m)
    : ∃ m₁ m₂, m = m₁ ++ m₂ ∧ Forall₂ R l₁ m₁ ∧ Forall₂ R l₂ m₂ := by
  induction l₁ generalizing m with
  | nil => exact ⟨[], m, rfl, .nil, h⟩
  | cons a l₁ ih =>
    cases h with
    | cons hr hrest =>
      obtain ⟨m₁, m₂, rfl, h₁, h₂⟩ := ih hrest
      exact ⟨_ :: m₁, m₂, rfl, .cons hr h₁, h₂⟩

theorem Forall₂.exists_zip {R : α → β → Prop} {l : List α} {m : List β} (h : Forall₂ R l m) {a : α}
    (ha : a ∈ l)
    : ∃ b, (a, b) ∈ l.zip m ∧ R a b := by
  induction h with
  | nil => simp at ha
  | cons hr _ ih =>
    rcases mem_cons.mp ha with rfl | ha
    . exact ⟨_, by simp, hr⟩
    . obtain ⟨b, hb, hab⟩ := ih ha
      exact ⟨b, by simp [hb], hab⟩

theorem eq_of_mem_zip_of_nodup {l : List α} {m : List β} (hnodup : m.Nodup) {a a' : α} {b : β}
    (h : (a, b) ∈ l.zip m) (h' : (a', b) ∈ l.zip m)
    : a = a' := by
  induction l generalizing m with
  | nil => simp at h
  | cons c l ih =>
    cases m with
    | nil => simp at h
    | cons d m =>
      rw [nodup_cons] at hnodup
      simp only [zip_cons_cons, mem_cons, Prod.mk.injEq] at h h'
      rcases h with ⟨rfl, rfl⟩ | h
      . rcases h' with ⟨rfl, _⟩ | h'
        . rfl
        . exact absurd (of_mem_zip h').2 hnodup.1
      . rcases h' with ⟨rfl, rfl⟩ | h'
        . exact absurd (of_mem_zip h).2 hnodup.1
        . exact ih hnodup.2 h h'

theorem filterMap_zip_sublist (f : β → Option γ) (l : List α) (l' : List β)
    : Sublist ((l.zip l').filterMap (fun pair => f pair.2)) (l'.filterMap f) := by
  induction l generalizing l' with
  | nil => simp
  | cons a l ih =>
    cases l' with
    | nil => simp
    | cons b l' =>
      simp only [zip_cons_cons, filterMap_cons]
      split
      . exact ih l'
      . exact (ih l').cons_cons _

theorem span_append {p : α → Bool} {l l' : List α} (hl : ∀ a ∈ l, p a = true)
    (hl' : ∀ a ∈ l'.head?, p a = false)
    : (l ++ l').span p = (l, l') := by
  rw [span_eq_takeWhile_dropWhile, takeWhile_append_of_pos hl, dropWhile_append_of_pos hl]
  cases l' with
  | nil => simp
  | cons a l' => simp [hl' a (by simp)]

theorem span_of_mem [DecidableEq α] {a : α} {l : List α} (h : a ∈ l)
    : ∃ l₁ l₂, l = l₁ ++ a :: l₂ ∧ l.span (· ≠ a) = (l₁, a :: l₂) := by
  obtain ⟨l₁, l₂, rfl, hl₁⟩ := eq_append_cons_of_mem h
  refine ⟨l₁, l₂, rfl, span_append ?_ ?_⟩
  . intro b hb
    simpa using fun hab : b = a => hl₁ (hab ▸ hb)
  . simp

theorem not_pair_infix {a b : α} {l : List α}
    : ¬[a, b] <:+: l ↔ l.IsChain (fun x y => ¬(x = a ∧ y = b)) := by
  rw [isChain_iff_forall_rel_of_append_cons_cons]
  constructor
  . rintro h x y s t rfl ⟨rfl, rfl⟩
    exact h ⟨s, t, by simp⟩
  . rintro h ⟨s, t, rfl⟩
    have hsplit : s ++ [a, b] ++ t = s ++ a :: b :: t := by simp
    exact h hsplit ⟨rfl, rfl⟩

theorem mem_intercalate_singleton {a b : α} {ls : List (List α)} (h : b ∈ [a].intercalate ls)
    : b = a ∨ ∃ l ∈ ls, b ∈ l := by
  induction ls with
  | nil => simp at h
  | cons l ls ih =>
    cases ls with
    | nil =>
      rw [intercalate_singleton] at h
      exact .inr ⟨l, by simp, h⟩
    | cons l' ls =>
      rw [intercalate_cons_cons] at h
      simp only [mem_append, mem_singleton] at h
      rcases h with (hl | ha) | hrest
      . exact .inr ⟨l, by simp, hl⟩
      . exact .inl ha
      . rcases ih hrest with ha | ⟨l'', hmem, hb⟩
        . exact .inl ha
        . exact .inr ⟨l'', by simp_all, hb⟩

theorem infix_intercalate {s l : List α} {ls : List (List α)} (h : l ∈ ls)
    : l <:+: s.intercalate ls := by
  induction ls with
  | nil => simp at h
  | cons first ls ih =>
    cases ls with
    | nil =>
      rw [mem_singleton] at h
      subst h
      exact ⟨[], [], by simp⟩
    | cons second ls =>
      rw [intercalate_cons_cons]
      rcases mem_cons.mp h with rfl | h
      . exact ⟨[], s ++ s.intercalate (second :: ls), by simp⟩
      . exact (ih h).trans (suffix_append _ _).isInfix

theorem intercalate_append_singleton {a : α} {ls : List (List α)} (h : ls ≠ [])
    : [a].intercalate ls ++ [a] = ls.flatMap (· ++ [a]) := by
  induction ls with
  | nil => exact absurd rfl h
  | cons l ls ih =>
    cases ls with
    | nil => simp [intercalate_singleton]
    | cons l' ls =>
      rw [intercalate_cons_cons, append_assoc, ih (by simp)]
      simp

theorem intercalate_singleton_cons {a : α} {l : List α} {ls : List (List α)}
    : [a].intercalate (l :: ls) = l ++ ls.flatMap (a :: ·) := by
  induction ls generalizing l with
  | nil => simp [intercalate_singleton]
  | cons l' ls ih =>
    rw [intercalate_cons_cons, ih]
    simp

theorem isPrefixOf?_eq_some [DecidableEq α] {p l r : List α}
    : p.isPrefixOf? l = some r ↔ l = p ++ r := by
  induction p generalizing l with
  | nil => simp [isPrefixOf?, eq_comm]
  | cons c p ih =>
    cases l with
    | nil => simp [isPrefixOf?]
    | cons d l =>
      simp only [isPrefixOf?, cons_append, cons.injEq]
      split
      . next heq => simp_all
      . next hne =>
        simp only [beq_iff_eq] at hne
        simp [Ne.symm hne]

theorem mem_destutter'_ne [DecidableEq α] {a b : α} {l : List α}
    : a ∈ l.destutter' (· ≠ ·) b ↔ a = b ∨ a ∈ l := by
  induction l generalizing b with
  | nil => simp
  | cons c l ih =>
    rw [destutter'_cons]
    split
    . rw [mem_cons, ih, mem_cons]
    . next heq =>
      rw [not_not] at heq
      rw [ih, heq, mem_cons]
      tauto

theorem mem_destutter_ne [DecidableEq α] {a : α} {l : List α} : a ∈ l.destutter (· ≠ ·) ↔ a ∈ l := by
  cases l with
  | nil => simp
  | cons b l => rw [destutter_cons', mem_destutter'_ne, mem_cons]

end List
