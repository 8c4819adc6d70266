import Mathlib.Data.List.Basic
import Mathlib.Data.List.Infix

/-!
This module contains the binary search for the point where a list changes from elements that pass a
test to elements that fail it, and the insertion of an element in the order of another list.
-/

namespace List

def partitionPoint (p : α → Bool) (l : List α) : Nat :=
  go l.length 0 l.length
where
  -- The point is searched from `low` up to `high`. Every round shortens the interval.
  go (rounds low high : Nat) : Nat :=
    match rounds with
    | 0 => low
    | rounds + 1 =>
      if low < high then
        let mid := (low + high) / 2
        if l[mid]?.any p then go rounds (mid + 1) high else go rounds low mid
      else
        low

theorem any_getElem?_append {p : α → Bool} {l l' : List α} (hl : ∀ a ∈ l, p a = true)
    (hl' : ∀ a ∈ l', p a = false) {i : Nat} (hi : i < (l ++ l').length)
    : (l ++ l')[i]?.any p = decide (i < l.length) := by
  rw [getElem?_eq_getElem hi, Option.any_some]
  by_cases h : i < l.length
  . rw [getElem_append_left h]
    simp [h, hl]
  . rw [getElem_append_right (by omega)]
    simp [h, hl']

theorem partitionPoint_go {p : α → Bool} {l l' : List α} (hl : ∀ a ∈ l, p a = true)
    (hl' : ∀ a ∈ l', p a = false) {rounds low high : Nat} (hrounds : high - low ≤ rounds)
    (hlow : low ≤ l.length) (hhigh : l.length ≤ high) (hend : high ≤ (l ++ l').length)
    : partitionPoint.go p (l ++ l') rounds low high = l.length := by
  induction rounds generalizing low high with
  | zero =>
    rw [partitionPoint.go]
    omega
  | succ rounds ih =>
    rw [partitionPoint.go]
    split
    . next hlt =>
      simp only
      rw [any_getElem?_append hl hl' (by omega)]
      split
      . next hmid =>
        rw [decide_eq_true_iff] at hmid
        apply ih <;> omega
      . next hmid =>
        rw [decide_eq_true_iff] at hmid
        apply ih <;> omega
    . omega

theorem partitionPoint_append {p : α → Bool} {l l' : List α} (hl : ∀ a ∈ l, p a = true)
    (hl' : ∀ a ∈ l', p a = false)
    : partitionPoint p (l ++ l') = l.length := by
  -- On a list that is partitioned by the test, the search finds the border.
  rw [partitionPoint]
  apply partitionPoint_go hl hl'
  . omega
  . omega
  . simp
  . omega

section Order

theorem insertIdx_append_length {a : α} {l l' : List α}
    : (l ++ l').insertIdx l.length a = l ++ a :: l' := by
  induction l with
  | nil => simp
  | cons b l ih => simp [insertIdx_succ_cons, ih]

theorem findIdx?_append_any_lt {p : α → Bool} {s t : List α}
    : ((s ++ t).findIdx? p).any (· < s.length) = s.any p := by
  rw [findIdx?_append]
  cases hs : s.findIdx? p with
  | none =>
    rw [findIdx?_eq_none_iff] at hs
    have hany : s.any p = false := by simpa using hs
    rw [hany]
    cases t.findIdx? p with
    | none => simp
    | some i => simp
  | some i =>
    obtain ⟨hlt, hp, _⟩ := findIdx?_eq_some_iff_getElem.mp hs
    have hany : s.any p = true := any_eq_true.mpr ⟨s[i], getElem_mem hlt, hp⟩
    simp [hany, hlt]

theorem findIdx?_append_cons {p : α → Bool} {a : α} {s t : List α} (hs : s.any p = false)
    (ha : p a = true)
    : (s ++ a :: t).findIdx? p = some s.length := by
  have hnone : s.findIdx? p = none := by simpa using hs
  rw [findIdx?_append, hnone, findIdx?_cons, ha]
  simp

variable {key : α → κ}

theorem key_ne_of_nodup_append {s t : List α} (hnodup : ((s ++ t).map key).Nodup) {a b : α}
    (ha : a ∈ s) (hb : b ∈ t)
    : key a ≠ key b := by
  rw [map_append, nodup_append] at hnodup
  exact hnodup.2.2 _ (mem_map_of_mem ha) _ (mem_map_of_mem hb)

/--
The elements of `m` belong to different elements of `l`, in the order of `l`. If none of them belongs
to `f b`, then the search for the position of `f b` finds the place in `m` where `b` belongs.
-/
theorem insertIdx_partitionPoint_sublist [DecidableEq κ] {l : List α} (hnodup : (l.map key).Nodup)
    {m : List β} {f : β → α} (hsub : (m.map f).Sublist l) {b : β} (hb : f b ∈ l)
    (hm : ∀ c ∈ m, key (f c) ≠ key (f b)) {position : Nat}
    (hposition : l.findIdx? (fun a => key a = key (f b)) = some position)
    : ((m.insertIdx
        (m.partitionPoint (fun c => (l.findIdx? (fun a => key a = key (f c))).any (· < position)))
        b).map f).Sublist l := by
  obtain ⟨s, t, rfl⟩ := append_of_mem hb
  obtain ⟨first, second, hsplit, hfirst, hsecond⟩ := sublist_append_iff.mp hsub
  obtain ⟨m₁, m₂, rfl, rfl, rfl⟩ := map_eq_append_iff.mp hsplit
  -- The elements behind the place do not contain `f b` itself.
  have hrest : (m₂.map f).Sublist t := by
    rcases sublist_cons_iff.mp hsecond with hrest | ⟨rest, hcons, _⟩
    . exact hrest
    . obtain ⟨c, hc, hcb⟩ := mem_map.mp (hcons ▸ mem_cons_self : f b ∈ m₂.map f)
      exact absurd (congrArg key hcb) (hm c (by simp [hc]))
  have hs : s.any (fun a => decide (key a = key (f b))) = false := by
    rw [any_eq_false]
    intro a ha
    simpa using key_ne_of_nodup_append hnodup ha mem_cons_self
  rw [findIdx?_append_cons hs (by simp), Option.some.injEq] at hposition
  subst hposition
  have hpoint : (m₁ ++ m₂).partitionPoint (fun c =>
      ((s ++ f b :: t).findIdx? (fun a => key a = key (f c))).any (· < s.length)) = m₁.length := by
    apply partitionPoint_append
    . intro c hc
      rw [findIdx?_append_any_lt, any_eq_true]
      exact ⟨f c, hfirst.subset (mem_map_of_mem hc), by simp⟩
    . intro c hc
      rw [findIdx?_append_any_lt, any_eq_false]
      intro a ha
      have hmem : f c ∈ f b :: t := mem_cons_of_mem _ (hrest.subset (mem_map_of_mem hc))
      simpa using key_ne_of_nodup_append hnodup ha hmem
  rw [hpoint, insertIdx_append_length, map_append, map_cons]
  exact hfirst.append (hrest.cons_cons _)

end Order

end List
