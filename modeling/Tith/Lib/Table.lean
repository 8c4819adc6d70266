import Mathlib

/-!
This module contains tables: finite maps that are iterated in the order of their keys. They are the
extensional tree maps of the standard library, with the lookup lemmas stated through equality of
keys.
-/

abbrev Table (κ : Type u) (ν : Type v) [Ord κ] := Std.ExtTreeMap κ ν compare

namespace Table

open Std

variable {κ : Type u} {ν : Type v} [Ord κ] [TransOrd κ] [LawfulEqOrd κ]

@[simp]
theorem getElem?_insert [DecidableEq κ] (t : Table κ ν) (k a : κ) (v : ν)
    : (ExtTreeMap.insert t k v)[a]? = if k = a then some v else t[a]? := by
  rw [ExtTreeMap.getElem?_insert]
  simp

theorem getElem?_insert_ne (t : Table κ ν) {k a : κ} (h : k ≠ a) (v : ν)
    : (ExtTreeMap.insert t k v)[a]? = t[a]? := by
  rw [ExtTreeMap.getElem?_insert]
  simp [h]

theorem mem_toList (t : Table κ ν) (k : κ) (v : ν) : (k, v) ∈ ExtTreeMap.toList t ↔ t[k]? = some v := by
  apply ExtTreeMap.mem_toList_iff_getElem?_eq_some

theorem mem_keys {t : Table κ ν} {k : κ} : k ∈ ExtTreeMap.keys t ↔ t[k]?.isSome := by
  rw [ExtTreeMap.mem_keys, ExtTreeMap.isSome_getElem?_iff_mem]

theorem nodup_keys_toList (t : Table κ ν) : ((ExtTreeMap.toList t).map Prod.fst).Nodup := by
  rw [ExtTreeMap.map_fst_toList_eq_keys]
  have := ExtTreeMap.distinct_keys (t := t)
  simpa [List.Nodup] using this

theorem getElem?_insert_some [DecidableEq κ] {t : Table κ ν} {k a : κ} {v w : ν}
    (h : (ExtTreeMap.insert t k v)[a]? = some w)
    : (k = a ∧ v = w) ∨ (k ≠ a ∧ t[a]? = some w) := by
  rw [getElem?_insert] at h
  split at h
  . next heq =>
    left
    exact ⟨heq, by injection h⟩
  . next hne =>
    right
    exact ⟨hne, h⟩

end Table
