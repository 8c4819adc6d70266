import Tith.Wire.Lemmas.Trimmed

/-!
This module contains the codecs of trimmed lists and trimmed collections: when what is written is read
back, and that nothing but what is written is read.
-/

namespace Tith

theorem parseTrimmedList_format_iff (addresses : List Address)
    : parseTrimmedList (formatTrimmedList addresses) = .ok addresses ↔
        ∀ address ∈ addresses, PlainDomain address.domain := by
  simp only [parseTrimmedList, expandTrimmed_format, Except.bind_ok_iff]
  constructor
  . rintro ⟨expanded, hexpanded, hcanonical⟩
    split at hcanonical
    . cases hcanonical
    . cases hcanonical
      exact plain_of_expandTrimmed_go (by simp) hexpanded
  . intro hplain
    exact ⟨addresses, expandTrimmed_go_plain hplain none, if_neg (not_not.mpr rfl)⟩

theorem format_of_parseTrimmedList {value : List Char} {addresses : List Address}
    (h : parseTrimmedList value = .ok addresses)
    : formatTrimmedList addresses = value := by
  simp only [parseTrimmedList, Except.bind_ok_iff] at h
  obtain ⟨expanded, _, h⟩ := h
  split at h
  . cases h
  . next hcanonical =>
    injection h with h
    rw [← h]
    exact not_not.mp hcanonical

theorem format_of_parseTrimmedCollection {value : List Char} {addresses : List Address}
    (h : parseTrimmedCollection value = .ok addresses)
    : formatTrimmedCollection addresses = value := by
  simp only [parseTrimmedCollection, Except.bind_ok_iff] at h
  obtain ⟨expanded, _, h⟩ := h
  split at h
  . cases h
  . next hcanonical =>
    injection h with h
    rw [← h]
    exact not_not.mp hcanonical

theorem pairwise_lt_sortedSet (addresses : List Address)
    : (sortedSet addresses).Pairwise (fun a b => a.cmp b = .lt) := by
  have hne : (sortedSet addresses).IsChain (· ≠ ·) := List.isChain_destutter _ _
  have hle : (sortedSet addresses).IsChain (fun a b => (a.cmp b).isLE = true) := (pairwise_sortedSet addresses).isChain
  have hlt : (sortedSet addresses).IsChain (fun a b => compare a b = .lt) := by
    rw [List.isChain_iff_getElem] at hne hle ⊢
    intro index hindex
    rcases hcmp : compare (sortedSet addresses)[index] (sortedSet addresses)[index + 1] with _ | _ | _
    . rfl
    . exact absurd (Std.LawfulEqCmp.eq_of_compare hcmp) (hne index hindex)
    . have hgt : (sortedSet addresses)[index].cmp (sortedSet addresses)[index + 1] = .gt := hcmp
      have hle := hle index hindex
      rw [hgt] at hle
      cases hle
  have htrans : IsTrans Address (fun a b => compare a b = .lt) := ⟨fun _ _ _ => Std.TransCmp.lt_trans⟩
  exact hlt.pairwise

/--
The codecs of trimmed lists and collections: what is written is read back exactly if no domain begins
like a component, and only what is written is read.
-/
theorem trimmed_codecs (addresses : List Address) (value : List Char)
    : (parseTrimmedList (formatTrimmedList addresses) = .ok addresses ↔
        ∀ address ∈ addresses, PlainDomain address.domain) ∧
      ((parseTrimmedCollection (formatTrimmedCollection addresses) = .ok (sortedSet addresses) ↔
          ∀ address ∈ addresses, PlainDomain address.domain) ∧
        (sortedSet addresses).Pairwise (fun a b => a.cmp b = .lt) ∧
        ∀ address, address ∈ sortedSet addresses ↔ address ∈ addresses) ∧
      (∀ addresses, parseTrimmedList value = .ok addresses → formatTrimmedList addresses = value) ∧
      ∀ addresses, parseTrimmedCollection value = .ok addresses → formatTrimmedCollection addresses = value := by
  refine ⟨parseTrimmedList_format_iff addresses, ?_, fun _ => format_of_parseTrimmedList,
    fun _ => format_of_parseTrimmedCollection⟩
  exact ⟨parseTrimmedCollection_format_iff addresses, pairwise_lt_sortedSet addresses, fun _ => mem_sortedSet⟩

/--
An address whose domain begins like a component is written and not read back.
-/
theorem trimmed_list_not_read
    : (Address.new ".net" 1 2 3 0).toOption.any (fun address =>
        parseTrimmedList (formatTrimmedList [address]) ≠ .ok [address] ∧
          parseTrimmedCollection (formatTrimmedCollection [address]) ≠ .ok [address]) = true := by
  decide

end Tith
