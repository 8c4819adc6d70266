import Tith.Wire.Lemmas.Item

/-!
This module contains the cursor over the children of an item in terms of the children of defined types
that are still in front of it: every reader but the one of the key behind an address sees only these.
-/

namespace Tith

namespace Cursor

def defined (cursor : Cursor) : List OwnedTlv :=
  (cursor.values.drop cursor.index).filter (fun value => Types.isDefined value.typeCode)

/--
Nothing but unknown children stands between the cursor and the position.
-/
def Skips (cursor : Cursor) (index : Nat) : Prop :=
  cursor.index ≤ index ∧
    ∀ j, cursor.index ≤ j → j < index → ∀ value, cursor.values[j]? = some value →
      Types.isDefined value.typeCode = false

theorem Skips.refl (cursor : Cursor) : cursor.Skips cursor.index := by
  refine ⟨Nat.le_refl _, ?_⟩
  intro j hle hlt
  omega

/--
What `nextDefined` finds.
-/
structure Finds (cursor : Cursor) (index : Nat) (value : OwnedTlv) : Prop where
  skips : cursor.Skips index
  here : cursor.values[index]? = some value
  isDefined : Types.isDefined value.typeCode = true
  defined : cursor.defined = value :: (⟨cursor.values, index + 1⟩ : Cursor).defined

theorem nextDefined_go_cases {cursor : Cursor} {rest : List OwnedTlv} {index : Nat}
    (hrest : cursor.values.drop index = rest) (hskips : cursor.Skips index)
    (hdefined : cursor.defined = (⟨cursor.values, index⟩ : Cursor).defined)
    : (nextDefined.go cursor rest index = none ∧ cursor.defined = []) ∨
        ∃ i value, nextDefined.go cursor rest index = some ((i, value), ⟨cursor.values, i + 1⟩) ∧
          cursor.Finds i value := by
  induction rest generalizing index with
  | nil =>
    left
    refine ⟨rfl, ?_⟩
    rw [hdefined, Cursor.defined, hrest]
    rfl
  | cons value rest ih =>
    have hvalue : cursor.values[index]? = some value := by
      rw [← List.head?_drop, hrest]
      rfl
    have htail : cursor.values.drop (index + 1) = rest := by
      rw [← List.tail_drop, hrest]
      rfl
    cases hknown : Types.isDefined value.typeCode with
    | true =>
      right
      refine ⟨index, value, by simp [nextDefined.go, hknown], hskips, hvalue, hknown, ?_⟩
      rw [hdefined]
      simp [Cursor.defined, hrest, htail, hknown]
    | false =>
      have hgo : nextDefined.go cursor (value :: rest) index = nextDefined.go cursor rest (index + 1) := by
        simp [nextDefined.go, hknown]
      rw [hgo]
      apply ih htail
      . refine ⟨Nat.le_succ_of_le hskips.1, ?_⟩
        intro j hle hlt other hother
        by_cases heq : j = index
        . subst heq
          rw [hvalue] at hother
          cases hother
          exact hknown
        . exact hskips.2 j hle (by omega) other hother
      . rw [hdefined]
        simp [Cursor.defined, hrest, htail, hknown]

theorem nextDefined_cases (cursor : Cursor)
    : (cursor.nextDefined = none ∧ cursor.defined = []) ∨
        ∃ index value, cursor.nextDefined = some ((index, value), ⟨cursor.values, index + 1⟩) ∧
          cursor.Finds index value :=
  nextDefined_go_cases rfl (Skips.refl cursor) rfl

theorem nextDefined_eq {cursor : Cursor} {value : OwnedTlv} {rest : List OwnedTlv}
    (h : cursor.defined = value :: rest)
    : ∃ index, cursor.nextDefined = some ((index, value), ⟨cursor.values, index + 1⟩) ∧
        cursor.Finds index value ∧ (⟨cursor.values, index + 1⟩ : Cursor).defined = rest := by
  rcases nextDefined_cases cursor with ⟨_, hnil⟩ | ⟨index, found, hnext, hfinds⟩
  . rw [hnil] at h
    cases h
  . have hdefined := hfinds.defined
    rw [h, List.cons.injEq] at hdefined
    obtain ⟨rfl, hrest⟩ := hdefined
    exact ⟨index, hnext, hfinds, hrest.symm⟩

theorem nextDefined_eq_none {cursor : Cursor} (h : cursor.defined = []) : cursor.nextDefined = none := by
  rcases nextDefined_cases cursor with ⟨hnext, _⟩ | ⟨index, found, _, hfinds⟩
  . exact hnext
  . rw [hfinds.defined] at h
    cases h

theorem Finds.index_le {cursor : Cursor} {i j : Nat} {value other : OwnedTlv} (h : cursor.Finds i value)
    (h' : cursor.Finds j other)
    : i ≤ j := by
  by_contra hlt
  have hunknown := h.skips.2 j h'.skips.1 (Nat.lt_of_not_le hlt) other h'.here
  rw [h'.isDefined] at hunknown
  cases hunknown

theorem Finds.nextDefined {cursor : Cursor} {index : Nat} {value : OwnedTlv} (h : cursor.Finds index value)
    : cursor.nextDefined = some ((index, value), ⟨cursor.values, index + 1⟩) := by
  obtain ⟨other, hnext, hfinds, _⟩ := nextDefined_eq h.defined
  obtain rfl : other = index := Nat.le_antisymm (hfinds.index_le h) (h.index_le hfinds)
  exact hnext

theorem Finds.optional {cursor : Cursor} {index : Nat} {value : OwnedTlv} (h : cursor.Finds index value)
    : optional value.typeCode cursor = .ok (some (index, value), ⟨cursor.values, index + 1⟩) := by
  simp only [Cursor.optional, h.nextDefined, if_true]

theorem take_run {expected : UInt64} {name : String} {cursor next : Cursor} {entry : Nat × OwnedTlv}
    (h : take expected name cursor = .ok (entry, next))
    : next = ⟨cursor.values, entry.1 + 1⟩ ∧ cursor.Finds entry.1 entry.2 ∧ entry.2.typeCode = expected := by
  unfold take at h
  rcases nextDefined_cases cursor with ⟨hnext, _⟩ | ⟨index, value, hnext, hfinds⟩
  . rw [hnext] at h
    cases h
  . rw [hnext] at h
    dsimp only at h
    split at h
    . next htype =>
      cases h
      exact ⟨rfl, hfinds, htype⟩
    . cases h

theorem optional_run {expected : UInt64} {cursor next : Cursor} {entry : Option (Nat × OwnedTlv)}
    (h : optional expected cursor = .ok (entry, next))
    : (entry = none ∧ next = cursor ∧ ∀ value ∈ cursor.defined.head?, value.typeCode ≠ expected) ∨
        ∃ index value, entry = some (index, value) ∧ next = ⟨cursor.values, index + 1⟩ ∧
          cursor.Finds index value ∧ value.typeCode = expected := by
  unfold optional at h
  rcases nextDefined_cases cursor with ⟨hnext, hnil⟩ | ⟨index, value, hnext, hfinds⟩
  . rw [hnext] at h
    cases h
    left
    simp [hnil]
  . rw [hnext] at h
    dsimp only at h
    split at h
    . next htype =>
      cases h
      exact .inr ⟨index, value, rfl, rfl, hfinds, htype⟩
    . next htype =>
      cases h
      left
      refine ⟨rfl, rfl, ?_⟩
      rw [hfinds.defined]
      simpa using htype

section Defined

variable {expected : UInt64} {cursor : Cursor} {value : OwnedTlv} {rest : List OwnedTlv}

theorem optional_eq_none (h : ∀ value ∈ cursor.defined.head?, value.typeCode ≠ expected)
    : optional expected cursor = .ok (none, cursor) := by
  unfold optional
  rcases nextDefined_cases cursor with ⟨hnext, _⟩ | ⟨index, value, hnext, hfinds⟩
  . rw [hnext]
  . rw [hnext]
    dsimp only
    rw [if_neg]
    apply h
    rw [hfinds.defined]
    rfl

theorem finish_of_defined (h : cursor.defined = []) : finish cursor = .ok ((), cursor) := by
  simp only [finish, nextDefined_eq_none h]

theorem finish_run {cursor next : Cursor} {done : Unit} (h : finish cursor = .ok (done, next))
    : cursor.defined = [] ∧ next = cursor := by
  unfold finish at h
  rcases nextDefined_cases cursor with ⟨hnext, hnil⟩ | ⟨index, value, hnext, _⟩
  . rw [hnext] at h
    cases h
    exact ⟨hnil, rfl⟩
  . rw [hnext] at h
    cases h

theorem repeated_go_eq {fuel : Nat} (hfuel : cursor.defined.length ≤ fuel)
    : ∃ next : Cursor, repeated.go expected fuel cursor =
          (cursor.defined.takeWhile (fun value => value.typeCode = expected), next) ∧
        next.values = cursor.values ∧
        next.defined = cursor.defined.dropWhile (fun value => value.typeCode = expected) ∧
        ((∀ value ∈ cursor.defined.head?, value.typeCode ≠ expected) → next = cursor) := by
  induction fuel generalizing cursor with
  | zero =>
    have hnil : cursor.defined = [] := List.length_eq_zero_iff.mp (Nat.le_zero.mp hfuel)
    exact ⟨cursor, by simp [repeated.go, hnil], rfl, by simp [hnil], fun _ => rfl⟩
  | succ fuel ih =>
    rcases nextDefined_cases cursor with ⟨hnext, hnil⟩ | ⟨index, value, hnext, hfinds⟩
    . exact ⟨cursor, by simp [repeated.go, hnext, hnil], rfl, by simp [hnil], fun _ => rfl⟩
    . by_cases htype : value.typeCode = expected
      . have hlength : (⟨cursor.values, index + 1⟩ : Cursor).defined.length ≤ fuel := by
          have hdefined := congrArg List.length hfinds.defined
          rw [List.length_cons] at hdefined
          omega
        obtain ⟨next, hgo, hvalues, hdefined, _⟩ := ih hlength
        refine ⟨next, ?_, hvalues, ?_, ?_⟩
        . unfold repeated.go
          rw [hnext]
          dsimp only
          rw [if_pos htype, hgo]
          simp [hfinds.defined, htype]
        . simp [hfinds.defined, htype, hdefined]
        . intro hhead
          exact absurd htype (hhead value (by simp [hfinds.defined]))
      . refine ⟨cursor, ?_, rfl, ?_, fun _ => rfl⟩
        . unfold repeated.go
          rw [hnext]
          dsimp only
          rw [if_neg htype]
          simp [hfinds.defined, htype]
        . simp [hfinds.defined, htype]

theorem length_defined_le (cursor : Cursor) : cursor.defined.length ≤ cursor.values.length := by
  unfold Cursor.defined
  have hfilter := List.length_filter_le (fun value : OwnedTlv => Types.isDefined value.typeCode)
    (cursor.values.drop cursor.index)
  rw [List.length_drop] at hfilter
  omega

theorem repeated_eq (expected : UInt64) (cursor : Cursor)
    : ∃ next : Cursor, repeated expected cursor =
          .ok (cursor.defined.takeWhile (fun value => value.typeCode = expected), next) ∧
        next.values = cursor.values ∧
        next.defined = cursor.defined.dropWhile (fun value => value.typeCode = expected) ∧
        ((∀ value ∈ cursor.defined.head?, value.typeCode ≠ expected) → next = cursor) := by
  obtain ⟨next, hgo, hrest⟩ := repeated_go_eq (length_defined_le cursor)
  exact ⟨next, by rw [repeated, hgo], hrest⟩

theorem repeated_run {values : List OwnedTlv} {next : Cursor}
    (h : repeated expected cursor = .ok (values, next))
    : cursor.defined = values ++ next.defined ∧ (∀ value ∈ values, value.typeCode = expected) ∧
        (∀ value ∈ next.defined.head?, value.typeCode ≠ expected) ∧ (values = [] → next = cursor) := by
  obtain ⟨next', heq, _, hdefined, hsame⟩ := repeated_eq expected cursor
  rw [heq] at h
  cases h
  refine ⟨?_, ?_, ?_, ?_⟩
  . rw [hdefined, List.takeWhile_append_dropWhile]
  . intro value hmem
    simpa using List.mem_takeWhile_imp hmem
  . intro value hmem
    rw [hdefined] at hmem
    have hnot := List.head?_dropWhile_not (fun value : OwnedTlv => decide (value.typeCode = expected))
      cursor.defined
    rw [Option.mem_def.mp hmem] at hnot
    simpa using hnot
  . intro hnil
    apply hsame
    intro value hmem htype
    cases hcursor : cursor.defined with
    | nil => simp [hcursor] at hmem
    | cons first others =>
      rw [hcursor, List.head?_cons, Option.mem_def, Option.some.injEq] at hmem
      subst hmem
      simp [hcursor, htype] at hnil

theorem repeated_of_defined {values rest : List OwnedTlv} (h : cursor.defined = values ++ rest)
    (htype : ∀ value ∈ values, value.typeCode = expected)
    (hrest : ∀ value ∈ rest.head?, value.typeCode ≠ expected)
    : ∃ next : Cursor, repeated expected cursor = .ok (values, next) ∧ next.values = cursor.values ∧
        next.defined = rest ∧ (values = [] → next = cursor) := by
  have hhead : rest.takeWhile (fun value => value.typeCode = expected) = [] := by
    cases rest with
    | nil => rfl
    | cons first others => simpa using hrest first rfl
  have htake : cursor.defined.takeWhile (fun value => value.typeCode = expected) = values := by
    rw [h, List.takeWhile_append_of_pos]
    . rw [hhead, List.append_nil]
    . intro value hmem
      simpa using htype value hmem
  have hdrop : cursor.defined.dropWhile (fun value => value.typeCode = expected) = rest := by
    have hsplit := List.takeWhile_append_dropWhile (p := fun value : OwnedTlv => value.typeCode = expected)
      (l := cursor.defined)
    rw [htake, h] at hsplit
    rw [h]
    exact List.append_cancel_left hsplit
  obtain ⟨next, heq, hvalues, hdefined, hsame⟩ := repeated_eq expected cursor
  rw [htake] at heq
  rw [hdrop] at hdefined
  refine ⟨next, heq, hvalues, hdefined, ?_⟩
  rintro rfl
  apply hsame
  rw [h]
  exact hrest

end Defined

/--
What a reader has passed on its way from a cursor to the next: of the defined types, only these.
-/
structure Passes (types : List UInt64) (cursor next : Cursor) : Prop where
  values : next.values = cursor.values
  le : cursor.index ≤ next.index
  passed : ∀ j value, cursor.index ≤ j → j < next.index → cursor.values[j]? = some value →
    Types.isDefined value.typeCode = true → value.typeCode ∈ types

section Passes

variable {types : List UInt64} {cursor mid next : Cursor}

theorem Passes.refl (types : List UInt64) (cursor : Cursor) : Passes types cursor cursor where
  values := rfl
  le := Nat.le_refl _
  passed := by
    intro j value hle hlt
    omega

theorem Passes.trans (h : Passes types cursor mid) (h' : Passes types mid next)
    : Passes types cursor next where
  values := h'.values.trans h.values
  le := Nat.le_trans h.le h'.le
  passed := by
    intro j value hle hlt hvalue hdefined
    by_cases hj : j < mid.index
    . exact h.passed j value hle hj hvalue hdefined
    . exact h'.passed j value (Nat.le_of_not_lt hj) hlt (by rw [h.values]; exact hvalue) hdefined

theorem Passes.mono {types' : List UInt64} (h : Passes types cursor next) (hsub : types ⊆ types')
    : Passes types' cursor next where
  values := h.values
  le := h.le
  passed := by
    intro j value hle hlt hvalue hdefined
    exact hsub (h.passed j value hle hlt hvalue hdefined)

theorem Finds.passes {index : Nat} {value : OwnedTlv} (h : cursor.Finds index value)
    (hmem : value.typeCode ∈ types)
    : Passes types cursor ⟨cursor.values, index + 1⟩ where
  values := rfl
  le := Nat.le_succ_of_le h.skips.1
  passed := by
    intro j other hle hlt hother hdefined
    by_cases hj : j = index
    . subst hj
      rw [h.here, Option.some.injEq] at hother
      subst hother
      exact hmem
    . dsimp only at hlt
      rw [h.skips.2 j hle (by omega) other hother] at hdefined
      cases hdefined

theorem passes_take {expected : UInt64} {name : String} {entry : Nat × OwnedTlv} (hmem : expected ∈ types)
    (h : take expected name cursor = .ok (entry, next))
    : Passes types cursor next := by
  obtain ⟨rfl, hfinds, rfl⟩ := take_run h
  exact hfinds.passes hmem

theorem passes_optional {expected : UInt64} {entry : Option (Nat × OwnedTlv)} (hmem : expected ∈ types)
    (h : optional expected cursor = .ok (entry, next))
    : Passes types cursor next := by
  rcases optional_run h with ⟨_, rfl, _⟩ | ⟨index, value, _, rfl, hfinds, rfl⟩
  . exact Passes.refl types next
  . exact hfinds.passes hmem

theorem passes_repeated_go {expected : UInt64} (hmem : expected ∈ types) (fuel : Nat) (cursor : Cursor)
    : Passes types cursor (repeated.go expected fuel cursor).2 := by
  induction fuel generalizing cursor with
  | zero => exact Passes.refl types cursor
  | succ fuel ih =>
    unfold repeated.go
    rcases nextDefined_cases cursor with ⟨hnext, _⟩ | ⟨index, value, hnext, hfinds⟩
    . rw [hnext]
      exact Passes.refl types cursor
    . rw [hnext]
      dsimp only
      split
      . next htype => exact (hfinds.passes (htype ▸ hmem)).trans (ih _)
      . exact Passes.refl types cursor

theorem passes_repeated {expected : UInt64} {values : List OwnedTlv} (hmem : expected ∈ types)
    (h : repeated expected cursor = .ok (values, next))
    : Passes types cursor next := by
  have hpasses := passes_repeated_go hmem cursor.values.length cursor
  injection h with h
  rw [h] at hpasses
  exact hpasses

theorem conditionalPublicKey_run {address : Address} {key : Option OwnedTlv}
    (h : conditionalPublicKey address cursor = .ok (key, next))
    : (address.isAnonymous = false ∧ key = none ∧ next = cursor ∧
        ∀ value, cursor.values[cursor.index]? = some value → value.typeCode ≠ Types.publicKey) ∨
      ∃ value, address.isAnonymous = true ∧ key = some value ∧
        cursor.values[cursor.index]? = some value ∧ value.typeCode = Types.publicKey ∧
        next = ⟨cursor.values, cursor.index + 1⟩ := by
  unfold conditionalPublicKey at h
  split at h
  . cases h
  . cases h
  . next value hanonymous hfilter =>
    cases h
    rw [Option.filter_eq_some_iff] at hfilter
    exact .inr ⟨value, hanonymous, rfl, hfilter.1, by simpa using hfilter.2, rfl⟩
  . next hlisted hfilter =>
    cases h
    refine .inl ⟨hlisted, rfl, rfl, ?_⟩
    rw [Option.filter_eq_none_iff] at hfilter
    intro value hvalue
    simpa using hfilter value hvalue

theorem passes_conditionalPublicKey {address : Address} {key : Option OwnedTlv}
    (hmem : Types.publicKey ∈ types) (h : conditionalPublicKey address cursor = .ok (key, next))
    : Passes types cursor next := by
  rcases conditionalPublicKey_run h with ⟨_, _, rfl, _⟩ | ⟨value, _, _, hvalue, htype, rfl⟩
  . exact Passes.refl types next
  . refine ⟨rfl, Nat.le_succ _, ?_⟩
    intro j other hle hlt hother _
    dsimp only at hlt
    obtain rfl : j = cursor.index := by omega
    rw [hvalue, Option.some.injEq] at hother
    rw [← hother, htype]
    exact hmem

theorem Passes.all (h : Passes types cursor next) (hnil : next.defined = []) {j : Nat} {value : OwnedTlv}
    (hle : cursor.index ≤ j) (hvalue : cursor.values[j]? = some value)
    (hdefined : Types.isDefined value.typeCode = true)
    : value.typeCode ∈ types := by
  -- At the end of the children, everything has been passed.
  by_cases hlt : j < next.index
  . exact h.passed j value hle hlt hvalue hdefined
  . have hlast : value ∈ next.defined := by
      apply List.mem_filter.mpr
      refine ⟨?_, hdefined⟩
      rw [h.values, List.mem_iff_getElem?]
      refine ⟨j - next.index, ?_⟩
      rw [List.getElem?_drop, Nat.add_sub_cancel' (Nat.le_of_not_lt hlt)]
      exact hvalue
    rw [hnil] at hlast
    cases hlast

theorem Passes.mem (h : Passes types cursor next) (hnil : next.defined = [])
    : ∀ value ∈ cursor.defined, value.typeCode ∈ types := by
  intro value hmem
  obtain ⟨hdrop, hdefined⟩ := List.mem_filter.mp hmem
  obtain ⟨i, hi⟩ := List.getElem?_of_mem hdrop
  rw [List.getElem?_drop] at hi
  exact h.all hnil (Nat.le_add_right _ _) hi hdefined

end Passes

end Cursor

end Tith
