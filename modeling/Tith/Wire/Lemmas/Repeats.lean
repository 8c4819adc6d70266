import Tith.Wire.Lemmas.ReadItem

/-!
This module contains what the readers find child by child: the next child of a defined type, and the
children that a repeated field takes.
-/

namespace Tith

open Cursor

namespace Cursor

theorem finds_of_skips {cursor : Cursor} {index : Nat} {value : OwnedTlv} (hskips : cursor.Skips index)
    (here : cursor.values[index]? = some value) (isDefined : Types.isDefined value.typeCode = true)
    : cursor.Finds index value := by
  rcases nextDefined_cases cursor with ⟨_, hnil⟩ | ⟨found, other, _, hfinds⟩
  . have hmem : value ∈ cursor.defined := by
      apply List.mem_filter.mpr
      refine ⟨?_, isDefined⟩
      rw [List.mem_iff_getElem?]
      refine ⟨index - cursor.index, ?_⟩
      rw [List.getElem?_drop, Nat.add_sub_cancel' hskips.1]
      exact here
    rw [hnil] at hmem
    cases hmem
  . have hle : found ≤ index := by
      by_contra hlt
      have hunknown := hfinds.skips.2 index hskips.1 (Nat.lt_of_not_le hlt) value here
      rw [isDefined] at hunknown
      cases hunknown
    have hge : index ≤ found := by
      by_contra hlt
      have hunknown := hskips.2 found hfinds.skips.1 (Nat.lt_of_not_le hlt) other hfinds.here
      rw [hfinds.isDefined] at hunknown
      cases hunknown
    obtain rfl : found = index := Nat.le_antisymm hle hge
    obtain rfl : other = value := Option.some.inj (hfinds.here.symm.trans here)
    exact hfinds

end Cursor

inductive Repeats (expected : UInt64) : Cursor → List OwnedTlv → Cursor → Prop where
  | nil {cursor : Cursor} (hhead : ∀ value ∈ cursor.defined.head?, value.typeCode ≠ expected)
      : Repeats expected cursor [] cursor
  | cons {cursor next : Cursor} {index : Nat} {value : OwnedTlv} {rest : List OwnedTlv}
      (hfinds : cursor.Finds index value) (htype : value.typeCode = expected)
      (hrest : Repeats expected ⟨cursor.values, index + 1⟩ rest next)
      : Repeats expected cursor (value :: rest) next

theorem repeats_go (expected : UInt64) {fuel : Nat} {cursor : Cursor} (hfuel : cursor.defined.length ≤ fuel)
    : Repeats expected cursor (repeated.go expected fuel cursor).1 (repeated.go expected fuel cursor).2 := by
  induction fuel generalizing cursor with
  | zero =>
    apply Repeats.nil
    rw [List.length_eq_zero_iff.mp (Nat.le_zero.mp hfuel)]
    simp
  | succ fuel ih =>
    unfold repeated.go
    rcases nextDefined_cases cursor with ⟨hnext, hnil⟩ | ⟨index, value, hnext, hfinds⟩
    . rw [hnext]
      apply Repeats.nil
      simp [hnil]
    . rw [hnext]
      dsimp only
      split
      . next htype =>
        refine .cons hfinds htype (ih ?_)
        have hlength := congrArg List.length hfinds.defined
        rw [List.length_cons] at hlength
        omega
      . next htype =>
        apply Repeats.nil
        rw [hfinds.defined]
        simpa using htype

theorem repeated_go_of_repeats {expected : UInt64} {fuel : Nat} {cursor next : Cursor} {values : List OwnedTlv}
    (h : Repeats expected cursor values next) (hfuel : values.length ≤ fuel)
    : repeated.go expected fuel cursor = (values, next) := by
  induction h generalizing fuel with
  | @nil cursor hhead =>
    unfold repeated.go
    rcases nextDefined_cases cursor with ⟨hnext, _⟩ | ⟨index, value, hnext, hfinds⟩
    . rw [hnext]
      cases fuel <;> rfl
    . rw [hnext]
      cases fuel with
      | zero => rfl
      | succ fuel =>
        dsimp only
        rw [if_neg]
        exact hhead value (by rw [hfinds.defined]; rfl)
  | cons hfinds htype _ ih =>
    cases fuel with
    | zero => simp at hfuel
    | succ fuel =>
      unfold repeated.go
      rw [hfinds.nextDefined]
      dsimp only
      rw [if_pos htype, ih (by simpa using hfuel)]

theorem Repeats.length_le {expected : UInt64} {cursor next : Cursor} {values : List OwnedTlv}
    (h : Repeats expected cursor values next)
    : values.length ≤ cursor.defined.length := by
  induction h with
  | nil => exact Nat.zero_le _
  | cons hfinds _ _ ih =>
    rw [hfinds.defined, List.length_cons, List.length_cons]
    omega

theorem repeated_iff {expected : UInt64} {cursor next : Cursor} {values : List OwnedTlv}
    : repeated expected cursor = .ok (values, next) ↔ Repeats expected cursor values next := by
  constructor
  . intro h
    have hrepeats := repeats_go expected (length_defined_le cursor)
    rw [Except.ok.inj h] at hrepeats
    exact hrepeats
  . intro h
    rw [repeated, repeated_go_of_repeats h (Nat.le_trans h.length_le (length_defined_le cursor))]

end Tith
