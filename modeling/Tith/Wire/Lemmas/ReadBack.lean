import Tith.Wire.BuildItem
import Tith.Wire.Lemmas.Build
import Tith.Wire.Lemmas.ReadItem

/-!
This module contains rules for the readers of values that were just built: what a reader takes from the
children, and that it leaves the children behind them.
-/

namespace Tith

open Cursor StateExcept

/--
The reader takes the part and returns the value, wherever the part and the rest are.
-/
def ReadsBack (reader : Reader α) (part rest : List OwnedTlv) (a : α) : Prop :=
  ∀ values index, values.drop index = part ++ rest →
    reader ⟨values, index⟩ = .ok (a, ⟨values, index + part.length⟩)

def Avoids (types : List UInt64) (rest : List OwnedTlv) : Prop :=
  ∀ value ∈ rest.head?, Types.isDefined value.typeCode = true ∧ value.typeCode ∉ types

def Kinds (types : List UInt64) (part : List OwnedTlv) : Prop := ∀ value ∈ part, value.typeCode ∈ types

/--
The kinds are assigned, and are not among the types.
-/
def areOther (types kinds : List UInt64) : Bool :=
  kinds.all (fun kind => Types.isDefined kind && !types.contains kind)

/--
What is written is a value of the type, and what was written is read from it.
-/
def Codec (typeCode : UInt64) (encode : α → Except BundleError OwnedTlv)
    (decode : OwnedTlv → Except BundleError α)
    : Prop :=
  ∀ a tlv, encode a = .ok tlv → tlv.typeCode = typeCode ∧ decode tlv = .ok a

section Kinds

variable {types types' : List UInt64} {part more rest : List OwnedTlv}

theorem Kinds.append (h : Kinds types part) (h' : Kinds types more) : Kinds types (part ++ more) := by
  intro value hmem
  rcases List.mem_append.mp hmem with hmem | hmem
  . exact h value hmem
  . exact h' value hmem

theorem Kinds.mono (h : Kinds types part) (hsub : types ⊆ types') : Kinds types' part := by
  intro value hmem
  exact hsub (h value hmem)

theorem Kinds.nonzero (h : Kinds types part) (hzero : 0 ∉ types) : ∀ value ∈ part, value.typeCode ≠ 0 := by
  intro value hmem hvalue
  exact hzero (hvalue ▸ h value hmem)

theorem Avoids.nil (types : List UInt64) : Avoids types [] := by
  simp [Avoids]

theorem Avoids.mono (h : Avoids types' rest) (hsub : types ⊆ types') : Avoids types rest := by
  intro value hmem
  obtain ⟨hdefined, hnot⟩ := h value hmem
  exact ⟨hdefined, fun htype => hnot (hsub htype)⟩

theorem Kinds.avoids_append {kinds : List UInt64} (h : Kinds kinds part)
    (hkinds : areOther types kinds = true) (hrest : Avoids types rest)
    : Avoids types (part ++ rest) := by
  cases part with
  | nil => exact hrest
  | cons first others =>
    intro value hmem
    obtain rfl : first = value := by simpa using hmem
    have hother := List.all_eq_true.mp hkinds _ (h first (by simp))
    simpa using hother

theorem avoids_cons {kind : UInt64} {value : OwnedTlv} (htype : value.typeCode = kind)
    (hkind : areOther types [kind] = true) (rest : List OwnedTlv)
    : Avoids types (value :: rest) := by
  intro other hmem
  obtain rfl : value = other := by simpa using hmem
  rw [htype]
  simpa [areOther] using hkind

theorem Codec.kinds {typeCode : UInt64} {encode : α → Except BundleError OwnedTlv}
    {decode : OwnedTlv → Except BundleError α} (hcodec : Codec typeCode encode decode) {values : List α}
    (h : values.mapM encode = .ok part)
    : Kinds [typeCode] part := by
  intro tlv hmem
  obtain ⟨a, _, ha⟩ := Except.mapM_mem h hmem
  exact List.mem_singleton.mpr (hcodec a tlv ha).1

end Kinds

section Rules

variable {α β : Type} {part more rest : List OwnedTlv}

theorem readsBack_pure (a : α) (rest : List OwnedTlv) : ReadsBack (pure a) [] rest a := by
  intro values index _
  rfl

theorem ReadsBack.bind {m : Reader α} {f : α → Reader β} {a : α} {b : β}
    (hm : ReadsBack m part (more ++ rest) a) (hf : ReadsBack (f a) more rest b)
    : ReadsBack (m >>= f) (part ++ more) rest b := by
  intro values index hdrop
  rw [List.append_assoc] at hdrop
  have hnext : values.drop (index + part.length) = more ++ rest := by
    rw [← List.drop_drop, hdrop, List.drop_left]
  rw [bind_of_ok (hm values index hdrop), hf values _ hnext, List.length_append, Nat.add_assoc]

theorem ReadsBack.last {m : Reader α} {f : α → Reader β} {a : α} {b : β} (hm : ReadsBack m part rest a)
    (hf : ReadsBack (f a) [] rest b)
    : ReadsBack (m >>= f) part rest b := by
  have hbind : ReadsBack (m >>= f) (part ++ []) rest b := ReadsBack.bind hm hf
  rwa [List.append_nil] at hbind

theorem ReadsBack.lift {x : Except BundleError α} {f : α → Reader β} {a : α} {b : β} (hx : x = .ok a)
    (hf : ReadsBack (f a) part rest b)
    : ReadsBack (liftM x >>= f) part rest b := by
  intro values index hdrop
  rw [bind_of_ok (lift_of_ok hx)]
  exact hf values index hdrop

theorem getElem?_of_drop {values : List OwnedTlv} {index : Nat} {value : OwnedTlv}
    (h : values.drop index = value :: rest)
    : values[index]? = some value := by
  rw [← List.head?_drop, h]
  rfl

theorem defined_of_avoids {values : List OwnedTlv} {index : Nat} {typeCode : UInt64}
    (h : values.drop index = rest) (hrest : Avoids [typeCode] rest)
    : ∀ value ∈ (⟨values, index⟩ : Cursor).defined.head?, value.typeCode ≠ typeCode := by
  intro value hmem
  unfold Cursor.defined at hmem
  dsimp only at hmem
  rw [h] at hmem
  cases rest with
  | nil => simp at hmem
  | cons first others =>
    obtain ⟨hdefined, hnot⟩ := hrest first (by simp)
    simp only [List.filter_cons, hdefined, if_true, List.head?_cons, Option.mem_def, Option.some.injEq] at hmem
    rw [← hmem]
    simpa using hnot

variable {typeCode : UInt64} {decode : OwnedTlv → Except BundleError α}

theorem readsBack_take {name : String} {value : OwnedTlv} {f : Nat × OwnedTlv → Reader α} {a : α}
    (htype : value.typeCode = typeCode) (hdefined : Types.isDefined typeCode = true)
    (hf : ∀ index, ReadsBack (f (index, value)) more rest a)
    : ReadsBack (take typeCode name >>= f) (value :: more) rest a := by
  intro values index hdrop
  rw [List.cons_append] at hdrop
  rw [bind_of_ok (take_of_getElem (getElem?_of_drop hdrop) htype hdefined)]
  have hnext : values.drop (index + 1) = more ++ rest := by
    rw [← List.drop_drop, hdrop]
    rfl
  rw [hf index values _ hnext, List.length_cons, Nat.add_assoc, Nat.add_comm 1]

theorem readsBack_lift {x : Except BundleError α} {a : α} (h : x = .ok a) (rest : List OwnedTlv)
    : ReadsBack (liftM x) [] rest a := by
  intro values index _
  exact lift_of_ok h

theorem repeated_go_of_drop {values : List OwnedTlv} {index fuel : Nat}
    (hdrop : values.drop index = part ++ rest) (htype : Kinds [typeCode] part)
    (hdefined : Types.isDefined typeCode = true) (hrest : Avoids [typeCode] rest)
    (hfuel : part.length ≤ fuel)
    : repeated.go typeCode fuel ⟨values, index⟩ = (part, ⟨values, index + part.length⟩) := by
  induction part generalizing index fuel with
  | nil =>
    have hhead := defined_of_avoids hdrop hrest
    unfold repeated.go
    cases fuel with
    | zero => rfl
    | succ fuel =>
      rcases nextDefined_cases ⟨values, index⟩ with ⟨hnext, _⟩ | ⟨next, value, hnext, hfinds⟩
      . rw [hnext]
        rfl
      . rw [hnext]
        dsimp only
        rw [if_neg]
        . rfl
        . exact hhead value (by simp [hfinds.defined])
  | cons value part ih =>
    obtain ⟨fuel, rfl⟩ : ∃ fuel', fuel = fuel' + 1 := ⟨fuel - 1, by rw [List.length_cons] at hfuel; omega⟩
    have hvalue : value.typeCode = typeCode := List.mem_singleton.mp (htype value (by simp))
    have hnext : values.drop (index + 1) = part ++ rest := by
      rw [← List.drop_drop, hdrop]
      rfl
    have hfew : part.length ≤ fuel := by
      rw [List.length_cons] at hfuel
      omega
    have hgo := ih hnext (fun other hmem => htype other (by simp [hmem])) hfew
    unfold repeated.go
    rw [nextDefined_of_getElem (getElem?_of_drop hdrop) (by rw [hvalue]; exact hdefined)]
    dsimp only
    rw [if_pos hvalue, hgo, List.length_cons, Nat.add_assoc, Nat.add_comm 1]

theorem readsBack_finish : ReadsBack finish [] [] () := by
  intro values index hdrop
  apply finish_of_length_le
  exact List.drop_eq_nil_iff.mp hdrop

theorem read_of_readsBack {value : OwnedTlv} {children : List OwnedTlv} {reader : List OwnedTlv → Reader α}
    {a : α} (hchildren : parseChildren value.value = .ok children)
    (h : ReadsBack (reader children) children [] a)
    : Cursor.read value reader = .ok a := by
  unfold Cursor.read
  rw [hchildren, Except.bind_of_ok, Cursor.new, h children 0 (by simp)]
  rfl

end Rules

/--
The reader takes the part, whose children have these kinds, unless a child of one of the types follows.
-/
structure Field (reader : Reader α) (types kinds : List UInt64) (part : List OwnedTlv) (a : α) : Prop where
  kinds : Kinds kinds part
  reads : ∀ rest, Avoids types rest → ReadsBack reader part rest a

section Fields

variable {α β : Type} {types types' kinds kinds' : List UInt64} {part part' : List OwnedTlv} {typeCode : UInt64}

theorem Field.bind {m : Reader α} {f : α → Reader β} {a : α} {b : β} (hm : Field m types kinds part a)
    (hf : Field (f a) types' kinds' part' b) (hother : areOther types kinds' = true)
    : Field (m >>= f) (types ++ types') (kinds ++ kinds') (part ++ part') b where
  kinds := (hm.kinds.mono (List.subset_append_left _ _)).append (hf.kinds.mono (List.subset_append_right _ _))
  reads := by
    intro rest hrest
    have hlast := hf.reads rest (hrest.mono (List.subset_append_right _ _))
    have hfirst := hm.reads (part' ++ rest)
      (hf.kinds.avoids_append hother (hrest.mono (List.subset_append_left _ _)))
    exact hfirst.bind hlast

theorem Field.last {m : Reader α} {f : α → Reader β} {a : α} {b : β} (hm : Field m types kinds part a)
    (hf : f a = pure b)
    : Field (m >>= f) types kinds part b where
  kinds := hm.kinds
  reads := by
    intro rest hrest
    apply (hm.reads rest hrest).last
    rw [hf]
    exact readsBack_pure b rest

theorem Field.take {name : String} {value : OwnedTlv} {f : Nat × OwnedTlv → Reader α} {a : α}
    (htype : value.typeCode = typeCode) (hdefined : Types.isDefined typeCode = true)
    (hf : ∀ index, Field (f (index, value)) types kinds part a)
    : Field (take typeCode name >>= f) types (typeCode :: kinds) (value :: part) a where
  kinds := by
    have hvalue : Kinds (typeCode :: kinds) [value] := by simp [Kinds, htype]
    exact hvalue.append ((hf 0).kinds.mono (List.subset_cons_self _ _))
  reads := by
    intro rest hrest
    exact readsBack_take htype hdefined (fun index => (hf index).reads rest hrest)

theorem field_pure (a : α) : Field (pure a) [] [] [] a where
  kinds := by simp [Kinds]
  reads := by
    intro rest _
    exact readsBack_pure a rest

theorem field_lift {x : Except BundleError α} {a : α} (h : x = .ok a) : Field (liftM x) [] [] [] a where
  kinds := by simp [Kinds]
  reads := by
    intro rest _
    exact readsBack_lift h rest

theorem field_takeNumber {name : String} {number : UInt64} {value : OwnedTlv}
    (hdefined : Types.isDefined typeCode = true) (h : numberTlv typeCode number = .ok value)
    : Field (takeNumber typeCode name) [] [typeCode] [value] number := by
  obtain ⟨htype, hvalue⟩ := assigned_ok h
  exact Field.take htype hdefined (fun _ => field_lift (numberValue_encodeU64 hvalue))

theorem field_takeText {name text : String} {value : OwnedTlv} (hdefined : Types.isDefined typeCode = true)
    (h : textTlv typeCode text = .ok value)
    : Field (takeText typeCode name) [] [typeCode] [value] text := by
  obtain ⟨htype, hvalue⟩ := assigned_ok h
  apply Field.take htype hdefined
  intro _
  apply field_lift
  rw [textValue, hvalue, Bytes.toString?_ofString, Option.okOr_some]

variable {encode : α → Except BundleError OwnedTlv} {decode : OwnedTlv → Except BundleError α}

theorem field_optionalValue_none : Field (optionalValue typeCode decode) [typeCode] [typeCode] [] none where
  kinds := by simp [Kinds]
  reads := by
    intro rest hrest values index hdrop
    exact optionalValue_eq_none (defined_of_avoids hdrop hrest)

theorem field_optionalValue_some {tlv : OwnedTlv} {a : α} (hdefined : Types.isDefined typeCode = true)
    (htype : tlv.typeCode = typeCode) (hdecode : decode tlv = .ok a)
    : Field (optionalValue typeCode decode) [typeCode] [typeCode] [tlv] (some a) where
  kinds := by simp [Kinds, htype]
  reads := by
    intro rest _ values index hdrop
    apply optionalValue_run.mpr
    right
    exact ⟨_, a, optional_of_getElem (getElem?_of_drop hdrop) htype hdefined, hdecode, rfl⟩

theorem field_optionalValue (hcodec : Codec typeCode encode decode)
    (hdefined : Types.isDefined typeCode = true) {value : Option α}
    (h : optionalTlv value encode = .ok part)
    : Field (optionalValue typeCode decode) [typeCode] [typeCode] part value := by
  cases value with
  | none =>
    cases h
    exact field_optionalValue_none
  | some a =>
    simp only [optionalTlv, Except.bind_ok_iff, Except.ok.injEq] at h
    obtain ⟨tlv, htlv, rfl⟩ := h
    obtain ⟨htype, hdecode⟩ := hcodec a tlv htlv
    exact field_optionalValue_some hdefined htype hdecode

theorem field_optionalText {text : Option String} {encode : String → Except BundleError OwnedTlv}
    (hcodec : Codec typeCode encode textValue) (hdefined : Types.isDefined typeCode = true)
    (h : optionalTlv text encode = .ok part)
    : Field (optionalText typeCode) [typeCode] [typeCode] part text := by
  rw [optionalText_eq]
  exact field_optionalValue hcodec hdefined h

theorem field_repeated {list : List α} (hdefined : Types.isDefined typeCode = true)
    (hkinds : Kinds [typeCode] part) (hread : part.mapM decode = .ok list)
    : Field (repeatedValues typeCode decode) [typeCode] [typeCode] part list where
  kinds := hkinds
  reads := by
    intro rest hrest values index hdrop
    have hlength : part.length ≤ values.length := by
      have hdropped := congrArg List.length hdrop
      rw [List.length_drop, List.length_append] at hdropped
      omega
    apply repeatedValues_run.mpr
    refine ⟨part, ?_, hread⟩
    rw [repeated, repeated_go_of_drop hdrop hkinds hdefined hrest hlength]

theorem field_repeatedValues (hcodec : Codec typeCode encode decode)
    (hdefined : Types.isDefined typeCode = true) {list : List α} (h : list.mapM encode = .ok part)
    : Field (repeatedValues typeCode decode) [typeCode] [typeCode] part list := by
  apply field_repeated hdefined (hcodec.kinds h)
  exact Except.mapM_inverse (fun a tlv htlv => (hcodec a tlv htlv).2) h

/--
The reader takes all the children.
-/
structure ReadsOut (reader : Reader α) (kinds : List UInt64) (part : List OwnedTlv) (a : α) : Prop where
  kinds : Kinds kinds part
  reads : ReadsBack reader part [] a

theorem closes_finish (a : α)
    : ReadsOut (do
        finish
        return a) [] [] a where
  kinds := by simp [Kinds]
  reads := readsBack_finish.last (readsBack_pure a [])

theorem Field.close {m : Reader α} {f : α → Reader β} {a : α} {b : β} (hm : Field m types kinds part a)
    (hf : ReadsOut (f a) kinds' part' b) (hother : areOther types kinds' = true)
    : ReadsOut (m >>= f) (kinds ++ kinds') (part ++ part') b where
  kinds := (hm.kinds.mono (List.subset_append_left _ _)).append (hf.kinds.mono (List.subset_append_right _ _))
  reads := by
    have hrest := hf.kinds.avoids_append hother (Avoids.nil types)
    exact (hm.reads _ hrest).bind hf.reads

theorem Field.finish {m : Reader α} {f : α → β} {a : α} (hm : Field m types kinds part a)
    : ReadsOut (do
        let a ← m
        Cursor.finish
        return f a) kinds part (f a) where
  kinds := hm.kinds
  reads := (hm.reads [] (Avoids.nil types)).last (closes_finish (f a)).reads

theorem ReadsOut.read {value : OwnedTlv} {children : List OwnedTlv} {reader : List OwnedTlv → Reader α} {a : α}
    (kinds : List UInt64) (h : ReadsOut (reader children) kinds children a)
    (hvalue : value.value = concatenate children)
    (hzero : kinds.contains 0 = false)
    : Cursor.read value reader = .ok a := by
  apply read_of_readsBack _ h.reads
  rw [hvalue]
  apply parseChildren_concatenate
  apply h.kinds.nonzero
  simpa using hzero

end Fields

end Tith
