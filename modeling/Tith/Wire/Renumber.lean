import Tith.Wire.Carrier
import Tith.Wire.IntegerCodec
import Tith.Wire.Lemmas.Carrier
import Tith.Wire.Lemmas.Repeats

/-!
This module contains the proof that an item with its identifier set anew is the same item under the new
identifier. Up to the identifier, and behind it, the readers see the same children.
-/

namespace Tith

open Cursor StateExcept

/--
No child from the first position up to the second one is an identifier.
-/
def Clear (values : List OwnedTlv) (first last : Nat) : Prop :=
  ∀ k, first ≤ k → k < last → ∀ value, values[k]? = some value → value.typeCode ≠ Types.requestIdentifier

theorem Clear.refl (values : List OwnedTlv) (i : Nat) : Clear values i i := by
  intro k hle hlt
  omega

theorem Clear.trans {values : List OwnedTlv} {i j k : Nat} (h : Clear values i j) (h' : Clear values j k)
    : Clear values i k := by
  intro position hle hlt
  by_cases hj : position < j
  . exact h position hle hj
  . exact h' position (Nat.le_of_not_lt hj) hlt

theorem Cursor.Finds.clear {values : List OwnedTlv} {i index : Nat} {value : OwnedTlv}
    (h : Finds ⟨values, i⟩ index value)
    : Clear values i index := by
  intro k hle hlt other hother htype
  have hunknown := h.skips.2 k hle hlt other hother
  rw [htype] at hunknown
  cases hunknown

theorem Cursor.Finds.clear_succ {values : List OwnedTlv} {i index : Nat} {value : OwnedTlv}
    (h : Finds ⟨values, i⟩ index value) (htype : value.typeCode ≠ Types.requestIdentifier)
    : Clear values i (index + 1) := by
  apply h.clear.trans
  intro k hle hlt other hother
  obtain rfl : k = index := by omega
  rw [h.here, Option.some.injEq] at hother
  rw [← hother]
  exact htype

section Set

variable {n : UInt64}

@[simp]
theorem typeCode_setIdentifier (n : UInt64) (child : OwnedTlv) : (setIdentifier n child).typeCode = child.typeCode := by
  unfold setIdentifier
  split
  . rfl
  . rfl

theorem setIdentifier_of_ne {child : OwnedTlv} (h : child.typeCode ≠ Types.requestIdentifier)
    : setIdentifier n child = child := if_neg h

theorem map_setIdentifier_of_ne {values : List OwnedTlv}
    (h : ∀ value ∈ values, value.typeCode ≠ Types.requestIdentifier)
    : values.map (setIdentifier n) = values := by
  conv_rhs => rw [← List.map_id values]
  apply List.map_congr_left
  intro value hvalue
  exact setIdentifier_of_ne (h value hvalue)

theorem numberValue_setIdentifier {child : OwnedTlv} (h : child.typeCode = Types.requestIdentifier)
    : numberValue (setIdentifier n child) = .ok n := by
  simp [numberValue, setIdentifier, h, decodeU64_encodeU64, Except.mapError]

theorem finds_map {values : List OwnedTlv} {i index : Nat} {value : OwnedTlv} (h : Finds ⟨values, i⟩ index value)
    : Finds ⟨values.map (setIdentifier n), i⟩ index (setIdentifier n value) := by
  apply finds_of_skips
  . refine ⟨h.skips.1, ?_⟩
    intro j hij hlt other hother
    rw [List.getElem?_map, Option.map_eq_some_iff] at hother
    obtain ⟨child, hchild, rfl⟩ := hother
    rw [typeCode_setIdentifier]
    exact h.skips.2 j hij hlt child hchild
  . have here := h.here
    dsimp only at here ⊢
    rw [List.getElem?_map, here, Option.map_some]
  . rw [typeCode_setIdentifier]
    exact h.isDefined

theorem defined_map (values : List OwnedTlv) (i : Nat)
    : (⟨values.map (setIdentifier n), i⟩ : Cursor).defined =
        (⟨values, i⟩ : Cursor).defined.map (setIdentifier n) := by
  unfold Cursor.defined
  rw [← List.map_drop, List.filter_map]
  simp only [Function.comp_def, typeCode_setIdentifier]

theorem head?_defined_map {values : List OwnedTlv} {i : Nat} {expected : UInt64}
    (h : ∀ value ∈ (⟨values, i⟩ : Cursor).defined.head?, value.typeCode ≠ expected)
    : ∀ value ∈ (⟨values.map (setIdentifier n), i⟩ : Cursor).defined.head?, value.typeCode ≠ expected := by
  intro value hvalue
  rw [defined_map, List.head?_map, Option.mem_def, Option.map_eq_some_iff] at hvalue
  obtain ⟨child, hchild, rfl⟩ := hvalue
  rw [typeCode_setIdentifier]
  exact h child hchild

theorem take_map_of_clear {values : List OwnedTlv} {index : Nat} (h : Clear values 0 index)
    : (values.map (setIdentifier n)).take index = values.take index := by
  -- The bytes in front of the first identifier stay.
  rw [← List.map_take]
  apply map_setIdentifier_of_ne
  intro value hmem
  obtain ⟨k, hk⟩ := List.getElem?_of_mem hmem
  rw [List.getElem?_take] at hk
  split at hk
  . next hlt => exact h k (Nat.zero_le k) hlt value hk
  . cases hk

end Set

/--
A reader that takes no identifier, and takes the same when the identifiers are set anew.
-/
structure Steady (n : UInt64) (m : Reader α) : Prop where
  run : ∀ {values i a next}, m ⟨values, i⟩ = .ok (a, next) →
    ∃ j, next = ⟨values, j⟩ ∧ Clear values i j ∧
      m ⟨values.map (setIdentifier n), i⟩ = .ok (a, ⟨values.map (setIdentifier n), j⟩)

section Combinators

variable {n : UInt64} {α β : Type} {expected : UInt64}

theorem steady_pure (a : α) : Steady n (pure a : Reader α) := by
  constructor
  intro values i b next h
  obtain ⟨rfl, rfl⟩ := pure_run_iff.mp h
  exact ⟨i, rfl, Clear.refl values i, rfl⟩

theorem steady_throw (e : BundleError) : Steady n (throw e : Reader α) := by
  constructor
  intro values i b next h
  exact (throw_run_iff.mp h).elim

theorem steady_lift (x : Except BundleError α) : Steady n (liftM x : Reader α) := by
  constructor
  intro values i b next h
  obtain ⟨hx, rfl⟩ := lift_run_iff.mp h
  exact ⟨i, rfl, Clear.refl values i, lift_of_ok hx⟩

theorem steady_bind {m : Reader α} {f : α → Reader β} (hm : Steady n m) (hf : ∀ a, Steady n (f a))
    : Steady n (m >>= f) := by
  constructor
  intro values i b next h
  obtain ⟨a, mid, hfirst, hrest⟩ := bind_run_iff.mp h
  obtain ⟨j, rfl, hclear, hfirst'⟩ := hm.run hfirst
  obtain ⟨k, rfl, hclear', hrest'⟩ := (hf a).run hrest
  refine ⟨k, rfl, hclear.trans hclear', ?_⟩
  rw [bind_of_ok hfirst']
  exact hrest'

theorem steady_forM {l : List β} {f : β → Reader PUnit} (hf : ∀ b ∈ l, Steady n (f b)) : Steady n (l.forM f) := by
  induction l with
  | nil => exact steady_pure _
  | cons b l ih =>
    apply steady_bind (hf b (by simp))
    intro _
    apply ih
    intro b' hb'
    exact hf b' (by simp [hb'])

theorem steady_take {name : String} (hexpected : expected ≠ Types.requestIdentifier)
    : Steady n (take expected name) := by
  constructor
  intro values i entry next h
  obtain ⟨rfl, hfinds, htype⟩ := take_run h
  have hne : entry.2.typeCode ≠ Types.requestIdentifier := htype ▸ hexpected
  have hfinds' := finds_map (n := n) hfinds
  rw [setIdentifier_of_ne hne] at hfinds'
  refine ⟨entry.1 + 1, rfl, hfinds.clear_succ hne, ?_⟩
  simp only [take, hfinds'.nextDefined]
  rw [if_pos htype]

theorem steady_optional (hexpected : expected ≠ Types.requestIdentifier) : Steady n (optional expected) := by
  constructor
  intro values i entry next h
  rcases optional_run h with ⟨rfl, rfl, hhead⟩ | ⟨index, value, rfl, rfl, hfinds, rfl⟩
  . exact ⟨i, rfl, Clear.refl values i, optional_eq_none (head?_defined_map hhead)⟩
  . have hfinds' := finds_map (n := n) hfinds
    rw [setIdentifier_of_ne hexpected] at hfinds'
    exact ⟨index + 1, rfl, hfinds.clear_succ hexpected, hfinds'.optional⟩

theorem repeats_map {cursor next : Cursor} {taken : List OwnedTlv} (h : Repeats expected cursor taken next)
    (hexpected : expected ≠ Types.requestIdentifier)
    : next.values = cursor.values ∧ Clear cursor.values cursor.index next.index ∧
        Repeats expected ⟨cursor.values.map (setIdentifier n), cursor.index⟩ taken
          ⟨cursor.values.map (setIdentifier n), next.index⟩ := by
  induction h with
  | nil hhead => exact ⟨rfl, Clear.refl _ _, .nil (head?_defined_map hhead)⟩
  | cons hfinds htype _ ih =>
    obtain ⟨hvalues, hclear, hrest⟩ := ih
    have hne := htype ▸ hexpected
    have hfinds' := finds_map (n := n) hfinds
    rw [setIdentifier_of_ne hne] at hfinds'
    exact ⟨hvalues, (hfinds.clear_succ hne).trans hclear, .cons hfinds' htype hrest⟩

theorem steady_repeated (hexpected : expected ≠ Types.requestIdentifier) : Steady n (repeated expected) := by
  constructor
  intro values i taken next h
  obtain ⟨hvalues, hclear, hrepeats⟩ := repeats_map (n := n) (repeated_iff.mp h) hexpected
  obtain ⟨_, j⟩ := next
  dsimp only at hvalues
  subst hvalues
  exact ⟨j, rfl, hclear, repeated_iff.mpr hrepeats⟩

theorem steady_conditionalPublicKey (address : Address) : Steady n (conditionalPublicKey address) := by
  constructor
  intro values i key next h
  rcases conditionalPublicKey_run h with ⟨hlisted, rfl, rfl, hother⟩ | ⟨value, hanonymous, rfl, hhere, htype, rfl⟩
  . refine ⟨i, rfl, Clear.refl values i, ?_⟩
    have hfilter : ((values.map (setIdentifier n))[i]?).filter (·.typeCode = Types.publicKey) = none := by
      rw [List.getElem?_map, Option.filter_eq_none_iff]
      intro value hvalue
      obtain ⟨child, hchild, rfl⟩ := Option.map_eq_some_iff.mp hvalue
      simpa using hother child hchild
    unfold conditionalPublicKey
    dsimp only
    rw [hlisted, hfilter]
  . have hne : value.typeCode ≠ Types.requestIdentifier := by
      rw [htype]
      decide
    refine ⟨i + 1, rfl, ?_, ?_⟩
    . intro k hle hlt other hother
      obtain rfl : k = i := by omega
      rw [hhere, Option.some.injEq] at hother
      rw [← hother]
      exact hne
    . have hfilter : ((values.map (setIdentifier n))[i]?).filter (·.typeCode = Types.publicKey) = some value := by
        rw [List.getElem?_map, hhere, Option.map_some, setIdentifier_of_ne hne, Option.filter_eq_some_iff]
        exact ⟨rfl, by simpa using htype⟩
      unfold conditionalPublicKey
      dsimp only
      rw [hanonymous, hfilter]

end Combinators

section Readers

variable {n : UInt64} {typeCode : UInt64}

theorem steady_optionalText (htype : typeCode ≠ Types.requestIdentifier) : Steady n (optionalText typeCode) := by
  unfold optionalText
  apply steady_bind (steady_optional htype)
  intro entry
  split
  . exact steady_pure _
  . apply steady_bind (steady_lift _)
    intro text
    exact steady_pure _

theorem steady_takeNumber {name : String} (htype : typeCode ≠ Types.requestIdentifier)
    : Steady n (takeNumber typeCode name) := by
  unfold takeNumber
  apply steady_bind (steady_take htype)
  intro entry
  exact steady_lift _

theorem steady_readAddressPart (value : OwnedTlv) : Steady n (readAddressPart value) := by
  unfold readAddressPart
  apply steady_bind (steady_lift _)
  intro address
  apply steady_bind (steady_conditionalPublicKey address)
  intro publicKey
  exact steady_pure _

theorem steady_optionalAddressPart (htype : typeCode ≠ Types.requestIdentifier)
    : Steady n (optionalAddressPart typeCode) := by
  unfold optionalAddressPart
  apply steady_bind (steady_optional htype)
  intro entry
  split
  . exact steady_pure _
  . apply steady_bind (steady_readAddressPart _)
    intro part
    exact steady_pure _

theorem steady_optionalTimestamp : Steady n optionalTimestamp := by
  unfold optionalTimestamp
  apply steady_bind (steady_optional (by decide))
  intro entry
  split
  . exact steady_pure _
  . apply steady_bind (steady_lift _)
    intro number
    exact steady_pure _

theorem steady_optionalArea : Steady n optionalArea := by
  unfold optionalArea
  apply steady_bind (steady_optional (by decide))
  intro entry
  split
  . exact steady_pure _
  . apply steady_bind (steady_lift _)
    intro area
    exact steady_pure _

theorem steady_readFileMetadata : Steady n readFileMetadata := by
  unfold readFileMetadata
  repeat' first
    | exact steady_pure _
    | exact steady_lift _
    | exact steady_optional (by decide)
    | exact steady_repeated (by decide)
    | dsimp only
    | apply steady_bind
    | apply steady_forM
    | intro _
    | split

theorem steady_readFileHead (standalone : Bool) (children : List OwnedTlv)
    : Steady n (readFileHead standalone children) := by
  unfold readFileHead
  repeat' first
    | exact steady_pure _
    | exact steady_throw _
    | exact steady_take (by decide)
    | exact steady_optionalText (by decide)
    | exact steady_optionalTimestamp
    | exact steady_optionalArea
    | dsimp only
    | apply steady_bind
    | intro _
    | split

theorem steady_readFileRoute (area : Option AreaData) : Steady n (readFileRoute area) := by
  unfold readFileRoute
  repeat' first
    | exact steady_pure _
    | exact steady_throw _
    | exact steady_lift _
    | exact steady_repeated (by decide)
    | dsimp only
    | apply steady_bind
    | apply steady_forM
    | intro _
    | split

theorem steady_readMessageHead (children : List OwnedTlv) (resolver : KeyResolver)
    : Steady n (readMessageHead children resolver) := by
  unfold readMessageHead
  repeat' first
    | exact steady_pure _
    | exact steady_throw _
    | exact steady_lift _
    | exact steady_take (by decide)
    | exact steady_readAddressPart _
    | exact steady_optionalAddressPart (by decide)
    | dsimp only
    | apply steady_bind
    | intro _
    | split

theorem steady_readMessageText (destination : Option Identity) : Steady n (readMessageText destination) := by
  unfold readMessageText
  repeat' first
    | exact steady_pure _
    | exact steady_throw _
    | exact steady_lift _
    | exact steady_take (by decide)
    | exact steady_takeNumber (by decide)
    | exact steady_optionalArea
    | dsimp only
    | apply steady_bind
    | apply steady_forM
    | intro _
    | split

theorem steady_readMessageBody (c : Crypto) (resolver : KeyResolver) (destination : Option Identity)
    : Steady n (readMessageBody c resolver destination) := by
  unfold readMessageBody
  repeat' first
    | exact steady_pure _
    | exact steady_throw _
    | exact steady_lift _
    | exact steady_optional (by decide)
    | exact steady_repeated (by decide)
    | exact steady_optionalText (by decide)
    | dsimp only
    | apply steady_bind
    | apply steady_forM
    | intro _
    | split

theorem readMessageHead_map (children : List OwnedTlv) (resolver : KeyResolver)
    : readMessageHead (children.map (setIdentifier n)) resolver = readMessageHead children resolver := by
  unfold readMessageHead
  rw [List.head?_map, Option.map_map]
  simp only [Function.comp_def, typeCode_setIdentifier]

theorem verifyItem_map {c : Crypto} {kind : SignedItemKind} {children : List OwnedTlv} {origin : AddressPart}
    {signer : Identity} {index : Nat} {signature : Signature} (h : Clear children 0 index)
    : verifyItem c kind (children.map (setIdentifier n)) origin signer index signature =
        verifyItem c kind children origin signer index signature := by
  unfold verifyItem encodedPrefix
  rw [take_map_of_clear h]

/--
A reader of these children that depends on the ones in front of the cursor, as long as they are no identifiers.
-/
structure Sees (n : UInt64) (values : List OwnedTlv) (m m' : Reader α) : Prop where
  run : ∀ {i a next}, Clear values 0 i → m ⟨values, i⟩ = .ok (a, next) →
    ∃ j, next = ⟨values, j⟩ ∧ Clear values i j ∧
      m' ⟨values.map (setIdentifier n), i⟩ = .ok (a, ⟨values.map (setIdentifier n), j⟩)

theorem Steady.sees {m : Reader α} (h : Steady n m) (values : List OwnedTlv) : Sees n values m m where
  run := fun _ hrun => h.run hrun

theorem sees_readMessageSignature (c : Crypto) (children : List OwnedTlv) (resolver : KeyResolver)
    (origin : AddressPart) (signedOrigin : Option AddressPart)
    : Sees n children (readMessageSignature c children resolver origin signedOrigin)
        (readMessageSignature c (children.map (setIdentifier n)) resolver origin signedOrigin) := by
  constructor
  intro i signed next hclear h
  unfold readMessageSignature at h ⊢
  obtain ⟨entry, mid, hentry, hrest⟩ := bind_run_iff.mp h
  obtain ⟨j, rfl, hclear', hentry'⟩ := (steady_optional (n := n) (by decide)).run hentry
  rw [bind_of_ok hentry']
  rcases optional_run hentry with ⟨rfl, _, _⟩ | ⟨index, value, rfl, _, hfinds, _⟩
  . obtain ⟨k, rfl, hclear'', hrest'⟩ := (steady_lift (n := n) _).run hrest
    exact ⟨k, rfl, hclear'.trans hclear'', hrest'⟩
  . dsimp only at hrest ⊢
    simp only [verifyItem_map (hclear.trans hfinds.clear)]
    have hsteady := steady_bind (n := n) (steady_lift (parseProvenance origin signedOrigin resolver)) fun signer =>
      steady_bind (steady_lift (signatureValue value)) fun signature =>
        steady_lift (verifyItem c .message children origin signer index signature)
    obtain ⟨k, rfl, hclear'', hrest'⟩ := hsteady.run hrest
    exact ⟨k, rfl, hclear'.trans hclear'', hrest'⟩

theorem sees_readFileSignature (c : Crypto) (children : List OwnedTlv) (resolver : KeyResolver)
    (origin : AddressPart) (signedOrigin : Option AddressPart)
    : Sees n children (readFileSignature c children resolver origin signedOrigin)
        (readFileSignature c (children.map (setIdentifier n)) resolver origin signedOrigin) := by
  constructor
  intro i signed next hclear h
  unfold readFileSignature at h ⊢
  obtain ⟨entry, mid, hentry, hrest⟩ := bind_run_iff.mp h
  obtain ⟨j, rfl, hclear', hentry'⟩ := (steady_optional (n := n) (by decide)).run hentry
  rw [bind_of_ok hentry']
  rcases optional_run hentry with ⟨rfl, _, _⟩ | ⟨index, value, rfl, _, hfinds, _⟩
  . obtain ⟨k, rfl, hclear'', hrest'⟩ := (steady_lift (n := n) _).run hrest
    exact ⟨k, rfl, hclear'.trans hclear'', hrest'⟩
  . dsimp only at hrest ⊢
    simp only [verifyItem_map (hclear.trans hfinds.clear)]
    have hsteady := steady_bind (n := n) (steady_lift (signatureValue value)) fun signature =>
      steady_bind (steady_lift (parseProvenance origin signedOrigin resolver)) fun signer =>
        steady_lift (verifyItem c .file children origin signer index signature)
    obtain ⟨k, rfl, hclear'', hrest'⟩ := hsteady.run hrest
    exact ⟨k, rfl, hclear'.trans hclear'', hrest'⟩

end Readers

/-!
The identifier itself, and what stands behind it.
-/

/--
The identifier is the only one among the children.
-/
def OneIdentifier (children : List OwnedTlv) (identifier : UInt64) : Prop :=
  ∃ k child, children[k]? = some child ∧ child.typeCode = Types.requestIdentifier ∧
    numberValue child = .ok identifier ∧ Clear children 0 k ∧ Clear children (k + 1) children.length

section Identifier

variable {n : UInt64} {values : List OwnedTlv} {i : Nat} {next : Cursor}

theorem takeNumber_identifier {name : String} {number : UInt64}
    (h : takeNumber Types.requestIdentifier name ⟨values, i⟩ = .ok (number, next))
    : ∃ k child, next = ⟨values, k + 1⟩ ∧ values[k]? = some child ∧ child.typeCode = Types.requestIdentifier ∧
        numberValue child = .ok number ∧ Clear values i k ∧
        takeNumber Types.requestIdentifier name ⟨values.map (setIdentifier n), i⟩ =
          .ok (n, ⟨values.map (setIdentifier n), k + 1⟩) := by
  unfold takeNumber at h ⊢
  obtain ⟨entry, mid, htake, hnumber⟩ := bind_run_iff.mp h
  obtain ⟨rfl, hfinds, htype⟩ := take_run htake
  obtain ⟨hvalue, rfl⟩ := lift_run_iff.mp hnumber
  refine ⟨entry.1, entry.2, rfl, hfinds.here, htype, hvalue, hfinds.clear, ?_⟩
  have hfinds' := finds_map (n := n) hfinds
  have htake' : take Types.requestIdentifier name ⟨values.map (setIdentifier n), i⟩ =
      .ok ((entry.1, setIdentifier n entry.2), ⟨values.map (setIdentifier n), entry.1 + 1⟩) := by
    simp only [take, hfinds'.nextDefined, typeCode_setIdentifier]
    rw [if_pos htype]
  rw [bind_of_ok htake']
  exact lift_of_ok (numberValue_setIdentifier htype)

theorem finish_clear {done : Unit} (h : finish ⟨values, i⟩ = .ok (done, next))
    : next = ⟨values, i⟩ ∧ Clear values i values.length ∧
        finish ⟨values.map (setIdentifier n), i⟩ = .ok ((), ⟨values.map (setIdentifier n), i⟩) := by
  obtain ⟨hnil, rfl⟩ := finish_run h
  refine ⟨rfl, ?_, finish_of_defined (by rw [defined_map, hnil, List.map_nil])⟩
  intro k hle _ value hvalue htype
  have hmem : value ∈ (⟨values, i⟩ : Cursor).defined := by
    apply List.mem_filter.mpr
    refine ⟨?_, by rw [htype]; rfl⟩
    rw [List.mem_iff_getElem?]
    refine ⟨k - i, ?_⟩
    rw [List.getElem?_drop, Nat.add_sub_cancel' hle]
    exact hvalue
  rw [hnil] at hmem
  cases hmem

end Identifier

/--
A reader of the children behind the identifier, up to the last one. What it returns has the number that was read,
and `renumber` is what becomes of it when the identifiers are set anew.
-/
structure EndsUnder (n number : UInt64) (identifier : α → UInt64) (renumber : α → α) (m m' : Reader α) : Prop where
  run : ∀ {values i a next}, m ⟨values, i⟩ = .ok (a, next) →
    ∃ j, next = ⟨values, j⟩ ∧ identifier a = number ∧ Clear values i values.length ∧
      m' ⟨values.map (setIdentifier n), i⟩ = .ok (renumber a, ⟨values.map (setIdentifier n), j⟩)

section EndsUnder

variable {n number : UInt64} {identifier : α → UInt64} {renumber : α → α}

theorem endsUnder_bind {m : Reader β} {f f' : β → Reader α} (hm : Steady n m)
    (hf : ∀ b, EndsUnder n number identifier renumber (f b) (f' b))
    : EndsUnder n number identifier renumber (m >>= f) (m >>= f') := by
  constructor
  intro values i a next h
  obtain ⟨b, mid, hfirst, hrest⟩ := bind_run_iff.mp h
  obtain ⟨j, rfl, hclear, hfirst'⟩ := hm.run hfirst
  obtain ⟨k, rfl, hnumber, hclear', hrest'⟩ := (hf b).run hrest
  refine ⟨k, rfl, hnumber, hclear.trans hclear', ?_⟩
  rw [bind_of_ok hfirst']
  exact hrest'

theorem endsUnder_throw (e : BundleError) (m' : Reader α) : EndsUnder n number identifier renumber (throw e) m' := by
  constructor
  intro values i a next h
  exact (throw_run_iff.mp h).elim

theorem endsUnder_end {a : α} (h : identifier a = number)
    : EndsUnder n number identifier renumber (finish >>= fun _ => pure a) (finish >>= fun _ => pure (renumber a)) := by
  constructor
  intro values i b next hrun
  obtain ⟨done, mid, hfinish, hpure⟩ := bind_run_iff.mp hrun
  obtain ⟨rfl, hclear, hfinish'⟩ := finish_clear (n := n) hfinish
  obtain ⟨rfl, rfl⟩ := pure_run_iff.mp hpure
  refine ⟨i, rfl, h, hclear, ?_⟩
  rw [bind_of_ok hfinish']
  rfl

/--
A reader of these children up to the last one, which finds the identifier on its way.
-/
structure Renumbers (n : UInt64) (values : List OwnedTlv) (identifier : α → UInt64) (renumber : α → α)
    (m m' : Reader α) : Prop where
  run : ∀ {i a next}, Clear values 0 i → m ⟨values, i⟩ = .ok (a, next) →
    OneIdentifier values (identifier a) ∧
      ∃ j, m' ⟨values.map (setIdentifier n), i⟩ = .ok (renumber a, ⟨values.map (setIdentifier n), j⟩)

variable {values : List OwnedTlv}

theorem renumbers_takeNumber {name : String} {f f' : UInt64 → Reader α}
    (hf : ∀ number, EndsUnder n number identifier renumber (f number) (f' n))
    : Renumbers n values identifier renumber (takeNumber Types.requestIdentifier name >>= f)
        (takeNumber Types.requestIdentifier name >>= f') := by
  constructor
  intro i a next hclear h
  obtain ⟨number, mid, hnumber, hrest⟩ := bind_run_iff.mp h
  obtain ⟨k, child, rfl, hchild, htype, hvalue, hclear', hnumber'⟩ := takeNumber_identifier (n := n) hnumber
  obtain ⟨j, rfl, rfl, hend, hrest'⟩ := (hf number).run hrest
  refine ⟨⟨k, child, hchild, htype, hvalue, hclear.trans hclear', hend⟩, j, ?_⟩
  rw [bind_of_ok hnumber']
  exact hrest'

theorem renumbers_sees {m m' : Reader β} {f f' : β → Reader α} (hm : Sees n values m m')
    (hf : ∀ b, Renumbers n values identifier renumber (f b) (f' b))
    : Renumbers n values identifier renumber (m >>= f) (m' >>= f') := by
  constructor
  intro i a next hclear h
  obtain ⟨b, mid, hfirst, hrest⟩ := bind_run_iff.mp h
  obtain ⟨j, rfl, hclear', hfirst'⟩ := hm.run hclear hfirst
  obtain ⟨hidentified, k, hrest'⟩ := (hf b).run (hclear.trans hclear') hrest
  refine ⟨hidentified, k, ?_⟩
  rw [bind_of_ok hfirst']
  exact hrest'

theorem renumbers_bind {m : Reader β} {f f' : β → Reader α} (hm : Steady n m)
    (hf : ∀ b, Renumbers n values identifier renumber (f b) (f' b))
    : Renumbers n values identifier renumber (m >>= f) (m >>= f') := renumbers_sees (hm.sees values) hf

theorem renumbers_throw (e : BundleError) (m' : Reader α) : Renumbers n values identifier renumber (throw e) m' := by
  constructor
  intro i a next _ h
  exact (throw_run_iff.mp h).elim

theorem renumbers_pure {m m' : Reader UInt64} {f f' : UInt64 → α} (hm : Renumbers n values id (fun _ => n) m m')
    (hidentifier : ∀ number, identifier (f number) = number) (hrenumber : ∀ number, f' n = renumber (f number))
    : Renumbers n values identifier renumber (m >>= fun number => pure (f number))
        (m' >>= fun number => pure (f' number)) := by
  constructor
  intro i a next hclear h
  obtain ⟨number, mid, hfirst, hpure⟩ := bind_run_iff.mp h
  obtain ⟨hidentified, j, hfirst'⟩ := hm.run hclear hfirst
  obtain ⟨rfl, rfl⟩ := pure_run_iff.mp hpure
  rw [hidentifier]
  refine ⟨hidentified, j, ?_⟩
  rw [bind_of_ok hfirst', ← hrenumber]
  rfl

end EndsUnder

theorem read_renumber {reader reader' : List OwnedTlv → Reader α} {identifier : α → UInt64} {renumber : α → α}
    {n : UInt64} {value value' : OwnedTlv} {children : List OwnedTlv} {a : α}
    (hreader : Renumbers n children identifier renumber (reader children) (reader' (children.map (setIdentifier n))))
    (hparse : parseSequence value.value = .ok children) (h : Cursor.read value reader = .ok a)
    : OneIdentifier children (identifier a) ∧
        (parseSequence value'.value = .ok (children.map (setIdentifier n)) →
          Cursor.read value' reader' = .ok (renumber a)) := by
  obtain ⟨_, cursor, hread, hrun⟩ := read_ok h
  rw [hparse] at hread
  cases hread
  obtain ⟨hidentified, j, hrun'⟩ := hreader.run (Clear.refl children 0) hrun
  refine ⟨hidentified, ?_⟩
  intro hparse'
  simp only [Cursor.read, parseChildren, hparse', Except.mapError, Except.bind_of_ok, Cursor.new, hrun']

/-!
The validators.
-/

def renumbered (n : UInt64) (raw : OwnedTlv) (item : ValidatedItem) : ValidatedItem :=
  { item with
    requestIdentifier := n
    raw }

section Validators

variable {n : UInt64} {c : Crypto} {resolver : KeyResolver} {value value' : OwnedTlv} {children : List OwnedTlv}
  {item : ValidatedItem}

theorem simpleRequest_renumber {kind : ItemKind} (hparse : parseSequence value.value = .ok children)
    (h : simpleRequest value kind = .ok item)
    : OneIdentifier children item.requestIdentifier ∧
        (parseSequence value'.value = .ok (children.map (setIdentifier n)) →
          simpleRequest value' kind = .ok (renumbered n value' item)) := by
  apply read_renumber _ hparse h
  apply renumbers_takeNumber
  intro number
  exact endsUnder_end rfl

theorem validateFileRequest_renumber (hparse : parseSequence value.value = .ok children)
    (h : validateFileRequest value = .ok item)
    : OneIdentifier children item.requestIdentifier ∧
        (parseSequence value'.value = .ok (children.map (setIdentifier n)) →
          validateFileRequest value' = .ok (renumbered n value' item)) := by
  apply read_renumber _ hparse h
  apply renumbers_bind (steady_take (by decide))
  intro entry
  apply renumbers_bind (steady_lift _)
  intro filename
  dsimp only
  split
  . apply renumbers_throw
  . apply renumbers_bind steady_optionalTimestamp
    intro _
    apply renumbers_takeNumber
    intro number
    exact endsUnder_end rfl

theorem validateStandaloneFile_renumber (hparse : parseSequence value.value = .ok children)
    (h : validateStandaloneFile c value resolver = .ok item)
    : OneIdentifier children item.requestIdentifier ∧
        (parseSequence value'.value = .ok (children.map (setIdentifier n)) →
          validateStandaloneFile c value' resolver = .ok (renumbered n value' item)) := by
  apply read_renumber _ hparse h
  apply renumbers_bind (steady_readFileHead true children)
  intro area
  apply renumbers_bind (steady_optional (by decide))
  intro entry
  split
  . apply renumbers_throw
  . apply renumbers_bind (steady_readAddressPart _)
    intro origin
    apply renumbers_bind (steady_optionalAddressPart (by decide))
    intro signedOrigin
    apply renumbers_bind steady_readFileMetadata
    intro _
    apply renumbers_sees (sees_readFileSignature c children resolver origin signedOrigin)
    intro signed
    apply renumbers_takeNumber
    intro number
    apply endsUnder_bind (steady_readFileRoute area)
    intro _
    exact endsUnder_end rfl

theorem renumbers_readMessageSuffix
    : Renumbers n children id (fun _ => n) readMessageSuffix readMessageSuffix := by
  unfold readMessageSuffix
  apply renumbers_takeNumber
  intro number
  repeat' first
    | exact endsUnder_end rfl
    | exact endsUnder_throw _ _
    | exact steady_pure _
    | exact steady_throw _
    | exact steady_lift _
    | exact steady_optional (by decide)
    | exact steady_repeated (by decide)
    | dsimp only
    | apply endsUnder_bind
    | apply steady_forM
    | apply steady_bind
    | intro _
    | split

theorem validateMessage_renumber (hparse : parseSequence value.value = .ok children)
    (h : validateMessage c value resolver = .ok item)
    : OneIdentifier children item.requestIdentifier ∧
        (parseSequence value'.value = .ok (children.map (setIdentifier n)) →
          validateMessage c value' resolver = .ok (renumbered n value' item)) := by
  apply read_renumber _ hparse h
  rw [readMessageHead_map]
  apply renumbers_bind (steady_readMessageHead children resolver)
  intro head
  apply renumbers_bind (steady_readMessageText _)
  intro area
  apply renumbers_bind (steady_readMessageBody c resolver _)
  intro _
  apply renumbers_sees (sees_readMessageSignature c children resolver _ _)
  intro signed
  apply renumbers_pure renumbers_readMessageSuffix
  . intro number
    rfl
  . intro number
    rfl

theorem validateAccepted_renumber (hparse : parseSequence value.value = .ok children)
    (h : validateAccepted value = .ok item)
    : OneIdentifier children item.requestIdentifier ∧
        (parseSequence value'.value = .ok (children.map (setIdentifier n)) →
          validateAccepted value' = .ok (renumbered n value' item)) := by
  apply read_renumber _ hparse h
  apply renumbers_takeNumber
  intro number
  apply endsUnder_bind (steady_take (by decide))
  intro entry
  apply endsUnder_bind (steady_lift _)
  intro responseTo
  apply endsUnder_bind (steady_optional (by decide))
  intro key
  split
  . apply endsUnder_bind (steady_pure none)
    intro publicKey
    exact endsUnder_end rfl
  . apply endsUnder_bind (steady_lift _)
    intro publicKey
    apply endsUnder_bind (steady_pure (some publicKey))
    intro publicKey
    exact endsUnder_end rfl

theorem validateRejected_renumber (hparse : parseSequence value.value = .ok children)
    (h : validateRejected value = .ok item)
    : OneIdentifier children item.requestIdentifier ∧
        (parseSequence value'.value = .ok (children.map (setIdentifier n)) →
          validateRejected value' = .ok (renumbered n value' item)) := by
  apply read_renumber _ hparse h
  apply renumbers_takeNumber
  intro number
  repeat' first
    | exact endsUnder_end rfl
    | exact endsUnder_throw _ _
    | exact steady_pure _
    | exact steady_throw _
    | exact steady_lift _
    | exact steady_take (by decide)
    | exact steady_takeNumber (by decide)
    | exact steady_optional (by decide)
    | exact steady_optionalText (by decide)
    | dsimp only
    | apply endsUnder_bind
    | intro _
    | split

theorem map_some_renumber {x x' : Except BundleError ValidatedItem} {children}
    (hx : ∀ {item}, x = .ok item → OneIdentifier children item.requestIdentifier ∧
      (parseSequence value'.value = .ok (children.map (setIdentifier n)) → x' = .ok (renumbered n value' item)))
    (h : x.map some = .ok (some item))
    : OneIdentifier children item.requestIdentifier ∧
        (parseSequence value'.value = .ok (children.map (setIdentifier n)) →
          x'.map some = .ok (some (renumbered n value' item))) := by
  obtain ⟨_, hitem, heq⟩ := Except.map_eq_ok.mp h
  injection heq with heq
  subst heq
  obtain ⟨hidentified, hitem'⟩ := hx hitem
  refine ⟨hidentified, ?_⟩
  intro hparse'
  rw [hitem' hparse']
  rfl

theorem validateItem_renumber (value' : OwnedTlv) (hparse : parseSequence value.value = .ok children)
    (htype : value'.typeCode = value.typeCode) (h : validateItem c value resolver = .ok (some item))
    : OneIdentifier children item.requestIdentifier ∧
        (parseSequence value'.value = .ok (children.map (setIdentifier n)) →
          validateItem c value' resolver = .ok (some (renumbered n value' item))) := by
  unfold validateItem at h ⊢
  rw [htype]
  split at h
  . rw [if_pos ‹_›]
    exact map_some_renumber (validateMessage_renumber hparse) h
  rw [if_neg ‹_›]
  split at h
  . rw [if_pos ‹_›]
    exact map_some_renumber (validateStandaloneFile_renumber hparse) h
  rw [if_neg ‹_›]
  split at h
  . rw [if_pos ‹_›]
    exact map_some_renumber (validateFileRequest_renumber hparse) h
  rw [if_neg ‹_›]
  split at h
  . rw [if_pos ‹_›]
    exact map_some_renumber (validateAccepted_renumber hparse) h
  rw [if_neg ‹_›]
  split at h
  . rw [if_pos ‹_›]
    exact map_some_renumber (validateRejected_renumber hparse) h
  rw [if_neg ‹_›]
  split at h
  . rw [if_pos ‹_›]
    exact map_some_renumber (simpleRequest_renumber hparse) h
  rw [if_neg ‹_›]
  split at h
  . rw [if_pos ‹_›]
    exact map_some_renumber (simpleRequest_renumber hparse) h
  rw [if_neg ‹_›]
  split at h
  . rw [if_pos ‹_›]
    exact map_some_renumber (simpleRequest_renumber hparse) h
  rw [if_neg ‹_›]
  split at h
  . rw [if_pos ‹_›]
    exact map_some_renumber (simpleRequest_renumber hparse) h
  split at h
  . cases h
  . cases h

end Validators

/-!
The item.
-/

theorem OneIdentifier.split {children : List OwnedTlv} {identifier : UInt64} (h : OneIdentifier children identifier)
    : ∃ front child back, children = front ++ child :: back ∧ child.typeCode = Types.requestIdentifier ∧
        child.value = encodeU64 identifier ∧ (∀ value ∈ front, value.typeCode ≠ Types.requestIdentifier) ∧
        ∀ value ∈ back, value.typeCode ≠ Types.requestIdentifier := by
  obtain ⟨k, child, hchild, htype, hvalue, hfront, hback⟩ := h
  obtain ⟨hlt, hget⟩ := List.getElem?_eq_some_iff.mp hchild
  refine ⟨children.take k, child, children.drop (k + 1), ?_, htype, ?_, ?_, ?_⟩
  . rw [← hget, ← List.drop_eq_getElem_cons hlt, List.take_append_drop]
  . rw [numberValue, Except.mapError_eq_ok] at hvalue
    exact decodeU64_iff.mp hvalue
  . intro value hmem
    obtain ⟨j, hj⟩ := List.getElem?_of_mem hmem
    rw [List.getElem?_take] at hj
    split at hj
    . next hlt => exact hfront j (Nat.zero_le j) hlt value hj
    . cases hj
  . intro value hmem
    obtain ⟨j, hj⟩ := List.getElem?_of_mem hmem
    rw [List.getElem?_drop] at hj
    obtain ⟨hj', _⟩ := List.getElem?_eq_some_iff.mp hj
    exact hback (k + 1 + j) (Nat.le_add_right _ _) hj' value hj

theorem countP_identifier {values : List OwnedTlv} (h : ∀ value ∈ values, value.typeCode ≠ Types.requestIdentifier)
    : values.countP (·.typeCode = Types.requestIdentifier) = 0 := by
  rw [List.countP_eq_zero]
  simpa using h

theorem map_setIdentifier_split {front back : List OwnedTlv} (child : OwnedTlv) (n : UInt64)
    (hfront : ∀ value ∈ front, value.typeCode ≠ Types.requestIdentifier)
    (hback : ∀ value ∈ back, value.typeCode ≠ Types.requestIdentifier)
    : (front ++ child :: back).map (setIdentifier n) = front ++ setIdentifier n child :: back := by
  rw [List.map_append, List.map_cons, map_setIdentifier_of_ne hfront, map_setIdentifier_of_ne hback]

/--
The new identifier takes at most the 30 bytes of three integers.
-/
theorem length_concatenate_setIdentifier_lt {front back : List OwnedTlv} {child : OwnedTlv} (n : UInt64)
    (htype : child.typeCode = Types.requestIdentifier)
    (h : (concatenate (front ++ child :: back)).length < 2 ^ 63)
    : (concatenate (front ++ setIdentifier n child :: back)).length < 2 ^ 64 := by
  have hencoded := length_encode_le (setIdentifier n child)
  have hvalue : (setIdentifier n child).value = encodeU64 n := by
    rw [setIdentifier, if_pos htype]
  have hbound := length_encodeU64_le n
  rw [hvalue] at hencoded
  simp only [concatenate, List.flatMap_append, List.flatMap_cons, List.length_append] at h ⊢
  omega

theorem setRequestIdentifier_eq_ok {value value' : OwnedTlv} {n : UInt64} {front back : List OwnedTlv}
    (child : OwnedTlv) (hvalue : value.typeCode ≠ 0) (htype : child.typeCode = Types.requestIdentifier)
    (hfront : ∀ value ∈ front, value.typeCode ≠ Types.requestIdentifier)
    (hback : ∀ value ∈ back, value.typeCode ≠ Types.requestIdentifier)
    (hparse : parseSequence value.value = .ok (front ++ child :: back)) (hsame : value'.typeCode = value.typeCode)
    (hbytes : value'.value = concatenate (front ++ setIdentifier n child :: back))
    : setRequestIdentifier value n = .ok value' := by
  have hcount : (front ++ child :: back).countP (·.typeCode = Types.requestIdentifier) = 1 := by
    rw [List.countP_append, List.countP_cons, countP_identifier hfront, countP_identifier hback]
    simp [htype]
  have hlength := value'.length_lt
  rw [hbytes] at hlength
  unfold setRequestIdentifier
  rw [parseChildren, hparse]
  simp only [Except.mapError, Except.bind_of_ok, hcount, map_setIdentifier_split child n hfront hback]
  rw [if_neg (by decide), OwnedTlv.new, dif_pos hlength, requireDefinedType, if_neg hvalue]
  simp only [Except.ok.injEq]
  ext1
  . exact hsame.symm
  . exact hbytes.symm

theorem setIdentifier_setIdentifier {child : OwnedTlv} {identifier : UInt64} (n : UInt64)
    (htype : child.typeCode = Types.requestIdentifier) (hvalue : child.value = encodeU64 identifier)
    : setIdentifier identifier (setIdentifier n child) = child := by
  have htype' : (setIdentifier n child).typeCode = Types.requestIdentifier := by
    rw [typeCode_setIdentifier, htype]
  rw [setIdentifier, if_pos htype']
  ext1
  . exact typeCode_setIdentifier n child
  . exact hvalue.symm

theorem read_children {reader : List OwnedTlv → Reader α} {value : OwnedTlv} {a : α}
    (h : Cursor.read value reader = .ok a)
    : ∃ children, parseSequence value.value = .ok children := by
  obtain ⟨children, _, hparse, _⟩ := read_ok h
  exact ⟨children, hparse⟩

theorem validateItem_children {c : Crypto} {value : OwnedTlv} {resolver : KeyResolver} {item : ValidatedItem}
    (h : validateItem c value resolver = .ok (some item))
    : value.typeCode ≠ 0 ∧ ∃ children, parseSequence value.value = .ok children := by
  have hdefined : value.typeCode ≠ 0 := by
    intro hzero
    unfold validateItem at h
    rw [hzero] at h
    cases h
  refine ⟨hdefined, ?_⟩
  unfold validateItem at h
  repeat' split at h
  all_goals first
    | obtain ⟨_, hitem, _⟩ := Except.map_eq_ok.mp h; exact read_children hitem
    | cases h

/--
Of an item only the identifier changes: the other children keep their bytes and their places, what a reader gets is
the same under the new identifier, and the old identifier restores the bytes. A value is at most the largest signed
size long.
-/
theorem renumbering_keeps_item (c : Crypto) (resolver : KeyResolver) (value : OwnedTlv) (item : ValidatedItem)
    (n : UInt64) (hlength : value.value.length < 2 ^ 63) (h : validateItem c value resolver = .ok (some item))
    : ∃ value', setRequestIdentifier value n = .ok value' ∧
        validateItem c value' resolver = .ok (some (renumbered n value' item)) ∧
        (∃ front child back, parseSequence value.value = .ok (front ++ child :: back) ∧
          child.typeCode = Types.requestIdentifier ∧ child.value = encodeU64 item.requestIdentifier ∧
          parseSequence value'.value = .ok (front ++ carrierValue Types.requestIdentifier (encodeU64 n) :: back)) ∧
        value'.typeCode = value.typeCode ∧ setRequestIdentifier value' item.requestIdentifier = .ok value := by
  obtain ⟨hvalue, children, hparse⟩ := validateItem_children h
  obtain ⟨hbytes, hdefined⟩ := (parseSequence_eq_ok _ _).mp hparse
  have hidentified := (validateItem_renumber (n := n) value hparse rfl h).1
  obtain ⟨front, child, back, rfl, htype, hchild, hfront, hback⟩ := hidentified.split
  have hmap := map_setIdentifier_split child n hfront hback
  have hshort : (concatenate (front ++ setIdentifier n child :: back)).length < 2 ^ 64 :=
    length_concatenate_setIdentifier_lt n htype (hbytes ▸ hlength)
  let value' : OwnedTlv := ⟨value.typeCode, concatenate (front ++ setIdentifier n child :: back), hshort⟩
  have hparse' : parseSequence value'.value = .ok (front ++ setIdentifier n child :: back) := by
    rw [parseSequence_eq_ok]
    refine ⟨rfl, ?_⟩
    intro other hother
    rw [← hmap, List.mem_map] at hother
    obtain ⟨before, hbefore, rfl⟩ := hother
    rw [typeCode_setIdentifier]
    exact hdefined before hbefore
  have hnew : setIdentifier n child = carrierValue Types.requestIdentifier (encodeU64 n) := by
    apply eq_carrierValue
    . rw [typeCode_setIdentifier, htype]
    . rw [setIdentifier, if_pos htype]
  refine ⟨value', ?_, ?_, ?_, rfl, ?_⟩
  . exact setRequestIdentifier_eq_ok child hvalue htype hfront hback hparse rfl rfl
  . exact (validateItem_renumber value' hparse rfl h).2 (hmap ▸ hparse')
  . exact ⟨front, child, back, hparse, htype, hchild, hnew ▸ hparse'⟩
  . have hback' := setIdentifier_setIdentifier n htype hchild
    refine setRequestIdentifier_eq_ok (setIdentifier n child) hvalue ?_ hfront hback hparse' rfl ?_
    . rw [typeCode_setIdentifier, htype]
    . rw [hback', hbytes]

namespace RenumberedNetMail

def crypto : Crypto where
  verifyTlv := fun _ _ _ => .ok true
  hashTlv := fun _ => .ok (Vector.replicate 32 0)
  hashInboundItem := fun _ => .ok (Vector.replicate 32 0)

-- A signed message, with its identifier between the signature and a system on its way.
def netMail : OwnedTlv :=
  carrierValue Types.message (concatenate
    [ carrierValue Types.origin (Bytes.ofString "f#-1"),
      carrierValue Types.publicKey (List.replicate 32 0),
      carrierValue Types.destination (Bytes.ofString "f#-1"),
      carrierValue Types.publicKey (List.replicate 32 9),
      carrierValue Types.timestamp [1],
      carrierValue Types.toUserName (Bytes.ofString "Sysop"),
      carrierValue Types.fromUserName (Bytes.ofString "User"),
      carrierValue Types.subject (Bytes.ofString "Hello"),
      carrierValue Types.messageText (Bytes.ofString "Hello\n"),
      carrierValue Types.signature (List.replicate 64 0),
      carrierValue Types.requestIdentifier (encodeU64 1),
      carrierValue Types.via (concatenate
        [ carrierValue Types.address (Bytes.ofString "f#-1"),
          carrierValue Types.publicKey (List.replicate 32 0),
          carrierValue Types.timestamp [1] ]) ])

end RenumberedNetMail

open RenumberedNetMail in
theorem renumbering_keeps_netMail
    : ∃ item value', validateItem crypto netMail (fun _ => none) = .ok (some item) ∧ item.kind = .netMail ∧
        item.requestIdentifier = 1 ∧ setRequestIdentifier netMail 300 = .ok value' ∧
        validateItem crypto value' (fun _ => none) = .ok (some (renumbered 300 value' item)) ∧
        setRequestIdentifier value' 1 = .ok netMail := by
  have hread : ((validateItem crypto netMail (fun _ => none)).toOption.join.map fun item =>
      (item.kind, item.requestIdentifier)) = some (.netMail, 1) := by
    decide +kernel
  simp only [Option.map_eq_some_iff, Option.join_eq_some_iff, Except.toOption_eq_some, Prod.mk.injEq] at hread
  obtain ⟨item, hitem, hkind, hnumber⟩ := hread
  obtain ⟨value', hset, hvalid, _, _, hback⟩ :=
    renumbering_keeps_item crypto (fun _ => none) netMail item 300 (by decide +kernel) hitem
  rw [hnumber] at hback
  exact ⟨item, value', hitem, hkind, hnumber, hset, hvalid, hback⟩

end Tith
