import Tith.Legacy.Address
import Tith.Lib.List
import Tith.Wire.Lemmas.Address

/-!
This module contains the way back from the legacy forms of an address, and the proof that only an at
sign in the domain stands in its way.
-/

namespace Tith

namespace Legacy

def fromFiveDimensional (value : List Char) : Except AddressError Address := do
  let (address, domain) ← (Text.rsplitOnce '@' value).okOr .malformed
  withDomain address (String.ofList domain)

def fromEndpoint (endpoint : Endpoint) (domain : String) : Except AddressError Address :=
  (Address.new domain endpoint.zone.toNat endpoint.net.toNat endpoint.node.toNat endpoint.point).mapError
    fun _ => .outOfRange

theorem isDigit_of_mem_decimal {n : UInt16} {c : Char} (h : c ∈ decimal n) : c.isDigit = true :=
  Nat.isDigit_of_mem_toDigits (by omega) (by omega) h

theorem not_mem_decimal {c : Char} (h : c.isDigit = false) (n : UInt16) : c ∉ decimal n := by
  intro hmem
  rw [isDigit_of_mem_decimal hmem] at h
  cases h

theorem number_decimal (n : UInt16) : number (decimal n) = .ok n.toNat := by
  have hlt := n.toNat_lt
  unfold number decimal
  rw [Text.digits?_toDigits]
  dsimp only
  rw [if_pos]
  unfold i32Max
  omega

theorem toField_natCast (n : UInt16) : toField n.toNat = .ok n := by
  have hlt := n.toNat_lt
  unfold toField
  rw [if_pos (by omega), Int.toNat_natCast, UInt16.ofNat_toNat]

def pointText (point : UInt16) : List Char :=
  if point = 0 then [] else '.' :: decimal point

def fourDimensional (parts : Endpoint) : List Char :=
  decimal parts.zone ++ ':' :: decimal parts.net ++ '/' :: decimal parts.node ++ pointText parts.point

theorem nodeAndPoint_pointText (node point : UInt16)
    : nodeAndPoint (decimal node ++ pointText point) = .ok (decimal node, point) := by
  have hdot := not_mem_decimal (c := '.') rfl node
  unfold nodeAndPoint pointText
  by_cases hzero : point = 0
  . rw [if_pos hzero, List.append_nil, Text.splitOnce_of_not_mem hdot, hzero]
  . rw [if_neg hzero, Text.splitOnce_append hdot]
    dsimp only
    rw [number_decimal, Except.bind_of_ok, toField_natCast, Except.bind_of_ok]

theorem withDomain_fourDimensional (parts : Endpoint) (domain : String)
    : withDomain (fourDimensional parts) domain = fromEndpoint parts domain := by
  have hcolon := not_mem_decimal (c := ':') rfl parts.zone
  have hslash := not_mem_decimal (c := '/') rfl parts.net
  unfold withDomain fourDimensional fromEndpoint
  rw [List.append_assoc, List.append_assoc, List.cons_append, List.cons_append, Text.splitOnce_append hcolon]
  rw [Option.okOr_some, Except.bind_of_ok]
  dsimp only
  rw [Text.splitOnce_append hslash, Option.okOr_some, Except.bind_of_ok]
  dsimp only
  rw [nodeAndPoint_pointText, Except.bind_of_ok]
  dsimp only
  rw [number_decimal, Except.bind_of_ok, number_decimal, Except.bind_of_ok, number_decimal, Except.bind_of_ok]

theorem at_not_mem_fourDimensional (parts : Endpoint) : '@' ∉ fourDimensional parts := by
  have hdecimal : ∀ n : UInt16, '@' ∉ decimal n := not_mem_decimal rfl
  unfold fourDimensional pointText
  split <;> simp [hdecimal]

theorem endpoint_of_not_anonymous {a : Address} (h : a.isAnonymous = false)
    : ∃ parts, endpoint a = .ok parts ∧ (parts.zone.toNat : Int) = a.zone ∧ (parts.net.toNat : Int) = a.net ∧
        (parts.node.toNat : Int) = a.node ∧ parts.point = a.point := by
  have hfield : ∀ value : Int, 0 ≤ value → value ≤ 32767 →
      toField value = .ok (UInt16.ofNat value.toNat) ∧ ((UInt16.ofNat value.toNat).toNat : Int) = value := by
    intro value hge hle
    refine ⟨if_pos (by omega), ?_⟩
    rw [UInt16.toNat_ofNat']
    omega
  have hzone : a.zone ≠ -1 := by simpa [Address.isAnonymous] using h
  obtain ⟨_, hcases⟩ := a.valid_cases
  rcases hcases with hanonymous | ⟨hz, hz', hn, hn', hd, hd'⟩
  . exact absurd hanonymous.1 hzone
  . obtain ⟨hzone, hzone'⟩ := hfield a.zone (by omega) hz'
    obtain ⟨hnet, hnet'⟩ := hfield a.net (by omega) hn'
    obtain ⟨hnode, hnode'⟩ := hfield a.node hd hd'
    refine ⟨⟨_, _, _, a.point⟩, ?_, hzone', hnet', hnode', rfl⟩
    unfold endpoint
    rw [if_neg (by simp [h]), hzone, Except.bind_of_ok, hnet, Except.bind_of_ok, hnode, Except.bind_of_ok]
    rfl

theorem fiveDimensional_of_endpoint {a : Address} {parts : Endpoint} (h : endpoint a = .ok parts)
    : fiveDimensional a = .ok (fourDimensional parts ++ '@' :: a.domain.toList) := by
  unfold fiveDimensional
  rw [h]
  rfl

theorem fromEndpoint_endpoint {a : Address} {parts : Endpoint} (hzone : (parts.zone.toNat : Int) = a.zone)
    (hnet : (parts.net.toNat : Int) = a.net) (hnode : (parts.node.toNat : Int) = a.node)
    (hpoint : parts.point = a.point) : fromEndpoint parts a.domain = .ok a := by
  unfold fromEndpoint
  rw [hzone, hnet, hnode, hpoint, a.new_self]
  rfl

theorem new_domain {domain : String} {zone net node : Int} {point : UInt16} {a : Address}
    (h : Address.new domain zone net node point = .ok a) : a.domain = domain := by
  unfold Address.new at h
  split at h
  . cases h
  . injection h with h
    rw [← h]

theorem withDomain_domain {value : List Char} {domain : String} {a : Address}
    (h : withDomain value domain = .ok a) : a.domain = domain := by
  unfold withDomain at h
  simp only [Except.bind_ok_iff, Except.mapError_eq_ok] at h
  obtain ⟨_, _, _, _, _, _, _, _, _, _, _, _, h⟩ := h
  apply new_domain h

theorem at_not_mem_of_fromFiveDimensional {value : List Char} {a : Address}
    (h : fromFiveDimensional value = .ok a) : '@' ∉ a.domain.toList := by
  unfold fromFiveDimensional at h
  simp only [Except.bind_ok_iff, Option.okOr_eq_ok] at h
  obtain ⟨⟨address, domain⟩, hsplit, h⟩ := h
  rw [withDomain_domain h, String.toList_ofList]
  apply Text.not_mem_of_rsplitOnce hsplit

end Legacy

theorem validateAddress_withoutPoint {domain : String} {zone net node : Int} {point : UInt16}
    (h : validateAddress domain zone net node point = .ok ()) : validateAddress domain zone net node 0 = .ok () := by
  unfold validateAddress at h ⊢
  split at h
  . cases h
  . next hdomain =>
    split at h
    . cases h
    . next hlocal =>
      rw [if_neg hlocal]
      split at h
      . cases h
      . next hzone =>
        rw [if_neg hzone]
        split at h
        . next hanonymous =>
          rw [if_pos hanonymous]
          split at h
          . cases h
          . next hrest =>
            rw [if_neg]
            simp only [not_or, not_not] at hrest ⊢
            exact ⟨hrest.1, hrest.2.1, trivial⟩
        . next hnamed =>
          rw [if_neg hnamed]
          exact h

def Address.withoutPoint (a : Address) : Address :=
  { a with point := 0, valid := validateAddress_withoutPoint a.valid }

namespace Legacy

/--
What the legacy forms of an address come back as.
-/
structure RoundTrips (a : Address) : Prop where
  fiveDimensional : ∀ s, fiveDimensional a = .ok s → fromFiveDimensional s = .ok a
  endpoint : ∃ parts, endpoint a = .ok parts ∧ fromEndpoint parts a.domain = .ok a
  threeDimensional : ∃ s, threeDimensional a = .ok s ∧ withDomain s a.domain = .ok a.withoutPoint
  unique : ∀ b s, Legacy.fiveDimensional a = .ok s → Legacy.fiveDimensional b = .ok s → b = a

theorem withDomain_threeDimensional {a : Address} (h : a.isAnonymous = false)
    : ∃ s, threeDimensional a = .ok s ∧ withDomain s a.domain = .ok a.withoutPoint := by
  obtain ⟨parts, hparts, hzone, hnet, hnode, _⟩ := endpoint_of_not_anonymous h
  refine ⟨fourDimensional { parts with point := 0 }, ?_, ?_⟩
  . unfold threeDimensional
    rw [hparts, Except.bind_of_ok]
    simp [fourDimensional, pointText]
  . rw [withDomain_fourDimensional]
    exact @fromEndpoint_endpoint a.withoutPoint { parts with point := 0 } hzone hnet hnode rfl

theorem fiveDimensional_unique {a b : Address} {s : List Char} (ha : a.isAnonymous = false)
    (hs : fiveDimensional a = .ok s) (hs' : fiveDimensional b = .ok s) : b = a := by
  -- No two addresses have one 5D text: its first at sign ends the numbers.
  have hb : b.isAnonymous = false := by
    cases hb : b.isAnonymous with
    | false => rfl
    | true =>
      simp [fiveDimensional, endpoint, hb] at hs'
  obtain ⟨parts, hparts, hzone, hnet, hnode, hpoint⟩ := endpoint_of_not_anonymous ha
  obtain ⟨parts', hparts', hzone', hnet', hnode', hpoint'⟩ := endpoint_of_not_anonymous hb
  rw [fiveDimensional_of_endpoint hparts] at hs
  rw [fiveDimensional_of_endpoint hparts', ← hs] at hs'
  injection hs' with hs'
  have hsplit := congrArg (Text.splitOnce '@') hs'
  rw [Text.splitOnce_append (at_not_mem_fourDimensional _), Text.splitOnce_append (at_not_mem_fourDimensional _)] at hsplit
  injection hsplit with hsplit
  injection hsplit with hnumbers hdomain
  have hread := fromEndpoint_endpoint hzone hnet hnode hpoint
  have hread' := fromEndpoint_endpoint hzone' hnet' hnode' hpoint'
  rw [String.toList_inj] at hdomain
  rw [← withDomain_fourDimensional] at hread hread'
  rw [hnumbers, hdomain, hread] at hread'
  injection hread' with hread'
  exact hread'.symm

/--
An address comes back from all its legacy forms exactly if its domain has no at sign.
-/
theorem roundTrips_iff (a : Address) (h : a.isAnonymous = false) : RoundTrips a ↔ '@' ∉ a.domain.toList := by
  obtain ⟨parts, hparts, hzone, hnet, hnode, hpoint⟩ := endpoint_of_not_anonymous h
  have hread := fromEndpoint_endpoint hzone hnet hnode hpoint
  have hfive := fiveDimensional_of_endpoint hparts
  constructor
  . intro hround
    apply at_not_mem_of_fromFiveDimensional (hround.fiveDimensional _ hfive)
  . intro hat
    refine ⟨?_, ⟨parts, hparts, hread⟩, withDomain_threeDimensional h, fun b s => fiveDimensional_unique h⟩
    intro s hs
    rw [hfive] at hs
    injection hs with hs
    unfold fromFiveDimensional
    rw [← hs, Text.rsplitOnce_append hat, Option.okOr_some, Except.bind_of_ok]
    dsimp only
    rw [String.ofList_toList, withDomain_fourDimensional, hread]

/--
A node of a network whose name has an at sign.
-/
def mailDomain : Address := ⟨"a@b", 1, 1, 0, 0, by decide⟩

theorem roundTrips_fidonet : RoundTrips ⟨"fidonet", 1, 104, 36, 45, by decide⟩ :=
  (roundTrips_iff ⟨"fidonet", 1, 104, 36, 45, by decide⟩ (by decide)).mpr (by decide)

theorem not_roundTrips_mailDomain : ¬∀ a : Address, a.isAnonymous = false → RoundTrips a := by
  intro h
  have hround := (h mailDomain (by decide)).fiveDimensional "1:1/0@a@b".toList (by decide)
  revert hround
  decide

end Legacy

end Tith
