import Tith.Wire.Lemmas.Address

/-!
This module contains the trimmed collections of addresses: which of them are read back as they were
written.
-/

namespace Tith

open Std

theorem parseTrimmedNumber_showInt {n : Int} (hn : -1 ≤ n ∧ n ≤ 65535)
    : parseTrimmedNumber (showInt n) true = .ok n := by
  by_cases hzero : n = 0
  . subst hzero
    rfl
  by_cases hnegative : n = -1
  . subst hnegative
    rfl
  have hparse := parseNumber_showInt (n := n) (by omega) true
  unfold parseTrimmedNumber
  split
  . next htext =>
    rw [htext] at hparse
    cases hparse
  . exact hparse

theorem parseTrimmedNumber_toDigits {n : Nat} (hn : n ≤ 65535)
    : parseTrimmedNumber (Nat.toDigits 10 n) false = .ok n := by
  by_cases hzero : n = 0
  . subst hzero
    rfl
  have hparse := parseNumber_showInt (n := (n : Int)) (by omega) false
  rw [showInt_natCast] at hparse
  unfold parseTrimmedNumber
  split
  . next htext =>
    rw [htext] at hparse
    cases hparse
  . exact hparse

/--
What an element does behind a component: it ends, or goes on with a component of a higher order.
-/
def trimmedRest (fuel : Nat) (rest : List Char) (order : Nat) (zone net node : Int) (point : UInt16)
    : Except AddressError (Int × Int × Int × UInt16) :=
  match rest, fuel with
  | [], _ => .ok (zone, net, node, point)
  | _ :: _, 0 => .error .invalidOrder
  | c :: rest, fuel + 1 =>
    if prefixOrder c ≤ order then
      .error .invalidOrder
    else
      parseTrimmedElement.go fuel rest (prefixOrder c) zone net node point

section Components

variable (fuel : Nat) {rest : List Char} (hrest : StartsComponent rest) (zone net node : Int)
  (point : UInt16)

include hrest

theorem trimmed_go_zone {n : Int} (hn : -1 ≤ n ∧ n ≤ 65535)
    : parseTrimmedElement.go fuel (showInt n ++ rest) 0 zone net node point =
        trimmedRest fuel rest 0 n n (defaultNode n) point := by
  unfold parseTrimmedElement.go
  rw [takeComponent_showInt n hrest]
  simp only [parseTrimmedNumber_showInt hn, Except.bind_of_ok]
  rfl

theorem trimmed_go_net {n : Int} (hn : -1 ≤ n ∧ n ≤ 65535)
    : parseTrimmedElement.go fuel (showInt n ++ rest) 1 zone net node point =
        trimmedRest fuel rest 1 zone n (defaultNode zone) point := by
  unfold parseTrimmedElement.go
  rw [takeComponent_showInt n hrest]
  simp only [parseTrimmedNumber_showInt hn, Except.bind_of_ok]
  rfl

theorem trimmed_go_node {n : Int} (hn : -1 ≤ n ∧ n ≤ 65535)
    : parseTrimmedElement.go fuel (showInt n ++ rest) 2 zone net node point =
        trimmedRest fuel rest 2 zone net n point := by
  unfold parseTrimmedElement.go
  rw [takeComponent_showInt n hrest]
  simp only [parseTrimmedNumber_showInt hn, Except.bind_of_ok]
  rfl

end Components

theorem trimmed_go_point (fuel : Nat) (zone net node : Int) (point shown : UInt16)
    : parseTrimmedElement.go fuel (Nat.toDigits 10 shown.toNat) 3 zone net node point =
        .ok (zone, net, node, shown) := by
  have hlt := shown.toNat_lt
  have hnil : StartsComponent [] := by simp [StartsComponent]
  have htake := takeComponent_showInt (shown.toNat : Int) hnil
  rw [List.append_nil, showInt_natCast] at htake
  have hpoint : pointOf (shown.toNat : Int) = .ok shown := by
    unfold pointOf
    rw [if_pos (by omega)]
    simp
  unfold parseTrimmedElement.go
  rw [htake]
  simp only [parseTrimmedNumber_toDigits (by omega : shown.toNat ≤ 65535), Except.bind_of_ok, hpoint]

namespace Address

section Trimmed

variable (address : Address)

theorem component_ranges
    : (-1 ≤ address.zone ∧ address.zone ≤ 65535) ∧ (-1 ≤ address.net ∧ address.net ≤ 65535) ∧
        (-1 ≤ address.node ∧ address.node ≤ 65535) := by
  rcases address.valid_cases.2 with h | h
  . omega
  . omega

theorem trimmedRest_displayPoint {fuel order : Nat} (horder : order < 3) (zone net node : Int)
    (hfuel : address.displayPoint.length ≤ fuel)
    : trimmedRest fuel address.displayPoint order zone net node 0 = .ok (zone, net, node, address.point) := by
  unfold displayPoint at *
  split
  . next hpoint =>
    rw [if_pos hpoint, List.length_cons] at hfuel
    cases fuel with
    | zero => omega
    | succ fuel =>
      unfold trimmedRest
      dsimp only
      rw [if_neg (by simp [prefixOrder]; omega)]
      exact trimmed_go_point fuel zone net node 0 address.point
  . next hpoint =>
    simp only [ne_eq, not_not] at hpoint
    rw [hpoint]
    rfl

theorem trimmedRest_displayNode {fuel order : Nat} (horder : order < 2) (net : Int)
    (hfuel : (address.displayNode ++ address.displayPoint).length ≤ fuel)
    : trimmedRest fuel (address.displayNode ++ address.displayPoint) order address.zone net
        (defaultNode address.zone) 0 =
        .ok (address.zone, net, address.node, address.point) := by
  unfold displayNode at *
  split
  . next hnode =>
    rw [if_pos hnode, List.cons_append, List.length_cons, List.length_append] at hfuel
    cases fuel with
    | zero => omega
    | succ fuel =>
      unfold trimmedRest
      rw [List.cons_append]
      dsimp only
      rw [if_neg (by simp [prefixOrder]; omega)]
      have hgo := trimmed_go_node fuel address.displayPoint_starts address.zone net
        (defaultNode address.zone) 0 address.component_ranges.2.2
      exact hgo.trans (trimmedRest_displayPoint address (by omega) _ _ _ (by omega))
  . next hnode =>
    simp only [ne_eq, not_not] at hnode
    rw [if_neg (not_not.mpr hnode)] at hfuel
    rw [← hnode]
    exact trimmedRest_displayPoint address (by omega) _ _ _ hfuel

theorem trimmedRest_displayNet {fuel : Nat}
    (hfuel : (address.displayNet ++ (address.displayNode ++ address.displayPoint)).length ≤ fuel)
    : trimmedRest fuel (address.displayNet ++ (address.displayNode ++ address.displayPoint)) 0 address.zone
        address.zone (defaultNode address.zone) 0 =
        .ok (address.zone, address.net, address.node, address.point) := by
  unfold displayNet at *
  split
  . next hnet =>
    rw [if_pos hnet, List.cons_append, List.length_cons, List.length_append] at hfuel
    cases fuel with
    | zero => omega
    | succ fuel =>
      unfold trimmedRest
      rw [List.cons_append]
      dsimp only
      rw [if_neg (by simp [prefixOrder])]
      have hgo := trimmed_go_net fuel address.displayNode_starts address.zone address.zone
        (defaultNode address.zone) 0 address.component_ranges.2.1
      exact hgo.trans (trimmedRest_displayNode address (by omega) _ (by omega))
  . next hnet =>
    simp only [ne_eq, not_not] at hnet
    rw [if_neg (not_not.mpr hnet)] at hfuel
    have hrest := trimmedRest_displayNode address (by omega : 0 < 2) address.zone hfuel
    rw [hnet]
    exact hrest

end Trimmed

end Address

/--
A domain that cannot be taken for a component of an address.
-/
def PlainDomain (domain : String) : Prop := ∀ c ∈ domain.toList.head?, c ∉ [':', '/', '.']

theorem parseTrimmedElement_display {address : Address} (hplain : PlainDomain address.domain)
    (previous : Option Address)
    : parseTrimmedElement address.display.toList previous = .ok address := by
  obtain ⟨hdomain, _⟩ := address.valid_cases
  have hhash := validateDomain_hash hdomain
  cases htext : address.domain.toList with
  | nil =>
    unfold validateDomain at hdomain
    rw [if_pos htext] at hdomain
    cases hdomain
  | cons c rest =>
    have hdisplay : address.display.toList = c :: (rest ++ '#' :: showInt address.zone ++ address.displayNet ++
        address.displayNode ++ address.displayPoint) := by
      simp [Address.display, htext]
    have hprefixed : ['#', ':', '/', '.'].contains c = false := by
      have hplain := hplain c (by simp [htext])
      have hne : c ≠ '#' := by
        rintro rfl
        exact hhash (by simp [htext])
      simpa [hne] using hplain
    unfold parseTrimmedElement
    rw [hdisplay]
    dsimp only
    rw [if_pos (by rw [hprefixed]; simp), ← hdisplay, String.ofList_toList]
    exact address.fromStr_display

theorem parseTrimmedElement_of_go {address prior : Address} {c : Char} {rest : List Char}
    (hc : ['#', ':', '/', '.'].contains c = true) (hdomain : prior.domain = address.domain)
    (hgo : parseTrimmedElement.go rest.length rest (if c = '#' then 0 else prefixOrder c) prior.zone prior.net
      prior.node 0 = .ok (address.zone, address.net, address.node, address.point))
    : parseTrimmedElement (c :: rest) (some prior) = .ok address := by
  unfold parseTrimmedElement
  dsimp only
  rw [if_neg (not_not.mpr hc)]
  simp only [Option.okOr_some, Except.bind_of_ok, hgo, hdomain]
  exact address.new_self

theorem parseTrimmedElement_format {address : Address} (hplain : PlainDomain address.domain)
    (previous : Option Address)
    : parseTrimmedElement (formatTrimmedElement previous address) previous = .ok address := by
  unfold formatTrimmedElement
  split
  . exact parseTrimmedElement_display hplain none
  next prior =>
  split
  . exact parseTrimmedElement_display hplain (some prior)
  next hdomain =>
  simp only [ne_eq, not_not] at hdomain
  obtain ⟨hzoneRange, hnetRange, hnodeRange⟩ := address.component_ranges
  split
  . simp only [List.cons_append, List.append_assoc]
    apply parseTrimmedElement_of_go (by decide) hdomain
    rw [if_pos rfl, trimmed_go_zone _ address.displayNet_starts _ _ _ _ hzoneRange]
    apply Address.trimmedRest_displayNet
    simp
  next hzone =>
  simp only [ne_eq, not_not] at hzone
  split
  . simp only [List.cons_append, List.append_assoc]
    apply parseTrimmedElement_of_go (by decide) hdomain
    rw [if_neg (by decide)]
    refine (trimmed_go_net _ address.displayNode_starts _ _ _ _ hnetRange).trans ?_
    rw [hzone]
    apply Address.trimmedRest_displayNode _ (by omega)
    simp
  next hnet =>
  simp only [ne_eq, not_not] at hnet
  split
  . simp only [List.cons_append]
    apply parseTrimmedElement_of_go (by decide) hdomain
    rw [if_neg (by decide)]
    refine (trimmed_go_node _ address.displayPoint_starts _ _ _ _ hnodeRange).trans ?_
    rw [hzone, hnet]
    apply Address.trimmedRest_displayPoint _ (by omega)
    simp
  next hnode =>
  simp only [ne_eq, not_not] at hnode
  split
  . apply parseTrimmedElement_of_go (by decide) hdomain
    rw [if_neg (by decide)]
    refine (trimmed_go_point _ _ _ _ _ _).trans ?_
    rw [hzone, hnet, hnode]
  . exact parseTrimmedElement_display hplain (some prior)

def trimmedElements (previous : Option Address) (addresses : List Address) : List (List Char) :=
  match addresses with
  | [] => []
  | address :: rest => formatTrimmedElement previous address :: trimmedElements (some address) rest

theorem formatTrimmedElement_ne_nil (previous : Option Address) (address : Address)
    : formatTrimmedElement previous address ≠ [] := by
  have hdisplay : address.display.toList ≠ [] := by simp [Address.display]
  unfold formatTrimmedElement
  split
  . exact hdisplay
  split
  . exact hdisplay
  split
  . simp
  split
  . simp
  split
  . simp
  split
  . simp
  . exact hdisplay

theorem formatTrimmedList_go {previous : Option Address} {addresses : List Address} {output : List Char}
    (houtput : output ≠ [])
    : formatTrimmedList.go previous addresses output =
        output ++ (trimmedElements previous addresses).flatMap (',' :: ·) := by
  induction addresses generalizing previous output with
  | nil => simp [formatTrimmedList.go, trimmedElements]
  | cons address addresses ih =>
    unfold formatTrimmedList.go trimmedElements
    dsimp only
    rw [if_neg houtput, ih (by simp)]
    simp

theorem formatTrimmedList_eq (addresses : List Address)
    : formatTrimmedList addresses = [','].intercalate (trimmedElements none addresses) := by
  cases addresses with
  | nil => rfl
  | cons address addresses =>
    unfold formatTrimmedList formatTrimmedList.go trimmedElements
    dsimp only
    rw [if_pos rfl, List.nil_append, formatTrimmedList_go (formatTrimmedElement_ne_nil none address),
      List.intercalate_singleton_cons]

theorem not_mem_comma_showInt (n : Int) : ',' ∉ showInt n := by
  intro hmem
  rcases mem_showInt hmem with h | h
  . cases h
  . cases h

namespace Address

variable (address : Address)

theorem not_mem_comma_displayPoint : ',' ∉ address.displayPoint := by
  have hdigits : ',' ∉ Nat.toDigits 10 address.point.toNat := Text.not_mem_toDigits (by decide) _
  unfold displayPoint
  split
  . simpa using hdigits
  . simp

theorem not_mem_comma_displayNode : ',' ∉ address.displayNode := by
  have hshow := not_mem_comma_showInt address.node
  unfold displayNode
  split
  . simpa using hshow
  . simp

theorem not_mem_comma_displayNet : ',' ∉ address.displayNet := by
  have hshow := not_mem_comma_showInt address.net
  unfold displayNet
  split
  . simpa using hshow
  . simp

theorem not_mem_comma_domain : ',' ∉ address.domain.toList := by
  intro hmem
  have hdomain := address.valid_cases.1
  unfold validateDomain at hdomain
  split at hdomain
  . cases hdomain
  . split at hdomain
    . cases hdomain
    . split at hdomain
      . cases hdomain
      . next hany =>
        apply hany
        rw [List.any_eq_true]
        exact ⟨',', hmem, by decide⟩

theorem not_mem_comma_display : ',' ∉ address.display.toList := by
  simp [display, not_mem_comma_domain, not_mem_comma_showInt, not_mem_comma_displayNet,
    not_mem_comma_displayNode, not_mem_comma_displayPoint]

end Address

theorem not_mem_comma_formatTrimmedElement (previous : Option Address) (address : Address)
    : ',' ∉ formatTrimmedElement previous address := by
  have hdisplay := address.not_mem_comma_display
  have hdigits : ',' ∉ Nat.toDigits 10 address.point.toNat := Text.not_mem_toDigits (by decide) _
  unfold formatTrimmedElement
  split
  . exact hdisplay
  split
  . exact hdisplay
  split
  . simp [not_mem_comma_showInt, address.not_mem_comma_displayNet, address.not_mem_comma_displayNode,
      address.not_mem_comma_displayPoint]
  split
  . simp [not_mem_comma_showInt, address.not_mem_comma_displayNode, address.not_mem_comma_displayPoint]
  split
  . simp [not_mem_comma_showInt, address.not_mem_comma_displayPoint]
  split
  . simpa using hdigits
  . exact hdisplay

theorem not_mem_comma_trimmedElements {previous : Option Address} {addresses : List Address}
    : ∀ element ∈ trimmedElements previous addresses, ',' ∉ element := by
  induction addresses generalizing previous with
  | nil => simp [trimmedElements]
  | cons address addresses ih =>
    simp only [trimmedElements, List.mem_cons, forall_eq_or_imp]
    exact ⟨not_mem_comma_formatTrimmedElement previous address, ih⟩

theorem expandTrimmed_format (addresses : List Address)
    : expandTrimmed (formatTrimmedList addresses) = expandTrimmed.go (trimmedElements none addresses) none := by
  rw [formatTrimmedList_eq]
  cases addresses with
  | nil => rfl
  | cons address addresses =>
    have hne : trimmedElements none (address :: addresses) ≠ [] := by simp [trimmedElements]
    unfold expandTrimmed
    rw [if_neg, List.splitOn_intercalate _ not_mem_comma_trimmedElements hne]
    intro hnil
    unfold trimmedElements at hnil
    rw [List.intercalate_singleton_cons, List.append_eq_nil_iff] at hnil
    exact formatTrimmedElement_ne_nil none address hnil.1

theorem expandTrimmed_go_plain {addresses : List Address} (h : ∀ address ∈ addresses, PlainDomain address.domain)
    (previous : Option Address)
    : expandTrimmed.go (trimmedElements previous addresses) previous = .ok addresses := by
  induction addresses generalizing previous with
  | nil => rfl
  | cons address addresses ih =>
    rw [List.forall_mem_cons] at h
    unfold trimmedElements expandTrimmed.go
    simp only [parseTrimmedElement_format h.1 previous, Except.bind_of_ok, ih h.2 (some address)]

theorem domain_of_parseTrimmedElement {c : Char} {rest : List Char} {previous : Option Address}
    {address : Address} (hc : c ∈ [':', '/', '.'])
    (h : parseTrimmedElement (c :: rest) previous = .ok address)
    : ∃ prior, previous = some prior ∧ prior.domain = address.domain := by
  unfold parseTrimmedElement at h
  dsimp only at h
  have hprefixed : ['#', ':', '/', '.'].contains c = true := by
    rw [List.contains_iff_mem]
    exact List.mem_cons_of_mem _ hc
  rw [if_neg (not_not.mpr hprefixed)] at h
  simp only [Except.bind_ok_iff, Option.okOr_eq_ok] at h
  obtain ⟨prior, hprior, ⟨zone, net, node, point⟩, _, hnew⟩ := h
  refine ⟨prior, hprior, ?_⟩
  unfold Address.new at hnew
  dsimp only at hnew
  split at hnew
  . cases hnew
  . cases hnew
    rfl

theorem plain_of_parseTrimmedElement {previous : Option Address} {address : Address}
    (hprevious : ∀ prior ∈ previous, PlainDomain prior.domain)
    (h : parseTrimmedElement (formatTrimmedElement previous address) previous = .ok address)
    : PlainDomain address.domain := by
  -- An element that is read back has a plain domain, or the domain of the address in front of it.
  by_cases hsame : ∃ prior ∈ previous, prior.domain = address.domain
  . obtain ⟨prior, hprior, hdomain⟩ := hsame
    rw [← hdomain]
    exact hprevious prior hprior
  intro c hc hmem
  have hformat : formatTrimmedElement previous address = address.display.toList := by
    unfold formatTrimmedElement
    split
    . rfl
    . next prior =>
      rw [if_pos]
      intro hdomain
      exact hsame ⟨prior, rfl, hdomain⟩
  obtain ⟨rest, hrest⟩ : ∃ rest, address.domain.toList = c :: rest := by
    cases hdomain : address.domain.toList with
    | nil => simp [hdomain] at hc
    | cons first rest =>
      rw [hdomain, List.head?_cons, Option.mem_def, Option.some.injEq] at hc
      exact ⟨rest, by rw [hc]⟩
  have hdisplay : address.display.toList = c :: (rest ++ '#' :: showInt address.zone ++ address.displayNet ++
      address.displayNode ++ address.displayPoint) := by
    simp [Address.display, hrest]
  rw [hformat, hdisplay] at h
  obtain ⟨prior, hprior, hdomain⟩ := domain_of_parseTrimmedElement hmem h
  exact hsame ⟨prior, hprior, hdomain⟩

theorem plain_of_expandTrimmed_go {addresses : List Address} {previous : Option Address}
    (hprevious : ∀ prior ∈ previous, PlainDomain prior.domain)
    (h : expandTrimmed.go (trimmedElements previous addresses) previous = .ok addresses)
    : ∀ address ∈ addresses, PlainDomain address.domain := by
  induction addresses generalizing previous with
  | nil => simp
  | cons address addresses ih =>
    unfold trimmedElements expandTrimmed.go at h
    simp only [Except.bind_ok_iff, Except.ok.injEq, List.cons.injEq] at h
    obtain ⟨first, hfirst, rest, hrest, rfl, rfl⟩ := h
    have hplain := plain_of_parseTrimmedElement hprevious hfirst
    rw [List.forall_mem_cons]
    exact ⟨hplain, ih (by simpa using hplain) hrest⟩

def sortedSet (addresses : List Address) : List Address :=
  (addresses.insertionSort (fun a b => (a.cmp b).isLE)).destutter (· ≠ ·)

theorem mem_sortedSet {address : Address} {addresses : List Address}
    : address ∈ sortedSet addresses ↔ address ∈ addresses := by
  rw [sortedSet, List.mem_destutter_ne, List.mem_insertionSort]

instance : Std.Total (fun a b : Address => (a.cmp b).isLE = true) where
  total a b := by
    rcases hcmp : compare a b with _ | _ | _
    . exact .inl (Ordering.isLE_of_eq_lt hcmp)
    . exact .inl (Ordering.isLE_of_eq_eq hcmp)
    . have hlt : compare b a = .lt := OrientedCmp.lt_of_gt hcmp
      exact .inr (Ordering.isLE_of_eq_lt hlt)

instance : IsTrans Address (fun a b : Address => (a.cmp b).isLE = true) where
  trans a b c := by
    have htrans : (compare a b).isLE → (compare b c).isLE → (compare a c).isLE := TransOrd.isLE_trans
    exact htrans

theorem pairwise_sortedSet (addresses : List Address)
    : (sortedSet addresses).Pairwise (fun a b => (a.cmp b).isLE = true) :=
  (List.pairwise_insertionSort _ addresses).sublist (List.destutter_sublist _ _)

theorem sortedSet_sortedSet (addresses : List Address) : sortedSet (sortedSet addresses) = sortedSet addresses := by
  have hsorted := (pairwise_sortedSet addresses).insertionSort_eq
  rw [sortedSet, hsorted, sortedSet, List.destutter_idem]

theorem formatTrimmedCollection_eq (addresses : List Address)
    : formatTrimmedCollection addresses = formatTrimmedList (sortedSet addresses) := rfl

theorem parseTrimmedCollection_format_iff (addresses : List Address)
    : parseTrimmedCollection (formatTrimmedCollection addresses) = .ok (sortedSet addresses) ↔
        ∀ address ∈ addresses, PlainDomain address.domain := by
  rw [formatTrimmedCollection_eq]
  simp only [parseTrimmedCollection, expandTrimmed_format, Except.bind_ok_iff]
  constructor
  . rintro ⟨expanded, hexpanded, hcanonical⟩
    split at hcanonical
    . cases hcanonical
    . cases hcanonical
      intro address hmem
      exact plain_of_expandTrimmed_go (by simp) hexpanded address (mem_sortedSet.mpr hmem)
  . intro hplain
    refine ⟨sortedSet addresses, expandTrimmed_go_plain ?_ none, ?_⟩
    . intro address hmem
      exact hplain address (mem_sortedSet.mp hmem)
    . rw [if_neg]
      rw [not_not, formatTrimmedCollection_eq, sortedSet_sortedSet]

end Tith
