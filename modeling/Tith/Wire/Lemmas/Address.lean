import Tith.Lib.List
import Tith.Wire.Address

/-!
This module contains the proof that the canonical text of an address is read back as that address, and the
order of addresses.
-/

namespace Tith

theorem validateDomain_hash {domain : String} (h : validateDomain domain = .ok ())
    : '#' ∉ domain.toList := by
  intro hmem
  unfold validateDomain at h
  split at h
  . cases h
  . split at h
    . cases h
    . split at h
      . cases h
      . next hany =>
        apply hany
        rw [List.any_eq_true]
        exact ⟨'#', hmem, by decide⟩

namespace Address

theorem valid_cases (address : Address)
    : validateDomain address.domain = .ok () ∧
        ((address.zone = -1 ∧ address.net = -1 ∧ address.node = -1 ∧ address.point = 0) ∨
          (1 ≤ address.zone ∧ address.zone ≤ 32767 ∧ 1 ≤ address.net ∧ address.net ≤ 32767 ∧
            0 ≤ address.node ∧ address.node ≤ 32767)) := by
  obtain ⟨domain, zone, net, node, point, hvalid⟩ := address
  dsimp only
  unfold validateAddress at hvalid
  split at hvalid
  . cases hvalid
  . next hdomain =>
    refine ⟨hdomain, ?_⟩
    split at hvalid
    . cases hvalid
    . split at hvalid
      . cases hvalid
      . next hzone =>
        split at hvalid
        . next hanonymous =>
          split at hvalid
          . cases hvalid
          . next hrest =>
            simp only [not_or, not_not] at hrest
            exact .inl ⟨hanonymous, hrest⟩
        . split at hvalid
          . cases hvalid
          . next hrest =>
            right
            omega

theorem new_self (address : Address)
    : Address.new address.domain address.zone address.net address.node address.point =
        .ok address := by
  unfold Address.new
  split
  . next h =>
    rw [address.valid] at h
    cases h
  . rfl

end Address

theorem showInt_natCast (n : Nat) : showInt (n : Int) = Nat.toDigits 10 n := rfl

theorem parseNumber_showInt {n : Int} (hn : 1 ≤ n ∧ n ≤ 65535) (allowNegativeOne : Bool)
    : parseNumber (showInt n) allowNegativeOne = .ok n := by
  obtain ⟨k, rfl⟩ := Int.eq_ofNat_of_zero_le (by omega : 0 ≤ n)
  have hhead := Text.head?_toDigits_ne_zero (n := k) (by omega)
  have hminus := Text.not_mem_toDigits (c := '-') (by decide) k
  rw [showInt_natCast]
  unfold parseNumber
  rw [if_neg]
  . rw [if_neg hhead, Text.digits?_toDigits]
    dsimp only
    rw [if_pos (by unfold i32Max; omega)]
  . rintro ⟨_, htext⟩
    rw [htext] at hminus
    simp at hminus

/--
A rest that the next component does not run into.
-/
def StartsComponent (rest : List Char) : Prop := ∀ c ∈ rest.head?, c ∈ [':', '/', '.']

theorem mem_showInt {n : Int} {c : Char} (h : c ∈ showInt n) : c = '-' ∨ c.isDigit := by
  unfold showInt at h
  split at h
  . exact .inr (Nat.isDigit_of_mem_toDigits (by omega) (by omega) h)
  . rcases List.mem_cons.mp h with rfl | h
    . exact .inl rfl
    . exact .inr (Nat.isDigit_of_mem_toDigits (by omega) (by omega) h)

theorem takeComponent_showInt (n : Int) {rest : List Char} (hrest : StartsComponent rest)
    : takeComponent (showInt n ++ rest) = (showInt n, rest) := by
  unfold takeComponent
  apply List.span_append
  . intro c hc
    rcases mem_showInt hc with rfl | hdigit
    . decide
    . simp only [Bool.not_eq_true', List.contains_eq_mem, decide_eq_false_iff_not]
      intro hmem
      simp only [List.mem_cons, List.not_mem_nil, or_false] at hmem
      rcases hmem with rfl | rfl | rfl <;> simp at hdigit
  . intro c hc
    have := hrest c hc
    simpa only [Bool.not_eq_false', List.contains_eq_mem, decide_eq_true_eq] using this

namespace Address

variable (address : Address)

theorem displayPoint_starts : StartsComponent address.displayPoint := by
  unfold displayPoint
  split
  . simp [StartsComponent]
  . simp [StartsComponent]

theorem displayNode_starts : StartsComponent (address.displayNode ++ address.displayPoint) := by
  have h := displayPoint_starts address
  unfold displayNode
  split
  . simp [StartsComponent]
  . exact h

theorem displayNet_starts
    : StartsComponent (address.displayNet ++ (address.displayNode ++ address.displayPoint)) := by
  have h := displayNode_starts address
  unfold displayNet
  split
  . simp [StartsComponent]
  . exact h

theorem fromStr_go_displayPoint (zone net node : Int) {lastPrefix : Nat} (hlast : lastPrefix < 3)
    {fuel : Nat} (hfuel : address.displayPoint.length ≤ fuel)
    : fromStr.go zone fuel address.displayPoint net node 0 lastPrefix =
        .ok (net, node, address.point) := by
  unfold displayPoint at *
  split
  . next hpoint =>
    rw [if_pos hpoint] at hfuel
    cases fuel with
    | zero => simp at hfuel
    | succ fuel =>
      have hlt := address.point.toNat_lt
      have hpos : address.point.toNat ≠ 0 := by
        intro h
        exact hpoint (UInt16.toNat_inj.mp h)
      have hnil : StartsComponent [] := by simp [StartsComponent]
      have htake := takeComponent_showInt (address.point.toNat : Int) hnil
      have hparse := parseNumber_showInt (n := (address.point.toNat : Int)) (by omega) false
      rw [List.append_nil, showInt_natCast] at htake
      rw [showInt_natCast] at hparse
      unfold fromStr.go
      rw [if_neg (by simp [prefixOrder]; omega), htake]
      simp only [Char.reduceEq, if_false, hparse, Except.bind_of_ok]
      unfold pointOf
      rw [if_pos (by omega)]
      simp [fromStr.go]
  . next hpoint =>
    simp only [ne_eq, not_not] at hpoint
    unfold fromStr.go
    rw [hpoint]

theorem fromStr_go_displayNode (net : Int) {lastPrefix : Nat} (hlast : lastPrefix < 2) {fuel : Nat}
    (hfuel : (address.displayNode ++ address.displayPoint).length ≤ fuel)
    : fromStr.go address.zone fuel (address.displayNode ++ address.displayPoint) net
        (defaultNode address.zone) 0 lastPrefix =
        .ok (net, address.node, address.point) := by
  unfold displayNode at *
  split
  . next hnode =>
    rw [if_pos hnode] at hfuel
    cases fuel with
    | zero => simp at hfuel
    | succ fuel =>
      have hrange : 1 ≤ address.node ∧ address.node ≤ 65535 := by
        unfold defaultNode at hnode
        rcases address.valid_cases.2 with ⟨hzone, _, h, _⟩ | h
        . rw [if_pos hzone] at hnode
          omega
        . rw [if_neg (by omega)] at hnode
          omega
      simp only [List.cons_append, List.length_cons, List.length_append] at hfuel
      unfold fromStr.go
      simp only [List.cons_append]
      rw [if_neg (by simp [prefixOrder]; omega),
        takeComponent_showInt _ address.displayPoint_starts]
      simp only [Char.reduceEq, if_false, if_true, parseNumber_showInt hrange, Except.bind_of_ok]
      exact fromStr_go_displayPoint address _ _ _ (by simp [prefixOrder]) (by omega)
  . next hnode =>
    simp only [ne_eq, not_not] at hnode
    rw [if_neg (not_not.mpr hnode)] at hfuel
    rw [← hnode]
    exact fromStr_go_displayPoint address _ _ _ (by omega) (by simpa using hfuel)

theorem fromStr_go_displayNet {fuel : Nat}
    (hfuel : (address.displayNet ++ (address.displayNode ++ address.displayPoint)).length ≤ fuel)
    : fromStr.go address.zone fuel
        (address.displayNet ++ (address.displayNode ++ address.displayPoint)) address.zone
        (defaultNode address.zone) 0 0 =
        .ok (address.net, address.node, address.point) := by
  unfold displayNet at *
  split
  . next hnet =>
    rw [if_pos hnet] at hfuel
    cases fuel with
    | zero => simp at hfuel
    | succ fuel =>
      have hrange : 1 ≤ address.net ∧ address.net ≤ 65535 := by
        rcases address.valid_cases.2 with h | h <;> omega
      simp only [List.cons_append, List.length_cons, List.length_append] at hfuel
      unfold fromStr.go
      simp only [List.cons_append]
      rw [if_neg (by simp [prefixOrder]), takeComponent_showInt _ address.displayNode_starts]
      simp only [if_true, parseNumber_showInt hrange, Except.bind_of_ok]
      rw [if_neg hnet]
      exact fromStr_go_displayNode address _ (by simp [prefixOrder])
        (by rw [List.length_append]; omega)
  . next hnet =>
    simp only [ne_eq, not_not] at hnet
    rw [if_neg (not_not.mpr hnet)] at hfuel
    have hgo := fromStr_go_displayNode address address.zone Nat.zero_lt_two (by simpa using hfuel)
    rw [List.nil_append, hgo, hnet]

theorem parseNumber_zone : parseNumber (showInt address.zone) true = .ok address.zone := by
  rcases address.valid_cases.2 with ⟨hzone, _⟩ | h
  . rw [hzone]
    rfl
  . exact parseNumber_showInt (by omega) true

theorem fromStr_display : fromStr address.display = .ok address := by
  obtain ⟨hdomain, hranges⟩ := address.valid_cases
  have hhash := validateDomain_hash hdomain
  have hspan : address.display.toList.span (· ≠ '#') =
      (address.domain.toList,
        '#' :: (showInt address.zone ++
          (address.displayNet ++ (address.displayNode ++ address.displayPoint)))) := by
    unfold display
    rw [String.toList_ofList]
    simp only [List.append_assoc, List.cons_append]
    apply List.span_append
    . intro c hc
      simp only [decide_eq_true_eq]
      rintro rfl
      exact hhash hc
    . simp
  have hcontains : address.display.toList.contains '#' = true := by
    simp [display]
  have hzone : ¬(address.zone ≠ -1 ∧ ¬(1 ≤ address.zone ∧ address.zone ≤ 32767)) := by omega
  have hnet : (if address.zone = -1 then -1 else address.zone) = address.zone := by
    split
    . next h => exact h.symm
    . rfl
  unfold fromStr
  rw [if_neg (not_not.mpr hcontains), hspan]
  simp only [String.ofList_toList, hdomain, List.tail_cons, Except.bind_of_ok]
  rw [takeComponent_showInt _ address.displayNet_starts]
  simp only [parseNumber_zone, Except.bind_of_ok]
  rw [if_neg hzone, hnet, fromStr_go_displayNet address le_rfl]
  exact address.new_self

theorem display_inj {a b : Address} (h : a.display = b.display) : a = b := by
  have ha := fromStr_display a
  rw [h, fromStr_display b] at ha
  exact (Except.ok.inj ha).symm

end Address

open Std

instance : Ord Address := ⟨Address.cmp⟩

theorem Address.compare_eq
    : (compare : Address → Address → Ordering) =
        compareLex (compareOn Address.domain) (compareLex (compareOn Address.zone)
          (compareLex (compareOn Address.net) (compareLex (compareOn Address.node)
            (compareOn Address.point)))) := rfl

instance : TransOrd Address := by
  unfold TransOrd
  rw [Address.compare_eq]
  infer_instance

instance : LawfulEqOrd Address where
  compare_self := ReflCmp.compare_self
  eq_of_compare := by
    intro a b h
    simp only [Address.compare_eq, compareLex, compareOn, Ordering.then_eq_eq,
      LawfulEqOrd.compare_eq_iff_eq] at h
    obtain ⟨hdomain, hzone, hnet, hnode, hpoint⟩ := h
    cases a
    cases b
    simp_all

end Tith
