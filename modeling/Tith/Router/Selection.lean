import Tith.Lib.List
import Tith.Router.Route

/-!
This module contains what the router selects: the first rule that matches, the first of its methods that
has a candidate, and where the key of a candidate comes from.
-/

namespace Tith

namespace Router

open Config

variable {sources : Sources} {destination : Identity}

def Matches (sources : Sources) (destination : Identity) (rule : RouteRule) : Prop :=
  selectorMatches sources rule.destination destination = true

def HasCandidate (sources : Sources) (destination : Identity) (method : RouteMethod) : Prop :=
  (candidate sources method destination).isSome

/--
The methods that are considered, and the position of the rule that they are from.
-/
inductive Considers (sources : Sources) (rules : List RouteRule) (destination : Identity)
    : Option Nat → List RouteMethod → Prop where
  | rule {index : Nat} {rule : RouteRule} (h : rules.FirstAt (Matches sources destination) index rule)
      : Considers sources rules destination (some index) rule.methods
  | defaults (h : ∀ rule ∈ rules, ¬Matches sources destination rule)
      : Considers sources rules destination none (defaultMethods destination)

theorem selectMethods_considers (sources : Sources) (rules : List RouteRule) (destination : Identity)
    : Considers sources rules destination (selectMethods sources rules destination).1
        (selectMethods sources rules destination).2 := by
  unfold selectMethods
  split
  . next hnone =>
    refine .defaults ?_
    intro rule hmem
    obtain ⟨index, hindex⟩ := List.getElem?_of_mem hmem
    have hzip : (rule, index) ∈ rules.zipIdx := List.mem_zipIdx_iff_getElem?.mpr hindex
    have := List.find?_eq_none.mp hnone (rule, index) hzip
    simpa [Matches] using this
  . next rule index hsome =>
    obtain ⟨offset, heq, hfirst⟩ := List.find?_zipIdx_eq_some
      (p := fun rule : RouteRule => selectorMatches sources rule.destination destination) hsome
    rw [heq, Nat.zero_add]
    exact .rule hfirst

theorem commit_of_none {vias : List Identity} {rule : Option Nat} {methods : List RouteMethod}
    (h : ∀ method ∈ methods, ¬HasCandidate sources destination method) (methodIndex : Nat)
    : commit sources destination vias rule methods methodIndex = .error .unroutable := by
  induction methods generalizing methodIndex with
  | nil => rfl
  | cons method rest ih =>
    have hmethod := h method List.mem_cons_self
    rw [HasCandidate, Option.not_isSome_iff_eq_none] at hmethod
    simp only [commit, hmethod]
    exact ih (fun other hmem => h other (List.mem_cons_of_mem method hmem)) _

theorem commit_of_first {vias : List Identity} {rule : Option Nat} {methods : List RouteMethod}
    {index : Nat} {method : RouteMethod} {nextHop : Identity} {passive : Bool}
    (h : methods.FirstAt (HasCandidate sources destination) index method)
    (hcandidate : candidate sources method destination = some (nextHop, passive)) (methodIndex : Nat)
    : commit sources destination vias rule methods methodIndex =
        if vias.any (fun via => via.sameSystemAs nextHop) then
          .error .loop
        else
          .ok ⟨nextHop, passive, rule, methodIndex + index⟩ := by
  induction methods generalizing index methodIndex with
  | nil => cases h.1
  | cons first rest ih =>
    cases index with
    | zero =>
      obtain ⟨rfl, _⟩ := List.firstAt_cons_zero.mp h
      simp only [commit, hcandidate, Nat.add_zero]
    | succ index =>
      obtain ⟨hfirst, hrest⟩ := List.firstAt_cons_succ.mp h
      rw [HasCandidate, Option.not_isSome_iff_eq_none] at hfirst
      simp only [commit, hfirst]
      rw [ih hrest, Nat.add_assoc, Nat.add_comm 1]

theorem first_candidate (sources : Sources) (destination : Identity) (methods : List RouteMethod)
    : (∀ method ∈ methods, ¬HasCandidate sources destination method) ∨
        ∃ index method nextHop passive,
          methods.FirstAt (HasCandidate sources destination) index method ∧
            candidate sources method destination = some (nextHop, passive) := by
  induction methods with
  | nil => simp
  | cons method rest ih =>
    cases hcandidate : candidate sources method destination with
    | some result =>
      refine .inr ⟨0, method, result.1, result.2, List.firstAt_cons_zero.mpr ⟨rfl, ?_⟩, hcandidate⟩
      simp [HasCandidate, hcandidate]
    | none =>
      have hnot : ¬HasCandidate sources destination method := by simp [HasCandidate, hcandidate]
      rcases ih with hnone | ⟨index, other, nextHop, passive, hfirst, hother⟩
      . exact .inl (List.forall_mem_cons.mpr ⟨hnot, hnone⟩)
      . exact .inr ⟨index + 1, other, nextHop, passive,
          List.firstAt_cons_succ.mpr ⟨hnot, hfirst⟩, hother⟩

/-!
The keys of the candidates.
-/

def Known (resolver : KeyResolver) (identity : Identity) : Prop :=
  identity.address.isAnonymous = false → (resolver identity.address).isSome

theorem peerIdentity_known {peer : Peer} {resolver : KeyResolver} {identity : Identity}
    (h : peerIdentity peer resolver = some identity)
    : Known resolver identity := by
  unfold peerIdentity at h
  split at h
  . next hanonymous =>
    simp only [Option.bind_eq_bind, Option.bind_eq_some_iff] at h
    obtain ⟨key, _, heq⟩ := h
    cases heq
    intro hlisted
    rw [hanonymous] at hlisted
    cases hlisted
  . simp only [Option.bind_eq_bind, Option.bind_eq_some_iff] at h
    obtain ⟨key, hkey, heq⟩ := h
    cases heq
    intro _
    simp [hkey]

theorem namedPeer_known {name : String} {identity : Identity}
    (h : namedPeer sources name = some identity)
    : Known sources.resolver identity := by
  simp only [namedPeer, Option.bind_eq_bind, Option.bind_eq_some_iff] at h
  obtain ⟨peer, _, hpeer⟩ := h
  exact peerIdentity_known hpeer

theorem eligibleAncestor_eq {identity nextHop : Identity} {passive : Bool}
    (h : eligibleAncestor sources identity = some (nextHop, passive))
    : nextHop = identity := by
  simp only [eligibleAncestor, Option.ite_none_right_eq_some, Option.some.injEq, Prod.mk.injEq] at h
  exact h.2.1.symm

theorem listedAncestor_known {address : Address} {nextHop : Identity} {passive : Bool}
    (h : listedAncestor sources address = some (nextHop, passive))
    : Known sources.resolver nextHop := by
  simp only [listedAncestor, Option.bind_eq_bind, Option.bind_eq_some_iff] at h
  obtain ⟨_, _, _, _, key, hkey, heligible⟩ := h
  rw [eligibleAncestor_eq heligible]
  intro _
  simp [hkey]

theorem namedAncestor_known {superior : Peer → Option String} {nextHop : Identity} {passive : Bool}
    (h : namedAncestor sources destination superior = some (nextHop, passive))
    : Known sources.resolver nextHop := by
  simp only [namedAncestor, Option.bind_eq_bind, Option.bind_eq_some_iff] at h
  obtain ⟨_, _, _, _, identity, hidentity, heligible⟩ := h
  rw [eligibleAncestor_eq heligible]
  exact namedPeer_known hidentity

theorem candidate_known {method : RouteMethod} {nextHop : Identity} {passive : Bool}
    (h : candidate sources method destination = some (nextHop, passive))
    : nextHop = destination ∨ Known sources.resolver nextHop := by
  -- The methods that name the destination itself, and those that name a system the resolver knows.
  cases method with
  | via name =>
    simp only [candidate, Option.bind_eq_bind, Option.bind_eq_some_iff] at h
    obtain ⟨identity, hidentity, heq⟩ := h
    cases heq
    exact .inr (namedPeer_known hidentity)
  | direct =>
    left
    simp only [candidate, directCandidate] at h
    split at h
    . simp only [Option.bind_eq_bind, Option.bind_eq_some_iff] at h
      obtain ⟨peer, _, hpeer⟩ := h
      split at hpeer
      . cases hpeer
      . cases hpeer
        rfl
    . split at h
      . cases h
        rfl
      . cases h
  | hold =>
    left
    simp only [candidate] at h
    split at h
    . cases h
    . cases h
      rfl
  | boss =>
    right
    simp only [candidate] at h
    split at h
    . exact namedAncestor_known h
    . simp only [Option.bind_eq_bind, Option.bind_eq_some_iff] at h
      obtain ⟨_, _, hlisted⟩ := h
      exact listedAncestor_known hlisted
  | hub =>
    right
    simp only [candidate] at h
    split at h
    . exact namedAncestor_known h
    . simp only [Option.bind_eq_bind, Option.bind_eq_some_iff] at h
      obtain ⟨_, _, _, _, hlisted⟩ := h
      exact listedAncestor_known hlisted
  | host =>
    right
    simp only [candidate, Option.bind_eq_bind, Option.bind_eq_some_iff] at h
    obtain ⟨_, _, _, _, hlisted⟩ := h
    exact listedAncestor_known hlisted
  | region =>
    right
    simp only [candidate, Option.bind_eq_bind, Option.bind_eq_some_iff] at h
    obtain ⟨_, _, _, _, hlisted⟩ := h
    exact listedAncestor_known hlisted
  | zone =>
    right
    simp only [candidate, Option.bind_eq_bind, Option.bind_eq_some_iff] at h
    obtain ⟨_, _, hlisted⟩ := h
    exact listedAncestor_known hlisted

end Router

end Tith
