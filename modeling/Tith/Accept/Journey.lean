import Tith.Accept.Loop
import Tith.Accept.Spool
import Tith.Submission.Trail

/-!
This module contains the proof that a NetMail that is relayed from one system to the next never returns: the vias
that it collects keep every system that it came through.
-/

namespace Tith

namespace Accept

open Config Router Submission

theorem routeNetmail_forget {sources : Sources} {routes : Routes} {destination : Identity}
    {vias : List Identity} {commitment : Commitment}
    (h : routeNetmail sources routes destination vias = .ok commitment)
    : routeNetmail sources routes destination [] = .ok commitment := by
  unfold routeNetmail at h ⊢
  split at h
  . cases h
  . next hdown =>
    rw [if_neg hdown]
    dsimp only at h ⊢
    rcases first_candidate sources destination
      (selectMethods sources routes.routes destination).2 with hnone | ⟨index, method, nextHop, passive,
        hfirst, hcandidate⟩
    . rw [commit_of_none hnone] at h
      cases h
    . rw [commit_of_first hfirst hcandidate] at h ⊢
      split at h
      . cases h
      . exact h

/--
A system that relays a NetMail: what has arrived, and what is spooled for it.
-/
structure Relay (c : Crypto) where
  base64 : Nodelist.Base64
  arrival : Arrival c
  requestIdentifier : UInt64
  viaTime : UInt64
  created : UInt64
  prepared : PreparedRelay
  isRelay : arrival.IsRelay
  isPrepared : prepareRelay c base64 arrival.acceptance arrival.item arrival.peer requestIdentifier viaTime created =
    .ok prepared

namespace Relay

variable {c : Crypto}

def localIdentity (relay : Relay c) : Identity := relay.arrival.acceptance.localIdentity

def raw (relay : Relay c) : OwnedTlv := relay.arrival.item.raw

def GoesTo (relay : Relay c) (identity : Identity) : Prop :=
  ∃ copy ∈ relay.prepared.job.deliveries, copy.nextHop = identity.address.display ∧
    copy.nextHopKey = identity.embeddedKey

def HasVia (relay : Relay c) (identity : Identity) : Prop :=
  ∃ vias, itemVias relay.raw = .ok vias ∧ ∃ via ∈ vias, Names via identity

/--
The next system has received the copy. In its bundle the item has an identifier of its own.
-/
def Follows (relay next : Relay c) : Prop :=
  (∃ value n, parseSequence relay.prepared.job.item = .ok [value] ∧ setRequestIdentifier value n = .ok next.raw) ∧
    relay.GoesTo next.localIdentity

/--
What a relay was prepared from.
-/
structure Preparation (relay : Relay c) where
  destination : Identity
  routes : Routes
  vias : List ViaData
  commitment : Commitment
  relayed : OwnedTlv
  policies : Vector FailurePolicy 2
  isDestination : relay.arrival.item.destination = some destination
  isVias : itemVias relay.raw = .ok vias
  isCommitment : routeNetmail relay.arrival.acceptance.sources routes destination
    (vias.filterMap (viaIdentity relay.arrival.acceptance.resolver)) = .ok commitment
  isRelayed : forwardItem relay.raw relay.localIdentity relay.requestIdentifier relay.viaTime software [] = .ok relayed
  isItem : relay.prepared.job.item = relayed.encode
  isDeliveries : relay.prepared.job.deliveries = [relayDelivery relay.arrival.acceptance commitment policies]

theorem exists_preparation (relay : Relay c) : Nonempty relay.Preparation := by
  have h := relay.isPrepared
  simp only [prepareRelay, viaIdentities, Except.bind_ok_iff, Option.okOr_eq_ok, Except.mapError_eq_ok,
    Except.ok.injEq] at h
  obtain ⟨destination, hdestination, signed, _, routes, _, onFailure, _, _, ⟨vias, hvias, rfl⟩, commitment,
    hcommitment, relayed, hrelayed, identity, _, h⟩ := h
  exact ⟨{
    destination, routes, vias, commitment, relayed
    policies := _
    isDestination := hdestination
    isVias := hvias
    isCommitment := hcommitment
    isRelayed := hrelayed
    isItem := by rw [← h]; rfl
    isDeliveries := by rw [← h]; rfl }⟩

theorem HasVia.not_goesTo {relay : Relay c} {identity : Identity} (h : relay.HasVia identity)
    : ¬relay.GoesTo identity := by
  -- No copy goes to a system that the item came through.
  rintro ⟨copy, hcopy, hnext, hkey⟩
  obtain ⟨p⟩ := relay.exists_preparation
  obtain ⟨vias, hvias, via, hvia, haddress, hviaKey⟩ := h
  obtain rfl : p.vias = vias := Except.ok.inj (p.isVias.symm.trans hvias)
  rw [p.isDeliveries, List.mem_singleton] at hcopy
  rw [hcopy] at hnext hkey
  have hsame : p.commitment.nextHop.address = identity.address := Address.display_inj hnext
  have hnames : Names via p.commitment.nextHop := by
    refine ⟨haddress.trans hsame.symm, ?_⟩
    intro hanonymous
    have hembedded : p.commitment.nextHop.embeddedKey = identity.embeddedKey := hkey
    rw [hsame] at hanonymous
    simp only [Identity.embeddedKey, hsame, hanonymous, if_true, Option.some.injEq] at hembedded
    rw [hembedded]
    exact hviaKey hanonymous
  have hroute := routeNetmail_forget p.isCommitment
  obtain ⟨identities, hidentities, hloop⟩ := relay_loop relay.arrival.valid relay.isRelay.1 p.isDestination
    (fun hown => relay.isRelay.2 (hown ▸ p.isDestination)) hvias hroute hvia hnames
  simp only [viaIdentities, Except.bind_ok_iff, Except.ok.injEq] at hidentities
  obtain ⟨vias', hvias', rfl⟩ := hidentities
  obtain rfl : p.vias = vias' := Except.ok.inj (p.isVias.symm.trans hvias')
  rw [p.isCommitment] at hloop
  cases hloop

/--
What a later system can read from the item that an earlier one has received: the same signed part, and every system
that it came through then or with it.
-/
structure Extends (relay next : Relay c) : Prop where
  signed : ∀ children children', parseSequence relay.raw.value = .ok children →
    parseSequence next.raw.value = .ok children' → signedPart children' = signedPart children
  vias : ∀ identity, relay.HasVia identity ∨ identity = relay.localIdentity → next.HasVia identity

theorem Follows.extends {relay next : Relay c} (h : relay.Follows next) : relay.Extends next := by
  obtain ⟨⟨value, n, hvalue, hset⟩, -⟩ := h
  obtain ⟨p⟩ := relay.exists_preparation
  obtain ⟨f⟩ := forwardItem_ok p.isRelayed
  have hrelayed : value = p.relayed := by
    have hitem : parseSequence relay.prepared.job.item = .ok [p.relayed] := by
      rw [p.isItem, parseSequence_eq_ok]
      refine ⟨by simp [concatenate], ?_⟩
      simpa using f.isDefined
    rw [hvalue, Except.ok.injEq, List.cons.injEq] at hitem
    exact hitem.1
  subst hrelayed
  obtain ⟨children', via, hparse, hvia, hsigned, hvias⟩ := forwarded_children p.isRelayed hset f.isChildren
  constructor
  . intro children children'' hchildren hchildren''
    rw [f.isChildren, Except.ok.injEq] at hchildren
    rw [hparse, Except.ok.injEq] at hchildren''
    rw [← hchildren, ← hchildren'']
    exact hsigned
  . intro identity hidentity
    have hown := (viaValue_ok hvia).2
    have hbefore := p.isVias
    rw [itemVias_eq f.isChildren] at hbefore
    have hafter : itemVias next.raw = .ok (p.vias ++ [viaData relay.localIdentity relay.viaTime software]) := by
      rw [itemVias_eq hparse, hvias, List.mapM_append, hbefore, Except.bind_of_ok, List.mapM_cons, hown]
      rfl
    refine ⟨_, hafter, ?_⟩
    rcases hidentity with ⟨vias, hread, via', hvia', hnames⟩ | rfl
    . obtain rfl : p.vias = vias := Except.ok.inj (p.isVias.symm.trans hread)
      exact ⟨via', List.mem_append_left _ hvia', hnames⟩
    . refine ⟨_, List.mem_append_right _ List.mem_cons_self, rfl, ?_⟩
      intro hanonymous
      simp [viaData, Identity.embeddedKey, hanonymous]

instance : Trans (Extends (c := c)) Extends Extends where
  trans := by
    intro a b d h h'
    obtain ⟨p⟩ := b.exists_preparation
    obtain ⟨f⟩ := forwardItem_ok p.isRelayed
    constructor
    . intro children children' hchildren hchildren'
      rw [h'.signed _ _ f.isChildren hchildren', h.signed _ _ hchildren f.isChildren]
    . intro identity hidentity
      exact h'.vias identity (.inl (h.vias identity hidentity))

theorem HasVia.not_mem {relay : Relay c} {chain : List (Relay c)} (h : (relay :: chain).IsChain Follows)
    {identity : Identity} (hvia : relay.HasVia identity)
    : ∀ later ∈ chain, later.localIdentity ≠ identity := by
  -- A system that the item came through does not relay it again.
  induction chain generalizing relay with
  | nil => simp
  | cons next chain ih =>
    rw [List.isChain_cons_cons] at h
    intro later hlater hown
    rcases List.mem_cons.mp hlater with rfl | hlater
    . exact hvia.not_goesTo (hown ▸ h.1.2)
    . exact ih h.2 (h.1.extends.vias identity (.inl hvia)) later hlater hown

theorem relays_distinct {chain : List (Relay c)} (h : chain.IsChain Follows)
    (hother : ∀ relay ∈ chain, ¬relay.GoesTo relay.localIdentity)
    : chain.Pairwise (fun earlier later =>
        ∀ identity, earlier.localIdentity = identity → ¬later.localIdentity = identity) := by
  induction chain with
  | nil => exact .nil
  | cons relay chain ih =>
    cases chain with
    | nil => simp
    | cons next chain =>
      rw [List.isChain_cons_cons] at h
      refine List.pairwise_cons.mpr ⟨?_, ih h.2 (fun later hlater => hother later (List.mem_cons_of_mem _ hlater))⟩
      rintro later hlater identity rfl hown
      rcases List.mem_cons.mp hlater with rfl | hlater
      . exact hother relay List.mem_cons_self (hown ▸ h.1.2)
      . exact HasVia.not_mem h.2 (h.1.extends.vias _ (.inr rfl)) later hlater hown

end Relay

/--
However a NetMail is relayed from one system to the next, it is not sent to a system that it came through, nor to one
that has relayed it, and what is signed arrives as it was sent. So it is relayed at most once by each system, unless a
system sends it to itself.
-/
theorem relay_never_returns {c : Crypto} (chain : List (Relay c)) (h : chain.IsChain Relay.Follows)
    : (∀ relay ∈ chain, ∀ identity, relay.HasVia identity → ¬relay.GoesTo identity) ∧
      chain.Pairwise (fun earlier later => ∀ identity,
        earlier.HasVia identity ∨ identity = earlier.localIdentity → ¬later.GoesTo identity) ∧
      chain.Pairwise (fun earlier later => ∀ children children',
        parseSequence earlier.raw.value = .ok children → parseSequence later.raw.value = .ok children' →
          signedPart children' = signedPart children) ∧
      ((∀ relay ∈ chain, ¬relay.GoesTo relay.localIdentity) → ∀ systems : Finset Identity,
        (∀ relay ∈ chain, relay.localIdentity ∈ systems) → chain.length ≤ systems.card) := by
  have hextends : chain.Pairwise Relay.Extends := (h.imp (fun _ _ => Relay.Follows.extends)).pairwise
  refine ⟨fun relay _ _ => Relay.HasVia.not_goesTo, hextends.imp ?_, hextends.imp ?_, ?_⟩
  . intro earlier later hlater identity hidentity
    exact (hlater.vias identity hidentity).not_goesTo
  . intro earlier later hlater
    exact hlater.signed
  . intro hother systems hsystems
    refine length_le_card (R := fun relay identity => relay.localIdentity = identity) ?_
      (Relay.relays_distinct h hother)
    intro relay hrelay
    exact ⟨_, hsystems relay hrelay, rfl⟩

namespace RelayedNetMail

def way : Option (ValidatedItem × PreparedRelay × OwnedTlv × OwnedTlv × ValidatedItem × PreparedRelay) := do
  let item ← (validateItem crypto message (resolver 1)).toOption.join
  let prepared ← (prepare 1 item).toOption
  let values ← (parseSequence prepared.job.item).toOption
  let value ← values.head?
  let raw ← (setRequestIdentifier value 4).toOption
  let next ← (validateItem crypto raw (resolver 2)).toOption.join
  let prepared' ← (prepare 2 next).toOption
  if values = [value] && isRelayed 1 message item && isRelayed 2 raw next &&
      prepared.job.deliveries.any (fun copy =>
        copy.nextHop = (identity 2).address.display && copy.nextHopKey = (identity 2).embeddedKey) then
    some (item, prepared, value, raw, next, prepared')
  else
    none

theorem way_exists
    : ∃ item prepared value raw next prepared',
        validateItem crypto message (resolver 1) = .ok (some item) ∧ prepare 1 item = .ok prepared ∧
        parseSequence prepared.job.item = .ok [value] ∧ setRequestIdentifier value 4 = .ok raw ∧
        validateItem crypto raw (resolver 2) = .ok (some next) ∧ prepare 2 next = .ok prepared' ∧
        isRelayed 1 message item = true ∧ isRelayed 2 raw next = true ∧
        ∃ copy ∈ prepared.job.deliveries, copy.nextHop = (identity 2).address.display ∧
          copy.nextHopKey = (identity 2).embeddedKey := by
  have hsome : way.isSome = true := by decide +kernel
  rw [Option.isSome_iff_exists] at hsome
  obtain ⟨result, h⟩ := hsome
  simp only [way, Option.bind_eq_bind, Option.bind_eq_some_iff, Except.toOption_eq_some, Option.join_eq_some_iff] at h
  obtain ⟨item, hitem, prepared, hprepared, values, hvalues, value, _, raw, hraw, next, hnext, prepared', hprepared',
    h⟩ := h
  split at h
  . next hholds =>
    simp only [Bool.and_eq_true, List.any_eq_true, decide_eq_true_eq] at hholds
    obtain ⟨⟨⟨rfl, hrelayed⟩, hrelayed'⟩, hcopy⟩ := hholds
    exact ⟨item, prepared, value, raw, next, prepared', hitem, hprepared, hvalues, hraw, hnext, hprepared', hrelayed,
      hrelayed', hcopy⟩
  . cases h

def relayOf (n : UInt8) (raw : OwnedTlv) (item : ValidatedItem) (prepared : PreparedRelay)
    (h : validateItem crypto raw (resolver n) = .ok (some item)) (hrelayed : isRelayed n raw item = true)
    (hprepared : prepare n item = .ok prepared)
    : Relay crypto where
  base64
  arrival := arrival n raw item h hrelayed
  requestIdentifier := 300
  viaTime := 5
  created := 6
  prepared
  isRelay := by
    simp only [isRelayed, Bool.and_eq_true, decide_eq_true_eq] at hrelayed
    exact ⟨hrelayed.1.2, hrelayed.2⟩
  isPrepared := hprepared

end RelayedNetMail

open RelayedNetMail in
theorem relay_never_returns_netMail
    : ∃ first second : Relay crypto, first.Follows second ∧
        (∀ relay ∈ [first, second], ∀ identity, relay.HasVia identity → ¬relay.GoesTo identity) ∧
        [first, second].Pairwise (fun earlier later => ∀ identity,
          earlier.HasVia identity ∨ identity = earlier.localIdentity → ¬later.GoesTo identity) ∧
        [first, second].Pairwise (fun earlier later => ∀ children children',
          parseSequence earlier.raw.value = .ok children → parseSequence later.raw.value = .ok children' →
            signedPart children' = signedPart children) ∧
        ((∀ relay ∈ [first, second], ¬relay.GoesTo relay.localIdentity) → ∀ systems : Finset Identity,
          (∀ relay ∈ [first, second], relay.localIdentity ∈ systems) → [first, second].length ≤ systems.card) := by
  obtain ⟨item, prepared, value, raw, next, prepared', hitem, hprepared, hvalue, hraw, hnext, hprepared', hrelayed,
    hrelayed', hcopy⟩ := way_exists
  let first := relayOf 1 message item prepared hitem hrelayed hprepared
  let second := relayOf 2 raw next prepared' hnext hrelayed' hprepared'
  have hsame : second.raw = raw := by
    simp only [isRelayed, Bool.and_eq_true, decide_eq_true_eq] at hrelayed'
    exact hrelayed'.1.1
  have hfollows : first.Follows second := ⟨⟨value, 4, hvalue, hsame ▸ hraw⟩, hcopy⟩
  exact ⟨first, second, hfollows, relay_never_returns [first, second] (by simpa using hfollows)⟩

end Accept

end Tith
