import Tith.Accept.Dispatch
import Tith.Lib.Base64
import Tith.Router.Selection
import Tith.Wire.Lemmas.Validate

/-!
This module contains the detection of loops: the router takes the first candidate or fails, and the vias
of a relayed item that are left out can never name that candidate.
-/

namespace Tith

namespace Accept

open Config Router

/--
The resolver of the listener, which knows the key of its own address.
-/
def mailerResolver (pins : KeyPins) (nodelist : Nodelist) (localIdentity : Identity) : KeyResolver :=
  fun address =>
    if address = localIdentity.address then
      some localIdentity.publicKey
    else
      pins.lookup nodelist.publicKey address

/--
The resolver of the client, which an item is validated with that a polled peer returns.
-/
def outboundResolver (pins : KeyPins) (nodelist : Nodelist) : KeyResolver :=
  pins.lookup nodelist.publicKey

/--
An item that the listener or the client has validated for an acceptance. Other workers may have pinned
further keys since.
-/
structure Validated (c : Crypto) (acceptance : Acceptance) (item : ValidatedItem) : Prop where
  run : ∃ pins resolver, Relation.ReflTransGen KeyPins.Step pins acceptance.pins ∧
    (resolver = mailerResolver pins acceptance.nodelist acceptance.localIdentity ∨
      resolver = outboundResolver pins acceptance.nodelist) ∧
    validateItem c item.raw resolver = .ok (some item)

def Names (via : ViaData) (identity : Identity) : Prop :=
  via.address = identity.address ∧
    (identity.address.isAnonymous = true → via.publicKey = some identity.publicKey)

theorem Validated.destination_known {c : Crypto} {acceptance : Acceptance} {item : ValidatedItem}
    (h : Validated c acceptance item) (hkind : item.kind = .netMail) {destination : Identity}
    (hdestination : item.destination = some destination)
    (hother : destination ≠ acceptance.localIdentity)
    : Known acceptance.resolver destination := by
  obtain ⟨pins, resolver, hsteps, hresolver, hvalid⟩ := h.run
  obtain ⟨_, run, hrun⟩ := validateItem_message hvalid (.inl hkind)
  intro hlisted
  rw [← hrun] at hdestination
  have hkey := run.destination_key hdestination hlisted
  have hlookup : pins.lookup acceptance.nodelist.publicKey destination.address =
      some destination.publicKey := by
    rcases hresolver with rfl | rfl
    . unfold mailerResolver at hkey
      split at hkey
      . next haddress =>
        -- An item for the own address with the own key is an item for this node.
        injection hkey with hkey
        obtain ⟨address, key⟩ := destination
        dsimp only at haddress hkey
        subst haddress
        subst hkey
        exact absurd rfl hother
      . exact hkey
    . exact hkey
  apply KeyPins.lookup_isSome_of_steps hsteps
  rw [hlookup]
  rfl

theorem viaIdentity_of_names {resolver : KeyResolver} {via : ViaData} {nextHop : Identity}
    (hnames : Names via nextHop) (hknown : Known resolver nextHop)
    : ∃ identity, viaIdentity resolver via = some identity ∧ identity.sameSystemAs nextHop = true := by
  obtain ⟨haddress, hkey⟩ := hnames
  cases hanonymous : nextHop.address.isAnonymous with
  | true =>
    refine ⟨⟨via.address, nextHop.publicKey⟩, ?_, ?_⟩
    . simp [viaIdentity, haddress, hanonymous, hkey hanonymous]
    . simp [Identity.sameSystemAs, haddress]
  | false =>
    obtain ⟨key, hresolved⟩ := Option.isSome_iff_exists.mp (hknown hanonymous)
    refine ⟨⟨via.address, key⟩, ?_, ?_⟩
    . simp [viaIdentity, haddress, hanonymous, hresolved]
    . simp [Identity.sameSystemAs, haddress, hanonymous]

theorem routeNetmail_loop {sources : Sources} {routes : Routes} {destination : Identity}
    {vias : List Identity} {commitment : Commitment}
    (h : routeNetmail sources routes destination [] = .ok commitment)
    (hvia : vias.any (fun via => via.sameSystemAs commitment.nextHop) = true)
    : routeNetmail sources routes destination vias = .error .loop := by
  -- What the router commits to without any vias is the next hop that it compares the vias with.
  unfold routeNetmail at h ⊢
  split at h
  . cases h
  . next hdown =>
    rw [if_neg hdown]
    dsimp only at h ⊢
    rcases first_candidate sources destination
      (selectMethods sources routes.routes destination).2 with hnone | ⟨index, method, nextHop, passive,
        hfirst, hcandidate⟩
    . rw [commit_of_none hnone] at h
      cases h
    . rw [commit_of_first hfirst hcandidate] at h ⊢
      cases h
      rw [if_pos hvia]

theorem routeNetmail_known {sources : Sources} {routes : Routes} {destination : Identity}
    {commitment : Commitment} (h : routeNetmail sources routes destination [] = .ok commitment)
    : commitment.nextHop = destination ∨ Known sources.resolver commitment.nextHop := by
  unfold routeNetmail at h
  split at h
  . cases h
  . dsimp only at h
    rcases first_candidate sources destination
      (selectMethods sources routes.routes destination).2 with hnone | ⟨index, method, nextHop, passive,
        hfirst, hcandidate⟩
    . rw [commit_of_none hnone] at h
      cases h
    . rw [commit_of_first hfirst hcandidate] at h
      cases h
      exact candidate_known hcandidate

theorem relay_loop {c : Crypto} {acceptance : Acceptance} {item : ValidatedItem}
    (hitem : Validated c acceptance item) (hkind : item.kind = .netMail) {destination : Identity}
    (hdestination : item.destination = some destination)
    (hother : destination ≠ acceptance.localIdentity) {routes : Routes} {vias : List ViaData}
    {via : ViaData} {commitment : Commitment} (hvias : itemVias item.raw = .ok vias)
    (hroute : routeNetmail acceptance.sources routes destination [] = .ok commitment)
    (hmem : via ∈ vias) (hnames : Names via commitment.nextHop)
    : ∃ identities, viaIdentities acceptance.resolver item.raw = .ok identities ∧
        routeNetmail acceptance.sources routes destination identities = .error .loop := by
  have hknown : Known acceptance.resolver commitment.nextHop := by
    rcases routeNetmail_known hroute with heq | hknown
    . rw [heq]
      exact hitem.destination_known hkind hdestination hother
    . exact hknown
  obtain ⟨identity, hidentity, hsame⟩ := viaIdentity_of_names hnames hknown
  refine ⟨vias.filterMap (viaIdentity acceptance.resolver), by simp [viaIdentities, hvias], ?_⟩
  apply routeNetmail_loop hroute
  rw [List.any_eq_true]
  exact ⟨identity, List.mem_filterMap.mpr ⟨via, hmem, hidentity⟩, hsame⟩

/--
The router takes the first candidate of the first match or fails, and the vias that a relay looks at are
enough to see a loop.
-/
theorem first_match_never_conceals_loop
    : (∀ (sources : Sources) (routes : Routes) (destination : Identity) (vias : List Identity),
        (isDown sources.nodelist destination.address = true →
          routeNetmail sources routes destination vias = .error .unroutable) ∧
        (isDown sources.nodelist destination.address = false →
          ∃ rule methods, Considers sources routes.routes destination rule methods ∧
            ((∀ method ∈ methods, candidate sources method destination = none) →
              routeNetmail sources routes destination vias = .error .unroutable) ∧
            ∀ index method nextHop passive,
              methods.FirstAt (HasCandidate sources destination) index method →
              candidate sources method destination = some (nextHop, passive) →
              ((∃ via ∈ vias, via.sameSystemAs nextHop = true) ↔
                routeNetmail sources routes destination vias = .error .loop) ∧
              ((∀ via ∈ vias, via.sameSystemAs nextHop = false) ↔
                routeNetmail sources routes destination vias =
                  .ok ⟨nextHop, passive, rule, index⟩))) ∧
      ∀ (c : Crypto) (base64 : Nodelist.Base64) (acceptance : Acceptance) (item : ValidatedItem)
        (destination : Identity) (routes : Routes) (vias : List ViaData) (via : ViaData)
        (commitment : Commitment),
        Validated c acceptance item → item.kind = .netMail → item.destination = some destination →
        destination ≠ acceptance.localIdentity →
        routesFor acceptance.configuration acceptance.localRef = some routes →
        itemVias item.raw = .ok vias →
        routeNetmail acceptance.sources routes destination [] = .ok commitment →
        via ∈ vias → Names via commitment.nextHop →
        ∀ peer requestIdentifier viaTime created,
          (prepareRelay c base64 acceptance item peer requestIdentifier viaTime created).isOk = false ∧
          ∀ signed onFailure, signedIdentity item = some signed →
            (relayRule acceptance.sources routes peer signed.signer destination).bind RelayRule.allowed =
              some onFailure →
            prepareRelay c base64 acceptance item peer requestIdentifier viaTime created =
              .error (Refusal.ofRouteFailure .loop) := by
  refine ⟨?_, ?_⟩
  . intro sources routes destination vias
    refine ⟨fun hdown => by simp [routeNetmail, hdown], ?_⟩
    intro hup
    have hroute : routeNetmail sources routes destination vias =
        commit sources destination vias (selectMethods sources routes.routes destination).1
          (selectMethods sources routes.routes destination).2 0 := by
      simp [routeNetmail, hup]
    refine ⟨_, _, selectMethods_considers sources routes.routes destination, ?_, ?_⟩
    . intro hnone
      rw [hroute]
      apply commit_of_none
      intro method hmem
      simp [HasCandidate, hnone method hmem]
    . intro index method nextHop passive hfirst hcandidate
      rw [hroute, commit_of_first hfirst hcandidate, Nat.zero_add]
      cases hany : vias.any (fun via => via.sameSystemAs nextHop) with
      | true =>
        have hex := List.any_eq_true.mp hany
        refine ⟨by simpa using hex, ?_⟩
        obtain ⟨via, hmem, hsame⟩ := hex
        simp only [↓reduceIte, reduceCtorEq, iff_false]
        intro hall
        rw [hall via hmem] at hsame
        cases hsame
      | false =>
        have hall : ∀ via ∈ vias, via.sameSystemAs nextHop = false := by simpa using hany
        refine ⟨?_, by simpa using hall⟩
        simp only [Bool.false_eq_true, ↓reduceIte, reduceCtorEq, iff_false]
        rintro ⟨via, hmem, hsame⟩
        rw [hall via hmem] at hsame
        cases hsame
  . intro c base64 acceptance item destination routes vias via commitment hitem hkind hdestination hother
      hroutes hvias hroute hmem hnames peer requestIdentifier viaTime created
    obtain ⟨identities, hidentities, hloop⟩ :=
      relay_loop hitem hkind hdestination hother hvias hroute hmem hnames
    constructor
    . cases hprepared : prepareRelay c base64 acceptance item peer requestIdentifier viaTime created with
      | error refusal => rfl
      | ok prepared =>
        simp only [prepareRelay, Except.bind_ok_iff, Option.okOr_eq_ok, hdestination, hroutes,
          Option.some.injEq, Except.mapError_eq_ok, hidentities, Except.ok.injEq] at hprepared
        obtain ⟨_, rfl, _, _, _, rfl, _, _, _, rfl, _, hrouted, _⟩ := hprepared
        rw [hloop] at hrouted
        cases hrouted
    . intro signed onFailure hsigned hrule
      simp [prepareRelay, hdestination, hsigned, hroutes, hrule, hidentities, hloop, Except.mapError]

namespace RelayedNetMail

def crypto : Crypto where
  verifyTlv _ _ _ := .ok true
  hashTlv _ := .ok (Vector.replicate 32 0)
  hashInboundItem _ := .ok (Vector.replicate 32 0)

def base64 : Nodelist.Base64 := ⟨Rfc4648.encode, Rfc4648.decode⟩

theorem unknown_valid : validateAddress "f" (-1) (-1) (-1) 0 = .ok () := by decide

def unknown : Address := ⟨"f", -1, -1, -1, 0, unknown_valid⟩

def identity (n : UInt8) : Identity := ⟨unknown, Vector.replicate 32 n⟩

def message : OwnedTlv :=
  carrierValue Types.message (concatenate
    [ carrierValue Types.origin (Bytes.ofString "f#-1"),
      carrierValue Types.publicKey (List.replicate 32 0),
      carrierValue Types.destination (Bytes.ofString "f#-1"),
      carrierValue Types.publicKey (List.replicate 32 9),
      carrierValue Types.timestamp [1],
      carrierValue Types.toUserName [],
      carrierValue Types.fromUserName [],
      carrierValue Types.subject [],
      carrierValue Types.messageText [],
      carrierValue Types.signature (List.replicate 64 0),
      carrierValue Types.requestIdentifier [1],
      carrierValue Types.via (concatenate
        [ carrierValue Types.address (Bytes.ofString "f#-1"),
          carrierValue Types.publicKey (List.replicate 32 0),
          carrierValue Types.timestamp [1] ]) ])

/--
A system without an address, with another one that it relays everything to.
-/
def acceptance (n : UInt8) : Acceptance where
  pins := ∅
  application := relayApplication
  configuration :=
    { peers := (∅ : Table String Peer).insert "next"
        ⟨"next", unknown, some (Vector.replicate 32 (n + 1)), [], false, none, none⟩
      routes :=
        [⟨.peer "here", [⟨.all, [.via "next"], none⟩], [⟨.allow none, .all, .all, .all⟩], [],
          ⟨.discard, .none⟩⟩]
      areas := [] }
  nodelist := ⟨∅⟩
  localRef := .peer "here"
  localIdentity := identity n

def resolver (n : UInt8) : KeyResolver := outboundResolver (acceptance n).pins (acceptance n).nodelist

def prepare (n : UInt8) (item : ValidatedItem) : Except Refusal PreparedRelay :=
  prepareRelay crypto base64 (acceptance n) item (identity (n - 1)) 300 5 6

theorem loop_exists
    : ∃ routes item signed via commitment,
        routesFor (acceptance 255).configuration (acceptance 255).localRef = some routes ∧
        validateItem crypto message (resolver 255) = .ok (some item) ∧
        (item.raw = message ∧ item.kind = .netMail ∧ item.destination = some (identity 9)) ∧
        itemVias item.raw = .ok [via] ∧ Names via commitment.nextHop ∧
        routeNetmail (acceptance 255).sources routes (identity 9) [] = .ok commitment ∧
        signedIdentity item = some signed ∧
        (relayRule (acceptance 255).sources routes (identity 254) signed.signer (identity 9)).bind RelayRule.allowed =
          some none := by
  have hroutes : (routesFor (acceptance 255).configuration (acceptance 255).localRef).isSome = true := by
    decide +kernel
  obtain ⟨routes, hroutes⟩ := Option.isSome_iff_exists.mp hroutes
  have hread : ((validateItem crypto message (resolver 255)).toOption.join.bind fun item =>
      (signedIdentity item).map fun signed => ((item.raw, item.kind, item.destination), signed.signer)) =
      some ((message, .netMail, some (identity 9)), identity 0) := by
    decide +kernel
  have hvias : (itemVias message).toOption.map (fun vias => vias.map fun via => (via.address, via.publicKey)) =
      some [((identity 0).address, some (identity 0).publicKey)] := by
    decide +kernel
  have hchosen : ((routesFor (acceptance 255).configuration (acceptance 255).localRef).bind fun routes =>
      (routeNetmail (acceptance 255).sources routes (identity 9) []).toOption.map (·.nextHop)) =
      some (identity 0) := by
    decide +kernel
  have hallowed : ((routesFor (acceptance 255).configuration (acceptance 255).localRef).bind fun routes =>
      (relayRule (acceptance 255).sources routes (identity 254) (identity 0) (identity 9)).bind RelayRule.allowed) =
      some none := by
    decide +kernel
  simp only [Option.bind_eq_some_iff, Option.map_eq_some_iff, Option.join_eq_some_iff, Except.toOption_eq_some,
    Prod.mk.injEq, List.map_eq_singleton_iff] at hread hvias
  obtain ⟨item, hitem, signed, hsigned, hmessage, hsigner⟩ := hread
  obtain ⟨vias, hvias, via, rfl, haddress, hkey⟩ := hvias
  rw [← hmessage.1] at hvias
  rw [hroutes, Option.bind_some] at hchosen hallowed
  simp only [Option.map_eq_some_iff, Except.toOption_eq_some] at hchosen
  obtain ⟨commitment, hcommitment, hnext⟩ := hchosen
  refine ⟨routes, item, signed, via, commitment, hroutes, hitem, hmessage, hvias, ?_, hcommitment, hsigned, ?_⟩
  . rw [hnext]
    exact ⟨haddress, fun _ => hkey⟩
  . rw [hsigner]
    exact hallowed

end RelayedNetMail

open RelayedNetMail in
theorem first_match_never_conceals_loop_netMail
    : ∃ routes item via commitment,
        routesFor (acceptance 255).configuration (acceptance 255).localRef = some routes ∧
        validateItem crypto message (resolver 255) = .ok (some item) ∧
        itemVias item.raw = .ok [via] ∧ Names via commitment.nextHop ∧
        routeNetmail (acceptance 255).sources routes (RelayedNetMail.identity 9) [] = .ok commitment ∧
        prepare 255 item = .error (Refusal.ofRouteFailure .loop) := by
  obtain ⟨routes, item, signed, via, commitment, hroutes, hitem, ⟨hraw, hkind, hdestination⟩, hvias, hnames,
    hcommitment, hsigned, hallowed⟩ := loop_exists
  have hvalidated : Validated crypto (acceptance 255) item := ⟨_, _, .refl, .inr rfl, hraw ▸ hitem⟩
  have hother : RelayedNetMail.identity 9 ≠ (acceptance 255).localIdentity := by decide
  exact ⟨routes, item, via, commitment, hroutes, hitem, hvias, hnames, hcommitment,
    (first_match_never_conceals_loop.2 crypto RelayedNetMail.base64 (acceptance 255) item (RelayedNetMail.identity 9)
      routes [via] via commitment hvalidated hkind hdestination hother hroutes hvias hcommitment
      (List.mem_singleton_self _) hnames (RelayedNetMail.identity 254) 300 5 6).2 signed none hsigned hallowed⟩

end Accept

end Tith
