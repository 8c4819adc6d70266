import Tith.Deliver.Exchange
import Tith.Exchange.SessionOrder
import Tith.Wire.Lemmas.Item
import Tith.Wire.RoundTrip

/-!
This module contains the proof that every delivery copy gets the outcome of its own response.
-/

namespace Tith

def RequestKind.typeCode (kind : RequestKind) : UInt64 :=
  match kind with
  | .message => Types.message
  | .file => Types.file
  | .fileRequest => Types.fileRequest
  | .pollMessages => Types.pollMessages
  | .pollFiles => Types.pollFiles
  | .pollFileRequests => Types.pollFileRequests
  | .publicKeyRequest => Types.publicKeyRequest

theorem requestKind_typeCode {item : ValidatedItem} (h : Types.isRequest item.kind.typeCode = true)
    : ∃ kind, requestKind item = some kind ∧ kind.typeCode = item.kind.typeCode := by
  unfold requestKind
  cases hkind : item.kind with
  | accepted =>
    rw [hkind] at h
    exact absurd h (by decide)
  | rejected =>
    rw [hkind] at h
    exact absurd h (by decide)
  | _ => exact ⟨_, rfl, rfl⟩

section Requests

variable {c : Crypto} {resolver : KeyResolver}

/--
The request is the record of a value that the payload carries.
-/
structure Tracks (c : Crypto) (resolver : KeyResolver) (payload : VerifiedSignedTlv) (value : OwnedTlv)
    (request : OutstandingRequest) : Prop where
  carried : value ∈ payload.data
  recorded : ∃ hash item, c.hashTlv payload.encoded = .ok hash ∧
    validateItem c value resolver = .ok (some item) ∧
    ResponseTracker.outstandingOf hash item = some request

theorem validatePayload_go_ok {index : Nat} {values : List OwnedTlv} {identifiers : List UInt64}
    {items : List ValidatedItem}
    (h : validatePayload.go c resolver index values identifiers = .ok items)
    (hrequests : ∀ value ∈ values, Types.isRequest value.typeCode = true)
    : List.Forall₂ (fun value item => validateItem c value resolver = .ok (some item)) values items ∧
      (items.map (·.requestIdentifier)).Nodup ∧
      ∀ item ∈ items, item.requestIdentifier ∉ identifiers := by
  induction values generalizing index identifiers items with
  | nil =>
    cases h
    exact ⟨.nil, by simp, by simp⟩
  | cons value values ih =>
    have hrequest := hrequests value (by simp)
    have hrest : ∀ value ∈ values, Types.isRequest value.typeCode = true :=
      fun value hvalue => hrequests value (by simp [hvalue])
    rw [validatePayload.go] at h
    split at h
    . cases h
    . next hnone =>
      obtain ⟨item, _, hsome, _⟩ := validateItem_request hrequest hnone
      cases hsome
    . next validated hvalidated =>
      rw [if_pos hrequest] at h
      split at h
      . cases h
      . next hnew =>
        simp only [Except.bind_ok_iff] at h
        obtain ⟨rest, hgo, h⟩ := h
        cases h
        obtain ⟨hforall, hnodup, hnotin⟩ := ih hgo hrest
        refine ⟨.cons hvalidated hforall, ?_, ?_⟩
        . rw [List.map_cons, List.nodup_cons]
          refine ⟨?_, hnodup⟩
          intro hmem
          obtain ⟨item, hitem, heq⟩ := List.mem_map.mp hmem
          exact hnotin item hitem (by simp [heq])
        . intro item hitem
          rcases List.mem_cons.mp hitem with rfl | hitem
          . simpa using hnew
          . intro hmem
            exact hnotin item hitem (by simp [hmem])

theorem outstandingOf_ok {hash : TlvHash} {item : ValidatedItem} {value : OwnedTlv}
    (hrequest : Types.isRequest value.typeCode = true)
    (h : validateItem c value resolver = .ok (some item))
    : ∃ kind : RequestKind, kind.typeCode = value.typeCode ∧
        ResponseTracker.outstandingOf hash item = some ⟨hash, item.requestIdentifier, kind⟩ := by
  obtain ⟨item', _, hitem, hkind, _⟩ := validateItem_request hrequest h
  injection hitem with hitem
  subst hitem
  rw [← hkind] at hrequest
  obtain ⟨kind, hsome, htype⟩ := requestKind_typeCode hrequest
  refine ⟨kind, htype.trans hkind, ?_⟩
  rw [ResponseTracker.outstandingOf, hsome]
  rfl

/--
The requests of one payload, in the order of its values and under different identifiers.
-/
structure TracksAll (c : Crypto) (resolver : KeyResolver) (payload : VerifiedSignedTlv)
    (values : List OwnedTlv) (requests : List OutstandingRequest) : Prop where
  tracks : List.Forall₂ (fun value request => Tracks c resolver payload value request ∧
    request.kind.typeCode = value.typeCode) values requests
  identifiers : (requests.map (·.requestIdentifier)).Nodup

theorem tracksAll_of_items {payload : VerifiedSignedTlv} {hash : TlvHash}
    (hhash : c.hashTlv payload.encoded = .ok hash) {values : List OwnedTlv} {items : List ValidatedItem}
    (hvalues : values ⊆ payload.data)
    (hrequests : ∀ value ∈ values, Types.isRequest value.typeCode = true)
    (h : List.Forall₂ (fun value item => validateItem c value resolver = .ok (some item)) values items)
    (hnodup : (items.map (·.requestIdentifier)).Nodup)
    : TracksAll c resolver payload values
        (items.filterMap (ResponseTracker.outstandingOf hash)) := by
  have hboth : List.Forall₂ (fun value request => Tracks c resolver payload value request ∧
        request.kind.typeCode = value.typeCode) values
        (items.filterMap (ResponseTracker.outstandingOf hash)) ∧
      (items.filterMap (ResponseTracker.outstandingOf hash)).map (·.requestIdentifier) =
        items.map (·.requestIdentifier) := by
    clear hnodup
    induction h with
    | nil => exact ⟨.nil, rfl⟩
    | @cons value item values items hitem _ ih =>
      obtain ⟨kind, htype, hkind⟩ := outstandingOf_ok (hrequests value (by simp)) hitem
      obtain ⟨hforall, hmap⟩ := ih (fun v hv => hvalues (by simp [hv]))
        (fun v hv => hrequests v (by simp [hv]))
      rw [List.filterMap_cons_some hkind]
      refine ⟨.cons ⟨⟨hvalues (by simp), hash, item, hhash, hitem, hkind⟩, htype⟩ hforall, ?_⟩
      rw [List.map_cons, List.map_cons, hmap]
  exact ⟨hboth.1, by rw [hboth.2]; exact hnodup⟩

theorem payloadRequests_ok {origin : Identity} {headerHash : TlvHash} {payload : VerifiedSignedTlv}
    {values : List OwnedTlv} (hcarries : Carries origin headerHash values payload)
    (hrequests : ∀ value ∈ values, Types.isRequest value.typeCode = true)
    {requests : List OutstandingRequest}
    (h : ResponseTracker.payloadRequests c resolver payload = .ok requests)
    : TracksAll c resolver payload values requests := by
  simp only [ResponseTracker.payloadRequests, Except.bind_ok_iff, Except.mapError_eq_ok,
    validatePayload, hcarries.2, List.drop_succ_cons, List.drop_zero] at h
  obtain ⟨hash, hhash, items, hitems, h⟩ := h
  cases h
  obtain ⟨hforall, hnodup, _⟩ := validatePayload_go_ok hitems hrequests
  apply tracksAll_of_items hhash _ hrequests hforall hnodup
  rw [hcarries.2]
  exact List.subset_cons_self _ _

theorem bundleRequests_ok {origin : Identity} {headerHash : TlvHash} {payloads : List VerifiedSignedTlv}
    {payloadGroups : List (List OwnedTlv)}
    (hcarries : List.Forall₂ (Carries origin headerHash) payloadGroups payloads)
    (hrequests : ∀ values ∈ payloadGroups, ∀ value ∈ values, Types.isRequest value.typeCode = true)
    {requests : List OutstandingRequest}
    (h : ResponseTracker.bundleRequests c resolver payloads = .ok requests)
    : ∃ groups, requests = groups.flatten ∧ List.Forall₂ (fun values requests =>
        ∃ payload ∈ payloads, TracksAll c resolver payload values requests) payloadGroups groups := by
  -- The outstanding requests of a bundle, payload by payload.
  induction hcarries generalizing requests with
  | nil =>
    cases h
    exact ⟨[], rfl, .nil⟩
  | @cons values payload payloadGroups payloads hfirst _ ih =>
    simp only [ResponseTracker.bundleRequests, Except.bind_ok_iff] at h
    obtain ⟨first, hfirstRequests, rest, hrest, h⟩ := h
    cases h
    obtain ⟨groups, rfl, hgroups⟩ := ih (fun v hv => hrequests v (by simp [hv])) hrest
    refine ⟨first :: groups, rfl, .cons ⟨payload, by simp, ?_⟩ ?_⟩
    . exact payloadRequests_ok hfirst (hrequests values (by simp)) hfirstRequests
    . apply hgroups.imp
      rintro values requests ⟨payload, hpayload, htracks⟩
      exact ⟨payload, by simp [hpayload], htracks⟩

end Requests

section Renumbered

theorem typeCode_setRequestIdentifier {value renumbered : OwnedTlv} {identifier : UInt64}
    (h : setRequestIdentifier value identifier = .ok renumbered)
    : renumbered.typeCode = value.typeCode := by
  simp only [setRequestIdentifier, Except.bind_ok_iff] at h
  obtain ⟨children, _, h⟩ := h
  split at h
  . cases h
  . exact (assigned_ok h).1

theorem appendRenumbered_ok {payload values result : List OwnedTlv}
    (h : appendRenumbered payload values = .ok result)
    : ∃ renumbered, result = payload ++ renumbered ∧ List.Forall₂ (fun value renumbered =>
        ∃ identifier, setRequestIdentifier value identifier = .ok renumbered) values renumbered := by
  induction values generalizing payload with
  | nil =>
    cases h
    exact ⟨[], by simp, .nil⟩
  | cons value values ih =>
    simp only [appendRenumbered, Except.bind_ok_iff, Except.mapError_eq_ok] at h
    obtain ⟨first, hfirst, h⟩ := h
    obtain ⟨rest, rfl, hrest⟩ := ih h
    exact ⟨first :: rest, by simp, .cons ⟨_, hfirst⟩ hrest⟩

end Renumbered

section Attempt

variable {c : Crypto} {sign : SignTlv} {sender : LocalIdentity} {network : Network}
  {resolver : KeyResolver} {destination : Identity} {payloads : List (List OwnedTlv)} {now : UInt64}

/--
One contact with the destination: the bundle that is sent, the tracker of its requests, and what happened.
-/
structure Contact where
  resolver : KeyResolver
  destination : Identity
  encoded : List UInt8
  bundle : Bundle
  tracker : ResponseTracker
  conversation : Conversation

def Contact.session (contact : Contact) : ClientSession :=
  (sessionMachine contact.tracker).run (.new contact.tracker) contact.conversation.events

/--
The peer has answered what was sent with just this conversation.
-/
structure Contact.Opened (c : Crypto) (sign : SignTlv) (sender : LocalIdentity) (network : Network)
    (now : UInt64) (payloads : List (List OwnedTlv)) (contact : Contact)
    : Prop where
  built : buildBundle c sign sender.identity sender.secret contact.destination now payloads =
    .ok contact.encoded
  parsed : Bundle.parse c contact.encoded contact.resolver = .ok contact.bundle
  tracked : ResponseTracker.forBundle c contact.bundle contact.resolver = .ok contact.tracker
  connected : network.connect contact.destination contact.encoded = .ok contact.conversation

/--
The contact whose responses count. It is the first one, unless that has failed before any response with
a signature that a new key of the destination can explain. Then it is the one behind the discovery of the
key.
-/
inductive Decides (c : Crypto) (sign : SignTlv) (sender : LocalIdentity) (network : Network)
    (resolver : KeyResolver) (destination : Identity) (now : UInt64) (payloads : List (List OwnedTlv))
    : Contact → Prop where
  | first (contact : Contact) (opened : contact.Opened c sign sender network now payloads)
      (resolver_eq : contact.resolver = resolver) (destination_eq : contact.destination = destination)
      (kept : contact.conversation.failure = none ∨ contact.session.responses ≠ [])
      : Decides c sign sender network resolver destination now payloads contact
  | recovered (before contact : Contact) (error : DeliveryError) (key : PublicKey)
      (openedBefore : before.Opened c sign sender network now payloads)
      (resolver_eq : before.resolver = resolver) (destination_eq : before.destination = destination)
      (failed : before.conversation.failure = some error) (unanswered : before.session.responses = [])
      (signature : isSignatureFailure error = true) (named : destination.address.isAnonymous = false)
      (discovered : network.discoverKey destination.address destination.publicKey =
        .ok (key, contact.resolver))
      (opened : contact.Opened c sign sender network now payloads)
      (renewed : contact.destination = ⟨destination.address, key⟩)
      (kept : contact.conversation.failure = none)
      : Decides c sign sender network resolver destination now payloads contact

/--
What an exchange has sent on a connection, and what the session there has recorded. A conversation that
fails has returned nothing.
-/
structure Conducted (contact : Contact) (payloads : List (List OwnedTlv)) (exchange : Exchange)
    : Prop where
  carries : ∃ headerHash,
    List.Forall₂ (Carries contact.bundle.origin headerHash) payloads contact.bundle.payloads
  requests : exchange.requests = contact.tracker.outstanding
  responses : exchange.responses = contact.session.responses
  returned : exchange.returned = if contact.conversation.failure.isSome then 0 else contact.conversation.returned

theorem Decides.tracked {contact : Contact}
    (h : Decides c sign sender network resolver destination now payloads contact)
    : ResponseTracker.forBundle c contact.bundle contact.resolver = .ok contact.tracker := by
  cases h with
  | first _ hopened => exact hopened.tracked
  | recovered _ _ _ _ _ _ _ _ _ _ _ _ hopened => exact hopened.tracked

theorem forBundle_fresh {bundle : Bundle} {tracker : ResponseTracker}
    (h : ResponseTracker.forBundle c bundle resolver = .ok tracker)
    : tracker.completed = [] := by
  simp only [ResponseTracker.forBundle, Except.bind_ok_iff] at h
  obtain ⟨_, _, h⟩ := h
  cases h
  rfl

theorem attempt_ok {result : Except DeliveryError Exchange} {session : ClientSession}
    (h : attempt c sign sender network resolver destination payloads now = .ok (result, session))
    : ∃ contact : Contact, contact.Opened c sign sender network now payloads ∧ contact.resolver = resolver ∧
        contact.destination = destination ∧ session = contact.session ∧
        (∀ exchange, result = .ok exchange →
          contact.conversation.failure = none ∧ Conducted contact payloads exchange) ∧
        ∀ error, result = .error error → contact.conversation.failure = some error ∧
          Conducted contact payloads ⟨session.requests, session.responses, 0⟩ := by
  simp only [attempt, Except.bind_ok_iff, Except.mapError_eq_ok] at h
  obtain ⟨encoded, hbuild, bundle, hparse, tracker, htracker, conversation, hconnect, h⟩ := h
  injection h with h
  have haccounts := ClientSession.run_accounts (forBundle_fresh htracker) conversation.events
  have hcarries := carries_of_parse hbuild hparse
  refine ⟨⟨resolver, destination, encoded, bundle, tracker, conversation⟩,
    ⟨hbuild, hparse, htracker, hconnect⟩, rfl, rfl, ?_⟩
  unfold converse at h
  split at h
  . next failure hfailure =>
    cases h
    refine ⟨rfl, ?_, ?_⟩
    . intro exchange hexchange
      cases hexchange
    . intro error herror
      cases herror
      exact ⟨hfailure, hcarries, haccounts.tracked.outstanding, rfl, by rw [hfailure]; rfl⟩
  . next hnone =>
    cases h
    refine ⟨rfl, ?_, ?_⟩
    . intro exchange hexchange
      cases hexchange
      exact ⟨hnone, hcarries, haccounts.tracked.outstanding, rfl, by rw [hnone]; rfl⟩
    . intro error herror
      cases herror

theorem failureAction_cases {hasCompleted anonymous : Bool} {error : DeliveryError}
    : (failureAction hasCompleted anonymous error = .preserveCompleted → hasCompleted = true) ∧
        (failureAction hasCompleted anonymous error = .recoverContinuity →
          hasCompleted = false ∧ anonymous = false ∧ isSignatureFailure error = true) := by
  unfold failureAction
  cases hasCompleted <;> cases anonymous <;> cases isSignatureFailure error <;> simp

theorem exchangePayloads_ok {exchange : Exchange}
    (h : exchangePayloads c sign sender network resolver destination payloads now = .ok exchange)
    : ∃ contact, Decides c sign sender network resolver destination now payloads contact ∧
        Conducted contact payloads exchange := by
  simp only [exchangePayloads, Except.bind_ok_iff] at h
  obtain ⟨⟨result, session⟩, hattempt, h⟩ := h
  obtain ⟨contact, hopened, hresolver, hdestination, rfl, hok, herror⟩ := attempt_ok hattempt
  dsimp only at h
  split at h
  . next exchange' =>
    injection h with h
    subst h
    obtain ⟨hnone, hconducted⟩ := hok exchange' rfl
    exact ⟨contact, .first contact hopened hresolver hdestination (.inl hnone), hconducted⟩
  . next error =>
    obtain ⟨hfailed, hconducted⟩ := herror error rfl
    split at h
    . next haction =>
      obtain ⟨hempty, hnamed, hsignature⟩ := failureAction_cases.2 haction
      simp only [Except.bind_ok_iff] at h
      obtain ⟨⟨key, resolver'⟩, hdiscovered, ⟨result', session'⟩, hattempt', h⟩ := h
      obtain ⟨contact', hopened', rfl, hdestination', _, hok', _⟩ := attempt_ok hattempt'
      obtain ⟨hnone', hconducted'⟩ := hok' exchange h
      exact ⟨contact', .recovered contact contact' error key hopened hresolver hdestination hfailed
        (by simpa using hempty) hsignature hnamed hdiscovered hopened' hdestination' hnone', hconducted'⟩
    . next haction =>
      injection h with h
      subst h
      have hresponses := failureAction_cases.1 haction
      exact ⟨contact, .first contact hopened hresolver hdestination (.inr (by simpa using hresponses)),
        hconducted⟩
    . cases h

end Attempt

section Copies

variable {c : Crypto} {resolver : KeyResolver} {bundle : Bundle}

/--
The types of the values that are spooled for delivery.
-/
def isCopyType (typeCode : UInt64) : Bool :=
  typeCode = Types.message || typeCode = Types.file || typeCode = Types.fileRequest

theorem isRequest_of_isCopyType {typeCode : UInt64} (h : isCopyType typeCode = true)
    : Types.isRequest typeCode = true := by
  simp only [isCopyType, Bool.or_eq_true, decide_eq_true_eq] at h
  rcases h with (rfl | rfl) | rfl <;> decide

theorem not_isPoll_of_isCopyType {kind : RequestKind} (h : isCopyType kind.typeCode = true)
    : kind.isPoll = false := by
  cases kind with
  | pollMessages => exact absurd h (by decide)
  | pollFiles => exact absurd h (by decide)
  | pollFileRequests => exact absurd h (by decide)
  | _ => rfl

theorem isPoll_of_pollValues {kind : RequestKind} {value : OwnedTlv} (hvalue : value ∈ pollValues)
    (hkind : kind.typeCode = value.typeCode)
    : kind.isPoll = true := by
  simp only [pollValues, List.mem_cons, List.not_mem_nil, or_false] at hvalue
  rcases hvalue with rfl | rfl | rfl <;>
    simp only [pollValue, typeCode_carrierValue] at hkind <;>
    cases kind <;> first | rfl | exact absurd hkind (by decide)

theorem isRequest_pollValues {value : OwnedTlv} (hvalue : value ∈ pollValues)
    : Types.isRequest value.typeCode = true := by
  simp only [pollValues, List.mem_cons, List.not_mem_nil, or_false] at hvalue
  rcases hvalue with rfl | rfl | rfl <;> simp only [pollValue, typeCode_carrierValue] <;> decide

theorem requests_of_sentPayloads {first second : List OwnedTlv} {P : List OwnedTlv → List OutstandingRequest → Prop}
    (hempty : ∀ values requests, P values requests → P [] [])
    {groups : List (List OutstandingRequest)} (h : List.Forall₂ P (sentPayloads first second) groups)
    : ∃ firstRequests secondRequests, groups.flatten = firstRequests ++ secondRequests ∧
        P first firstRequests ∧ P second secondRequests := by
  unfold sentPayloads at h
  split at h
  . next hfirst =>
    rw [List.isEmpty_iff] at hfirst
    subst hfirst
    cases h with
    | cons hsecond hrest =>
      cases hrest
      exact ⟨[], _, by simp, hempty _ _ hsecond, hsecond⟩
  . split at h
    . next hsecond =>
      rw [List.isEmpty_iff] at hsecond
      subst hsecond
      cases h with
      | cons hfirst hrest =>
        cases hrest
        exact ⟨_, [], by simp, hfirst, hempty _ _ hfirst⟩
    . cases h with
      | cons hfirst hrest =>
        cases hrest with
        | cons hsecond hnil =>
          cases hnil
          exact ⟨_, _, by simp, hfirst, hsecond⟩

/--
The request of a copy: one of the payloads carries the value of the copy under a new identifier.
-/
def Sends (c : Crypto) (resolver : KeyResolver) (bundle : Bundle) (value : OwnedTlv)
    (request : OutstandingRequest) : Prop :=
  ∃ payload ∈ bundle.payloads, ∃ identifier carried,
    setRequestIdentifier value identifier = .ok carried ∧ Tracks c resolver payload carried request

theorem sends_of_tracksAll {payload : VerifiedSignedTlv} (hpayload : payload ∈ bundle.payloads)
    {values renumbered : List OwnedTlv} {requests : List OutstandingRequest}
    (hrenumbered : List.Forall₂ (fun value renumbered =>
      ∃ identifier, setRequestIdentifier value identifier = .ok renumbered) values renumbered)
    (htracks : List.Forall₂ (fun value request => Tracks c resolver payload value request ∧
      request.kind.typeCode = value.typeCode) renumbered requests)
    : List.Forall₂ (fun value request => Sends c resolver bundle value request ∧
        request.kind.typeCode = value.typeCode) values requests := by
  apply (hrenumbered.comp htracks).imp
  rintro value request ⟨carried, ⟨identifier, hset⟩, htracks, htype⟩
  refine ⟨⟨payload, hpayload, identifier, carried, hset, htracks⟩, ?_⟩
  rw [htype, typeCode_setRequestIdentifier hset]

theorem filter_of_typeCode {values : List OwnedTlv} {requests : List OutstandingRequest}
    {R : OwnedTlv → OutstandingRequest → Prop}
    (h : List.Forall₂ (fun value request => R value request ∧
      request.kind.typeCode = value.typeCode) values requests)
    (hvalues : ∀ value ∈ values, isCopyType value.typeCode = true)
    : requests.filter (fun request => !request.kind.isPoll) = requests := by
  rw [List.filter_eq_self]
  intro request hrequest
  obtain ⟨value, hvalue, _, htype⟩ := List.forall₂_mem_right h hrequest
  rw [not_isPoll_of_isCopyType]
  . rfl
  . rw [htype]
    exact hvalues value hvalue

theorem mem_sentPayloads {first second values : List OwnedTlv} (h : values ∈ sentPayloads first second)
    : values = first ∨ values = second := by
  unfold sentPayloads at h
  split at h
  . exact .inr (by simpa using h)
  . split at h
    . exact .inl (by simpa using h)
    . simpa using h

theorem isRequest_of_renumbered {values renumbered : List OwnedTlv}
    (h : List.Forall₂ (fun value renumbered =>
      ∃ identifier, setRequestIdentifier value identifier = .ok renumbered) values renumbered)
    (hvalues : ∀ value ∈ values, isCopyType value.typeCode = true)
    : ∀ value ∈ renumbered, Types.isRequest value.typeCode = true := by
  intro carried hcarried
  obtain ⟨value, hvalue, identifier, hset⟩ := List.forall₂_mem_right h hcarried
  rw [typeCode_setRequestIdentifier hset]
  exact isRequest_of_isCopyType (hvalues value hvalue)

theorem copyRequests_ok {polls fileRequests rest first second : List OwnedTlv}
    (hpolls : polls ⊆ pollValues) (hfirst : appendRenumbered polls fileRequests = .ok first)
    (hsecond : appendRenumbered [] rest = .ok second)
    (hfileRequests : ∀ value ∈ fileRequests, value.typeCode = Types.fileRequest)
    (hrest : ∀ value ∈ rest, isCopyType value.typeCode = true ∧ value.typeCode ≠ Types.fileRequest)
    {contact : Contact} {exchange : Exchange} (h : Conducted contact (sentPayloads first second) exchange)
    (htracked : ResponseTracker.forBundle c contact.bundle contact.resolver = .ok contact.tracker)
    : List.Forall₂ (Sends c contact.resolver contact.bundle) (fileRequests ++ rest)
        (exchange.requests.filter (fun request => !request.kind.isPoll)) ∧
      (exchange.requests.filter (fun request => !request.kind.isPoll)).Nodup := by
  obtain ⟨renumberedFirst, rfl, hfirstSet⟩ := appendRenumbered_ok hfirst
  obtain ⟨renumberedSecond, hsecondEq, hsecondSet⟩ := appendRenumbered_ok hsecond
  rw [List.nil_append] at hsecondEq
  subst hsecondEq
  have hcopyFirst : ∀ value ∈ fileRequests, isCopyType value.typeCode = true := by
    intro value hvalue
    rw [hfileRequests value hvalue]
    decide
  have hcopySecond : ∀ value ∈ rest, isCopyType value.typeCode = true :=
    fun value hvalue => (hrest value hvalue).1
  have hall : ∀ values ∈ sentPayloads (polls ++ renumberedFirst) second,
      ∀ value ∈ values, Types.isRequest value.typeCode = true := by
    have hfirstTypes := isRequest_of_renumbered hfirstSet hcopyFirst
    have hsecondTypes := isRequest_of_renumbered hsecondSet hcopySecond
    intro values hvalues value hvalue
    rcases mem_sentPayloads hvalues with rfl | rfl
    . rcases List.mem_append.mp hvalue with hvalue | hvalue
      . exact isRequest_pollValues (hpolls hvalue)
      . exact hfirstTypes value hvalue
    . exact hsecondTypes value hvalue
  obtain ⟨headerHash, hcarries⟩ := h.carries
  simp only [ResponseTracker.forBundle, Except.bind_ok_iff] at htracked
  obtain ⟨outstanding, houtstanding, htracked⟩ := htracked
  have houtstanding' : exchange.requests = outstanding := by
    injection htracked with htracked
    rw [h.requests, ← htracked]
  rw [houtstanding']
  obtain ⟨groups, rfl, hgroups⟩ := bundleRequests_ok hcarries hall houtstanding
  obtain ⟨firstRequests, secondRequests, hflatten, ⟨firstPayload, hfirstPayload, hfirstTracks⟩,
    ⟨secondPayload, hsecondPayload, hsecondTracks⟩⟩ := requests_of_sentPayloads
      (by rintro _ _ ⟨payload, hpayload, _⟩; exact ⟨payload, hpayload, .nil, by simp⟩) hgroups
  obtain ⟨pollRequests, fileRequestRequests, rfl, hpollTracks, hfileTracks⟩ :=
    hfirstTracks.tracks.of_append_left
  have hfirstSends := sends_of_tracksAll hfirstPayload hfirstSet hfileTracks
  have hsecondSends := sends_of_tracksAll hsecondPayload hsecondSet hsecondTracks.tracks
  have hpollFilter : pollRequests.filter (fun request => !request.kind.isPoll) = [] := by
    rw [List.filter_eq_nil_iff]
    intro request hrequest
    obtain ⟨value, hvalue, _, htype⟩ := List.forall₂_mem_right hpollTracks hrequest
    simp [isPoll_of_pollValues (hpolls hvalue) htype]
  rw [hflatten, List.filter_append, List.filter_append, hpollFilter, List.nil_append,
    filter_of_typeCode hfirstSends hcopyFirst, filter_of_typeCode hsecondSends hcopySecond]
  constructor
  . apply List.Forall₂.append
    . exact hfirstSends.imp (fun _ _ h => h.1)
    . exact hsecondSends.imp (fun _ _ h => h.1)
  . have hidentifiers := hfirstTracks.identifiers
    rw [List.map_append] at hidentifiers
    rw [List.nodup_append]
    refine ⟨hidentifiers.of_append_right.of_map, hsecondTracks.identifiers.of_map, ?_⟩
    -- The two payloads carry different types, even if their hashes were the same.
    rintro request hrequest other hother rfl
    obtain ⟨value, hvalue, _, htype⟩ := List.forall₂_mem_right hfirstSends hrequest
    obtain ⟨value', hvalue', _, htype'⟩ := List.forall₂_mem_right hsecondSends hother
    apply (hrest value' hvalue').2
    rw [← htype', htype, hfileRequests value hvalue]

end Copies

section Scatter

variable {responses : List CompletedResponse} {nextAttempt : UInt64}

/--
The outcome of a copy: what the response to its request says, and another attempt without one.
-/
def outcomeOf (responses : List CompletedResponse) (nextAttempt : UInt64) (relayed : Bool)
    (request : OutstandingRequest)
    : DeliveryOutcome :=
  match responses.find? (·.request = request) with
  | some response => outcomeFor response nextAttempt relayed
  | none => .deferred nextAttempt "no response was received"

theorem length_outcomes_go (sent : List (Nat × Bool)) (requests : List OutstandingRequest)
    (start : List DeliveryOutcome)
    : (outcomes.go responses nextAttempt sent requests start).length = start.length := by
  induction sent generalizing requests start with
  | nil => rfl
  | cons entry sent ih =>
    obtain ⟨index, relayed⟩ := entry
    rw [outcomes.go]
    split
    . rw [ih, List.length_set]
    . rw [ih]

theorem outcomes_go_of_not_mem {sent : List (Nat × Bool)} {index : Nat}
    (h : index ∉ sent.map Prod.fst) (requests : List OutstandingRequest) (start : List DeliveryOutcome)
    : (outcomes.go responses nextAttempt sent requests start)[index]? = start[index]? := by
  induction sent generalizing requests start with
  | nil => rfl
  | cons entry sent ih =>
    obtain ⟨first, relayed⟩ := entry
    simp only [List.map_cons, List.mem_cons, not_or] at h
    rw [outcomes.go]
    split
    . rw [ih h.2, List.getElem?_set_ne (Ne.symm h.1)]
    . rw [ih h.2]

theorem outcomes_go_of_mem {sent : List (Nat × Bool)} (hnodup : (sent.map Prod.fst).Nodup)
    {requests : List OutstandingRequest} {index : Nat} {relayed : Bool} {request : OutstandingRequest}
    (hmem : ((index, relayed), request) ∈ sent.zip requests) {start : List DeliveryOutcome}
    (hstart : start[index]? = some (.deferred nextAttempt "no response was received"))
    : (outcomes.go responses nextAttempt sent requests start)[index]? =
        some (outcomeOf responses nextAttempt relayed request) := by
  -- Every place that is named once gets the outcome of the request at its position.
  induction sent generalizing requests start with
  | nil => simp at hmem
  | cons entry sent ih =>
    obtain ⟨first, firstRelayed⟩ := entry
    cases requests with
    | nil => simp at hmem
    | cons firstRequest requests =>
      rw [List.map_cons, List.nodup_cons] at hnodup
      rw [List.zip_cons_cons, List.mem_cons] at hmem
      rw [outcomes.go]
      simp only [List.head?_cons, Option.bind_some, List.tail_cons]
      rcases hmem with heq | hmem
      . cases heq
        unfold outcomeOf
        have hlt := (List.getElem?_eq_some_iff.mp hstart).1
        cases responses.find? (·.request = request) with
        | some response =>
          dsimp only
          rw [outcomes_go_of_not_mem hnodup.1, List.getElem?_set_self hlt]
        | none =>
          dsimp only
          rw [outcomes_go_of_not_mem hnodup.1, hstart]
      . have hne : first ≠ index := by
          rintro rfl
          apply hnodup.1
          exact List.mem_map.mpr ⟨(first, relayed), (List.of_mem_zip hmem).1, rfl⟩
        split
        . apply ih hnodup.2 hmem
          rw [List.getElem?_set_ne hne, hstart]
        . exact ih hnodup.2 hmem hstart

end Scatter

section Group

variable {c : Crypto} {resolver : KeyResolver} {destination : Identity}

/--
A claimed copy with its value, and whether the next hop is asked to relay it.
-/
def Spools (c : Crypto) (resolver : KeyResolver) (destination : Identity) (claim : DeliveryClaim)
    (entry : OwnedTlv × Bool) : Prop :=
  parseSequence claim.item = .ok [entry.1] ∧ isRelayDelivery c entry.1 destination resolver = .ok entry.2

theorem claimedValues_ok {group : List DeliveryClaim} {values : List (OwnedTlv × Bool)}
    (h : claimedValues c resolver destination group = .ok values)
    : List.Forall₂ (Spools c resolver destination) group values := by
  induction group generalizing values with
  | nil =>
    cases h
    exact .nil
  | cons claim group ih =>
    simp only [claimedValues, Except.bind_ok_iff, Except.mapError_eq_ok] at h
    obtain ⟨value, hvalue, relayed, hrelayed, rest, hrest, h⟩ := h
    cases h
    refine .cons ⟨?_, hrelayed⟩ (ih hrest)
    simp only [singleValue, Except.bind_ok_iff, Except.mapError_eq_ok] at hvalue
    obtain ⟨parsed, hparsed, hvalue⟩ := hvalue
    split at hvalue
    . injection hvalue with hvalue
      subst hvalue
      exact hparsed
    . cases hvalue

end Group

theorem perm_ordered {values : List (OwnedTlv × Bool)} (p : (OwnedTlv × Bool) × Nat → Bool)
    : (values.zipIdx.filter p ++ values.zipIdx.filter (not ∘ p)).Perm values.zipIdx :=
  List.filter_append_perm p values.zipIdx

theorem nodup_positions {values : List (OwnedTlv × Bool)} {ordered : List ((OwnedTlv × Bool) × Nat)}
    (h : ordered.Perm values.zipIdx)
    : ((ordered.map (fun entry => (entry.2, entry.1.2))).map Prod.fst).Nodup := by
  rw [List.map_map]
  have hperm := h.map Prod.snd
  rw [List.zipIdx_map_snd] at hperm
  exact hperm.nodup_iff.mpr List.nodup_range'

theorem outcomes_of_ordered {values : List (OwnedTlv × Bool)}
    {ordered : List ((OwnedTlv × Bool) × Nat)} (hperm : ordered.Perm values.zipIdx)
    {copies : List OutstandingRequest} {R : OwnedTlv → OutstandingRequest → Prop}
    (h : List.Forall₂ R (ordered.map (·.1.1)) copies) (hnodup : copies.Nodup)
    (responses : List CompletedResponse) (nextAttempt : UInt64)
    : ∃ requests, requests.length = values.length ∧ requests.Nodup ∧ requests ⊆ copies ∧
        ∀ (i : Nat) (entry : OwnedTlv × Bool) (request : OutstandingRequest),
          values[i]? = some entry → requests[i]? = some request →
          R entry.1 request ∧
          (outcomes (ordered.map (fun entry => (entry.2, entry.1.2))) copies responses nextAttempt)[i]? =
            some (outcomeOf responses nextAttempt entry.2 request) := by
  -- Every copy gets the outcome of the request that was sent for it, wherever it was sent.
  have hlength : ordered.length = values.length := by
    rw [hperm.length_eq, List.length_zipIdx]
  rw [List.forall₂_map_left_iff] at h
  have hrequest : ∀ i : Fin values.length, ∃ request,
      ((values[i], i.val), request) ∈ ordered.zip copies ∧ R values[i].1 request := by
    intro i
    apply h.exists_zip
    rw [hperm.mem_iff, List.mem_zipIdx_iff_getElem?]
    simp
  choose request hzip hsends using hrequest
  refine ⟨List.ofFn request, by simp, ?_, ?_, ?_⟩
  . rw [List.nodup_ofFn]
    intro i j heq
    have hi := hzip i
    have hj := hzip j
    rw [heq] at hi
    have heq := List.eq_of_mem_zip_of_nodup hnodup hi hj
    injection heq with _ heq
    exact Fin.ext heq
  . intro request' hrequest'
    obtain ⟨i, rfl⟩ := List.mem_ofFn.mp hrequest'
    exact (List.of_mem_zip (hzip i)).2
  . intro i entry request' hentry hrequest'
    obtain ⟨hi, rfl⟩ := List.getElem?_eq_some_iff.mp hentry
    rw [List.getElem?_ofFn, dif_pos hi, Option.some.injEq] at hrequest'
    subst hrequest'
    refine ⟨hsends ⟨i, hi⟩, ?_⟩
    apply outcomes_go_of_mem (nodup_positions hperm)
    . rw [List.zip_map_left]
      exact List.mem_map.mpr ⟨_, hzip ⟨i, hi⟩, rfl⟩
    . rw [List.getElem?_replicate, if_pos]
      simp [hlength, hi]

/--
Every copy of the group is decided by the response to its own request, and by another attempt if there
is none. The requests of different copies are different, and none of them is a poll.
-/
theorem exchangeTo_outcomes (c : Crypto) (sign : SignTlv) (sender : LocalIdentity) (network : Network)
    (resolver : KeyResolver) (destination : Identity) (group : List DeliveryClaim)
    (hgroup : ∀ claim ∈ group, ∃ value, parseSequence claim.item = .ok [value] ∧
      isCopyType value.typeCode)
    (includePolls : Bool) (now nextAttempt : UInt64) (results : List DeliveryOutcome) (returned : Nat)
    (h : exchangeTo c sign sender network resolver destination group includePolls now nextAttempt =
      .ok (results, returned))
    : ∃ (payloads : List (List OwnedTlv)) (contact : Contact) (requests : List OutstandingRequest),
        Decides c sign sender network resolver destination now payloads contact ∧
        returned = (if contact.conversation.failure.isSome then 0 else contact.conversation.returned) ∧
        results.length = group.length ∧
        requests.length = group.length ∧
        requests.Nodup ∧
        (∀ request ∈ requests, request ∈ contact.tracker.outstanding ∧ request.kind.isPoll = false) ∧
        ∀ (i : Nat) (claim : DeliveryClaim) (request : OutstandingRequest),
          group[i]? = some claim → requests[i]? = some request →
          ∃ value relayed,
            Spools c resolver destination claim (value, relayed) ∧
            Sends c contact.resolver contact.bundle value request ∧
            results[i]? =
              some (outcomeOf contact.session.responses nextAttempt relayed request) := by
  simp only [exchangeTo, Except.bind_ok_iff, List.partition_eq_filter_filter] at h
  obtain ⟨values, hvalues, first, hfirst, second, hsecond, exchange, hexchange, h⟩ := h
  injection h with h
  injection h with hresults hreturned
  have hspools := claimedValues_ok hvalues
  have hlength : group.length = values.length := hspools.length_eq
  obtain ⟨contact, hdecides, hconducted⟩ := exchangePayloads_ok hexchange
  have hcopies : ∀ entry ∈ values.zipIdx, isCopyType entry.1.1.typeCode = true := by
    intro entry hentry
    obtain ⟨claim, hclaim, hspool⟩ := List.forall₂_mem_right hspools
      (List.mem_of_getElem? (List.mem_zipIdx_iff_getElem?.mp hentry))
    obtain ⟨value, hvalue, hcopy⟩ := hgroup claim hclaim
    rw [hspool.1] at hvalue
    injection hvalue with hvalue
    injection hvalue with hvalue
    rw [hvalue]
    exact hcopy
  have hpolls : (if includePolls then pollValues else []) ⊆ pollValues := by
    split
    . exact List.Subset.refl _
    . exact List.nil_subset _
  obtain ⟨hsends, hnodup⟩ := copyRequests_ok hpolls hfirst hsecond
    (by simp)
    (by
      intro value hvalue
      obtain ⟨entry, hentry, rfl⟩ := List.mem_map.mp hvalue
      obtain ⟨hmem, hother⟩ := List.mem_filter.mp hentry
      exact ⟨hcopies entry hmem, by simpa using hother⟩)
    hconducted hdecides.tracked
  rw [← List.map_append] at hsends
  have hperm := @perm_ordered values
    (fun entry => decide (entry.1.1.typeCode = Types.fileRequest))
  obtain ⟨requests, hrequestsLength, hrequestsNodup, hsubset, hdecided⟩ :=
    outcomes_of_ordered hperm hsends hnodup exchange.responses nextAttempt
  refine ⟨sentPayloads first second, contact, requests, hdecides, ?_, ?_, ?_, hrequestsNodup, ?_, ?_⟩
  . rw [← hreturned, hconducted.returned]
  . rw [← hresults, outcomes, length_outcomes_go, List.length_replicate, List.length_map,
      hperm.length_eq, List.length_zipIdx, hlength]
  . rw [hrequestsLength, hlength]
  . intro request hrequest
    have hmem := List.mem_filter.mp (hsubset hrequest)
    rw [hconducted.requests] at hmem
    simpa using hmem
  . intro i claim request hclaim hrequest
    obtain ⟨hi, rfl⟩ := List.getElem?_eq_some_iff.mp hclaim
    have hentry : values[i]? = some (values[i]) := List.getElem?_eq_getElem (hlength ▸ hi)
    obtain ⟨hsent, hresult⟩ := hdecided i _ request hentry hrequest
    rw [hresults, hconducted.responses] at hresult
    exact ⟨_, _, hspools.get hi (hlength ▸ hi), hsent, hresult⟩

namespace CutShort

open SharedRequest

def fileRequest : OwnedTlv :=
  carrierValue Types.fileRequest (concatenate
    [ carrierValue Types.filename (Bytes.ofString "nodelist.zip"),
      carrierValue Types.requestIdentifier (encodeU64 9) ])

def claim (jobId : String) : DeliveryClaim where
  jobId
  deliveryIndex := 0
  workerToken := "token"
  item := fileRequest.encode
  delivery :=
    { index := 0
      localIdentity := "local"
      nextHop := destination.address.display
      nextHopKey := none
      mode := .active
      deliveryClass := "Normal"
      retryAt := none
      policies := Vector.replicate 2 ⟨.deadLetter, .none⟩
      state := .active
      attempts := 1
      lastResult := ""
      lastFailure := none
      workerToken := some "token" }

def reply : Bundle where
  encoded := []
  origin := destination
  advertisedOriginKey := none
  destination := origin
  requestedDestinationKey := none
  timestamp := 0
  header := { encoded := [], identity := destination, data := [] }
  payloads := []
  unknownTopLevel := []

-- The three polls and the first copy have taken the identifiers before it.
def answer : ValidatedItem :=
  { ValidatedItem.ofKind .accepted 5 (carrierValue Types.accepted []) with
    responseTo := some (Vector.replicate 32 0) }

def network : Network where
  connect _ _ := .ok
    { events := [.initialSent, .replyHeaderReceived reply, .responsesReceived [answer]]
      failure := some (.message "connection reset")
      returned := 0 }
  discoverKey _ _ := .error (.message "no key")

end CutShort

/--
The connection fails after the response to the second of two file requests that were sent behind the three
polls. The first copy is tried again.
-/
theorem exchangeTo_outcomes_cut_short
    : ∃ (payloads : List (List OwnedTlv)) (contact : Contact) (first second : OutstandingRequest)
        (firstRelayed secondRelayed : Bool),
        Decides SharedRequest.crypto SharedRequest.sign ⟨SharedRequest.origin, SharedRequest.secret⟩
          CutShort.network SharedRequest.resolver SharedRequest.destination 0 payloads contact ∧
        first ≠ second ∧
        exchangeTo SharedRequest.crypto SharedRequest.sign ⟨SharedRequest.origin, SharedRequest.secret⟩
            CutShort.network SharedRequest.resolver SharedRequest.destination
            [CutShort.claim "a", CutShort.claim "b"] true 0 9 =
          .ok ([outcomeOf contact.session.responses 9 firstRelayed first,
            outcomeOf contact.session.responses 9 secondRelayed second], 0) ∧
        outcomeOf contact.session.responses 9 firstRelayed first =
          .deferred 9 "no response was received" ∧
        outcomeOf contact.session.responses 9 secondRelayed second = .delivered "accepted" := by
  have hgroup : ∀ claim ∈ [CutShort.claim "a", CutShort.claim "b"],
      ∃ value, parseSequence claim.item = .ok [value] ∧ isCopyType value.typeCode := by
    have hitem : parseSequence CutShort.fileRequest.encode = .ok [CutShort.fileRequest] := by
      rw [parseSequence_eq_ok]
      refine ⟨by simp [concatenate], ?_⟩
      simp [CutShort.fileRequest, Types.fileRequest]
    intro claim hclaim
    simp only [List.mem_cons, List.not_mem_nil, or_false] at hclaim
    rcases hclaim with rfl | rfl
    . exact ⟨CutShort.fileRequest, hitem, by decide⟩
    . exact ⟨CutShort.fileRequest, hitem, by decide⟩
  have hresult : (exchangeTo SharedRequest.crypto SharedRequest.sign
      ⟨SharedRequest.origin, SharedRequest.secret⟩ CutShort.network SharedRequest.resolver
      SharedRequest.destination [CutShort.claim "a", CutShort.claim "b"] true 0 9).toOption =
        some ([.deferred 9 "no response was received", .delivered "accepted"], 0) := by
    decide +kernel
  cases hexchange : exchangeTo SharedRequest.crypto SharedRequest.sign
      ⟨SharedRequest.origin, SharedRequest.secret⟩ CutShort.network SharedRequest.resolver
      SharedRequest.destination [CutShort.claim "a", CutShort.claim "b"] true 0 9 with
  | error error =>
    rw [hexchange] at hresult
    cases hresult
  | ok result =>
    rw [hexchange] at hresult
    injection hresult with hresult
    subst hresult
    obtain ⟨payloads, contact, requests, hdecides, _, _, hlength, hnodup, _, hdecided⟩ :=
      exchangeTo_outcomes _ _ _ _ _ _ _ hgroup _ _ _ _ _ hexchange
    obtain ⟨first, second, rfl⟩ := List.length_eq_two.mp hlength
    obtain ⟨_, firstRelayed, _, _, hfirst⟩ := hdecided 0 (CutShort.claim "a") first rfl rfl
    obtain ⟨_, secondRelayed, _, _, hsecond⟩ := hdecided 1 (CutShort.claim "b") second rfl rfl
    have hfirst := (Option.some.inj hfirst).symm
    have hsecond := (Option.some.inj hsecond).symm
    refine ⟨payloads, contact, first, second, firstRelayed, secondRelayed, hdecides, ?_, ?_, hfirst, hsecond⟩
    . simpa using hnodup
    . rw [hfirst, hsecond]

end Tith
