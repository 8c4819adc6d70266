import Tith.Exchange.Receive
import Tith.Wire.Lemmas.Item

/-!
This module contains the classification of a received payload: what is answered, what is acted on and
what is refused.
-/

namespace Tith

def ReceivedRequest.identifier (request : ReceivedRequest) : UInt64 :=
  match request with
  | .valid item => item.requestIdentifier
  | .dataError requestIdentifier => requestIdentifier

-- The data of a payload whose signature is valid, and of one whose signature is not.
def Verified (c : Crypto) (value : OwnedTlv) (origin : Identity) (resolver : KeyResolver)
    (data : List OwnedTlv) : Prop :=
  ∃ payload, verifySignedTlv c value (some origin) resolver = .ok payload ∧ payload.data = data

def Unverified (c : Crypto) (value : OwnedTlv) (origin : Identity) (resolver : KeyResolver)
    (data : List OwnedTlv) : Prop :=
  verifySignedTlv c value (some origin) resolver = .error .invalidSignature ∧
    unauthenticatedSignedData value = .ok data

def Identified (requests : List OwnedTlv) : Prop :=
  (∀ request ∈ requests, requestIdentifier request ≠ none) ∧ (requests.map requestIdentifier).Nodup

/--
The request is received under its identifier, and as valid only if it is.
-/
structure ReceivedAs (c : Crypto) (resolver : KeyResolver) (value : OwnedTlv)
    (received : ReceivedRequest) : Prop where
  identifier : requestIdentifier value = some received.identifier
  valid : ∀ item, received = .valid item → validateItem c value resolver = .ok (some item)

theorem checkIdentifiers_eq_ok {requests : List OwnedTlv} {identifiers : List UInt64}
    : checkIdentifiers requests identifiers = .ok () ↔
        Identified requests ∧
          ∀ request ∈ requests, ∀ identifier ∈ identifiers,
            requestIdentifier request ≠ some identifier := by
  induction requests generalizing identifiers with
  | nil => simp [checkIdentifiers, Identified]
  | cons request requests ih =>
    unfold checkIdentifiers
    split
    . next hnone =>
      simp only [reduceCtorEq, false_iff]
      rintro ⟨⟨hsome, _⟩, _⟩
      apply hsome request (by simp) hnone
    . next identifier hsome =>
      split
      . next hseen =>
        simp only [reduceCtorEq, false_iff]
        rintro ⟨_, hnew⟩
        apply hnew request (by simp) identifier _ hsome
        simpa using hseen
      . next hnew =>
        rw [ih]
        simp only [Identified, List.mem_cons, forall_eq_or_imp, List.map_cons, List.nodup_cons,
          List.mem_map, not_exists, not_and, hsome]
        simp only [List.contains_iff_mem] at hnew
        constructor
        . rintro ⟨⟨hsomes, hnodup⟩, hrest⟩
          refine ⟨⟨⟨by simp, hsomes⟩, fun other hmem => (hrest other hmem).1, hnodup⟩, ?_, ?_⟩
          . rintro identifier' hmem heq
            apply hnew
            rw [Option.some.inj heq]
            exact hmem
          . intro other hmem
            exact (hrest other hmem).2
        . rintro ⟨⟨⟨_, hsomes⟩, hfirst, hnodup⟩, _, hrest⟩
          exact ⟨⟨hsomes, hnodup⟩, fun other hmem => ⟨hfirst other hmem, hrest other hmem⟩⟩

theorem checkIdentifiers_nil {requests : List OwnedTlv}
    : checkIdentifiers requests [] = .ok () ↔ Identified requests := by
  rw [checkIdentifiers_eq_ok]
  simp

theorem dataErrors_receivedAs (c : Crypto) (resolver : KeyResolver) {requests : List OwnedTlv}
    (h : ∀ request ∈ requests, requestIdentifier request ≠ none)
    : List.Forall₂ (ReceivedAs c resolver) requests (dataErrors requests) := by
  induction requests with
  | nil => exact .nil
  | cons request requests ih =>
    cases hidentifier : requestIdentifier request with
    | none => exact absurd hidentifier (h request (by simp))
    | some identifier =>
      have hcons : dataErrors (request :: requests) = .dataError identifier :: dataErrors requests := by
        simp [dataErrors, hidentifier]
      rw [hcons]
      apply List.Forall₂.cons
      . exact ⟨hidentifier, by simp⟩
      . apply ih
        intro other hmem
        apply h other
        simp [hmem]

theorem eq_dataError_of_mem {requests : List OwnedTlv} {received : ReceivedRequest}
    (h : received ∈ dataErrors requests)
    : ∃ identifier, received = .dataError identifier := by
  simp only [dataErrors, List.mem_filterMap, Option.map_eq_some_iff] at h
  obtain ⟨_, _, identifier, _, hreceived⟩ := h
  exact ⟨identifier, hreceived.symm⟩

theorem validateRequest_receivedAs (c : Crypto) (resolver : KeyResolver) {item : OwnedTlv}
    (hrequest : Types.isRequest item.typeCode = true) (h : requestIdentifier item ≠ none)
    : ∃ received, validateRequest c resolver item = [received] ∧
        ReceivedAs c resolver item received := by
  obtain ⟨identifier, hidentifier⟩ := Option.ne_none_iff_exists'.mp h
  unfold validateRequest
  split
  . next result hvalid =>
    obtain ⟨validated, hresult, _, hsame⟩ := validateItem_identifier hrequest hidentifier hvalid
    subst hresult
    refine ⟨.valid validated, rfl, ?_, ?_⟩
    . rw [hidentifier, ← hsame]
      rfl
    . rintro item' heq
      injection heq with heq
      rw [hvalid, heq]
  . refine ⟨.dataError identifier, ?_, hidentifier, by simp⟩
    simp [dataErrors, hidentifier]

theorem receiveItems_receivedAs {c : Crypto} {resolver : KeyResolver} {items : List OwnedTlv}
    {requests : List ReceivedRequest} {responses : List ValidatedItem}
    (hidentified : ∀ request ∈ requestsOf items, requestIdentifier request ≠ none)
    (h : receiveItems c resolver items = .ok (requests, responses))
    : List.Forall₂ (ReceivedAs c resolver) (requestsOf items) requests := by
  induction items generalizing requests responses with
  | nil =>
    unfold receiveItems at h
    injection h with h
    injection h with hrequests
    rw [← hrequests]
    exact .nil
  | cons item items ih =>
    unfold receiveItems at h
    split at h
    . next hrequest =>
      have hcons : requestsOf (item :: items) = item :: requestsOf items := by
        simp [requestsOf, hrequest]
      rw [hcons] at hidentified ⊢
      simp only [Except.bind_ok_iff, Prod.exists, Except.ok.injEq, Prod.mk.injEq] at h
      obtain ⟨requests', responses', hitems, rfl, _⟩ := h
      obtain ⟨received, heq, hreceived⟩ :=
        validateRequest_receivedAs c resolver hrequest (hidentified item (by simp))
      rw [heq, List.singleton_append]
      apply List.Forall₂.cons hreceived
      apply ih _ hitems
      intro other hmem
      apply hidentified other
      simp [hmem]
    . next hrequest =>
      have hcons : requestsOf (item :: items) = requestsOf items := by
        simp [requestsOf, hrequest]
      rw [hcons] at hidentified ⊢
      split at h
      . simp only [Except.bind_ok_iff, Prod.exists, Except.ok.injEq, Prod.mk.injEq] at h
        obtain ⟨_, _, requests', responses', hitems, rfl, _⟩ := h
        apply ih hidentified hitems
      . split at h
        . cases h
        . apply ih hidentified h

theorem payloadData_eq_ok {c : Crypto} {value : OwnedTlv} {origin : Identity} {resolver : KeyResolver}
    {data : List OwnedTlv} {authenticated : Bool}
    : payloadData c value origin resolver = .ok (data, authenticated) ↔
        if authenticated then
          Verified c value origin resolver data
        else
          Unverified c value origin resolver data := by
  unfold payloadData Verified Unverified
  cases hverify : verifySignedTlv c value (some origin) resolver with
  | ok payload =>
    cases authenticated with
    | true => simp
    | false => simp
  | error e =>
    by_cases hinvalid : e = .invalidSignature
    . subst hinvalid
      cases authenticated with
      | true => simp
      | false => simp [Except.mapError_eq_ok]
    . cases authenticated with
      | true => simp
      | false => simp [hinvalid]

theorem payloadData_of_verified {c : Crypto} {value : OwnedTlv} {origin : Identity}
    {resolver : KeyResolver} {data : List OwnedTlv} (h : Verified c value origin resolver data)
    : payloadData c value origin resolver = .ok (data, true) := payloadData_eq_ok.mpr h

theorem payloadData_of_unverified {c : Crypto} {value : OwnedTlv} {origin : Identity}
    {resolver : KeyResolver} {data : List OwnedTlv} (h : Unverified c value origin resolver data)
    : payloadData c value origin resolver = .ok (data, false) := payloadData_eq_ok.mpr h

theorem any_isResponse_requestValues {data : List OwnedTlv} (h : data.any isResponse = true)
    : (requestValues data).any isResponse = true := by
  unfold requestValues
  split
  . exact h
  . next first rest =>
    split
    . next hhash =>
      have hfirst : isResponse first = false := by
        rw [isResponse, hhash]
        rfl
      rw [List.any_cons, hfirst, Bool.false_or] at h
      exact h
    . exact h

-- A payload that is received: its three trust levels after the identifiers have been checked.
theorem receivePayload_ok {c : Crypto} {value : OwnedTlv} {origin : Identity} {headerHash : TlvHash}
    {resolver : KeyResolver} {received : ReceivedPayload}
    (h : receivePayload c value origin headerHash resolver = .ok received)
    : ∃ data authenticated, payloadData c value origin resolver = .ok (data, authenticated) ∧
        Identified (requestsOf (requestValues data)) ∧
        ((authenticated = false ∧ (requestValues data).any isResponse = false ∧
            received.requests = dataErrors (requestsOf (requestValues data)) ∧
            received.responses = []) ∨
          (authenticated = true ∧ correctHeader data headerHash = false ∧
            received.requests = dataErrors (requestsOf (requestValues data)) ∧
            received.responses = [] ∧ received.closeAfterReply = true) ∨
          (authenticated = true ∧ correctHeader data headerHash = true ∧
            receiveItems c resolver (requestValues data) =
              .ok (received.requests, received.responses))) := by
  simp only [receivePayload, Except.bind_ok_iff, Except.mapError_eq_ok, Prod.exists] at h
  obtain ⟨_, _, data, authenticated, hdata, ⟨⟩, hidentifiers, h⟩ := h
  refine ⟨data, authenticated, hdata, checkIdentifiers_nil.mp hidentifiers, ?_⟩
  split at h
  . next hnot =>
    split at h
    . cases h
    . next hresponse =>
      injection h with h
      left
      rw [← h]
      exact ⟨by simpa using hnot, by simpa using hresponse, rfl, rfl⟩
  . next hauthenticated =>
    have hauthenticated : authenticated = true := by simpa using hauthenticated
    right
    split at h
    . next hheader =>
      injection h with h
      left
      rw [← h]
      exact ⟨hauthenticated, by simpa using hheader, rfl, rfl, rfl⟩
    . next hheader =>
      simp only [Except.bind_ok_iff, Prod.exists, Except.ok.injEq] at h
      obtain ⟨requests, responses, hitems, rfl⟩ := h
      right
      exact ⟨hauthenticated, by simpa using hheader, hitems⟩

theorem identifiers_nodup {c : Crypto} {resolver : KeyResolver} {requests : List OwnedTlv}
    {received : List ReceivedRequest} (h : List.Forall₂ (ReceivedAs c resolver) requests received)
    (hidentified : Identified requests)
    : (received.map ReceivedRequest.identifier).Nodup := by
  have hmap : requests.map requestIdentifier =
      (received.map ReceivedRequest.identifier).map some := by
    induction h with
    | nil => rfl
    | cons hfirst hrest ih =>
      rw [List.map_cons, List.map_cons, List.map_cons, hfirst.identifier, ih]
      exact ⟨fun request hmem => hidentified.1 request (by simp [hmem]), hidentified.2.of_cons⟩
  apply List.Nodup.of_map some
  rw [← hmap]
  exact hidentified.2

/--
Every received payload: one answer for each of its requests, and nothing that is acted on unless its
signature is valid and it belongs to the header.
-/
theorem receivePayload_classified (c : Crypto) (value : OwnedTlv) (origin : Identity)
    (headerHash : TlvHash) (resolver : KeyResolver)
    : (∀ received, receivePayload c value origin headerHash resolver = .ok received →
        ∃ data,
          (Verified c value origin resolver data ∨ Unverified c value origin resolver data) ∧
          List.Forall₂ (ReceivedAs c resolver) (requestsOf (requestValues data)) received.requests ∧
          (received.requests.map ReceivedRequest.identifier).Nodup ∧
          ((∃ item, .valid item ∈ received.requests) ∨ received.responses ≠ [] →
            Verified c value origin resolver data ∧ correctHeader data headerHash = true)) ∧
      (∀ data, Unverified c value origin resolver data → data.any isResponse = true →
        ∃ e, receivePayload c value origin headerHash resolver = .error e) ∧
      (∀ data, Verified c value origin resolver data ∨ Unverified c value origin resolver data →
        ¬Identified (requestsOf (requestValues data)) →
        ∃ e, receivePayload c value origin headerHash resolver = .error e) ∧
      (∀ data, Verified c value origin resolver data → correctHeader data headerHash = false →
        Identified (requestsOf (requestValues data)) →
        ∀ responseTo, c.hashTlv value.encode = .ok responseTo →
        ∃ received, receivePayload c value origin headerHash resolver = .ok received ∧
          received.closeAfterReply = true ∧ received.responses = [] ∧
          ∀ request ∈ received.requests, ∃ identifier, request = .dataError identifier) := by
  -- What is not received with one of the data is refused.
  have hrefused : ∀ {P : Prop},
      (∀ received, receivePayload c value origin headerHash resolver = .ok received → P) → ¬P →
      ∃ e, receivePayload c value origin headerHash resolver = .error e := by
    intro P hreceived hnot
    cases hresult : receivePayload c value origin headerHash resolver with
    | error e => exact ⟨e, rfl⟩
    | ok received => exact absurd (hreceived received hresult) hnot
  refine ⟨?_, ?_, ?_, ?_⟩
  . intro received h
    obtain ⟨data, authenticated, hdata, hidentified, hcases⟩ := receivePayload_ok h
    rw [payloadData_eq_ok] at hdata
    have herrors := dataErrors_receivedAs c resolver hidentified.1
    have hunused : received.requests = dataErrors (requestsOf (requestValues data)) →
        received.responses = [] →
        ¬((∃ item, .valid item ∈ received.requests) ∨ received.responses ≠ []) := by
      rintro hrequests hresponses (⟨item, hitem⟩ | hne)
      . rw [hrequests] at hitem
        obtain ⟨identifier, heq⟩ := eq_dataError_of_mem hitem
        cases heq
      . exact hne hresponses
    obtain ⟨rfl, _, hrequests, hresponses⟩ | ⟨rfl, _, hrequests, hresponses, _⟩ |
      ⟨rfl, hheader, hitems⟩ := hcases
    . rw [← hrequests] at herrors
      refine ⟨data, .inr hdata, herrors, identifiers_nodup herrors hidentified, ?_⟩
      intro hused
      exact absurd hused (hunused hrequests hresponses)
    . rw [← hrequests] at herrors
      refine ⟨data, .inl hdata, herrors, identifiers_nodup herrors hidentified, ?_⟩
      intro hused
      exact absurd hused (hunused hrequests hresponses)
    . have hreceived := receiveItems_receivedAs hidentified.1 hitems
      exact ⟨data, .inl hdata, hreceived, identifiers_nodup hreceived hidentified,
        fun _ => ⟨hdata, hheader⟩⟩
  . intro data hdata hresponse
    apply hrefused (P := (requestValues data).any isResponse = false)
    . intro received h
      obtain ⟨data', authenticated, hdata', _, hcases⟩ := receivePayload_ok h
      rw [payloadData_of_unverified hdata] at hdata'
      injection hdata' with heq
      injection heq with hsame hauthenticated
      subst hsame
      subst hauthenticated
      obtain ⟨_, hnone, _⟩ | ⟨hauthenticated, _⟩ | ⟨hauthenticated, _⟩ := hcases
      . exact hnone
      . cases hauthenticated
      . cases hauthenticated
    . rw [any_isResponse_requestValues hresponse]
      simp
  . intro data hdata hnot
    apply hrefused (P := Identified (requestsOf (requestValues data))) _ hnot
    intro received h
    obtain ⟨data', authenticated, hdata', hidentified, _⟩ := receivePayload_ok h
    have hsame : data = data' := by
      rcases hdata with hdata | hdata
      . rw [payloadData_of_verified hdata] at hdata'
        injection hdata' with heq
        injection heq
      . rw [payloadData_of_unverified hdata] at hdata'
        injection hdata' with heq
        injection heq
    rw [hsame]
    exact hidentified
  . intro data hdata hheader hidentified responseTo hhash
    refine ⟨⟨responseTo, dataErrors (requestsOf (requestValues data)), [], true⟩, ?_, rfl, rfl, ?_⟩
    . unfold receivePayload
      rw [hhash, payloadData_of_verified hdata]
      simp only [Except.mapError, Except.bind_of_ok]
      rw [checkIdentifiers_nil.mpr hidentified]
      simp [hheader]
    . intro request hrequest
      apply eq_dataError_of_mem hrequest

end Tith
