import Tith.Exchange.Session
import Tith.Store.Basic
import Tith.Wire.Build

/-!
This module contains the exchange that sends a group of claimed delivery copies to their next hop, and
the outcome of every copy.
-/

namespace Tith

inductive DeliveryError where
  | bundle (error : BundleError)
  | exchange (error : ExchangeError)
  | message (text : String)
  deriving DecidableEq

structure LocalIdentity where
  identity : Identity
  secret : SecretKey

/--
What happens on one connection: the calls of the session that it leads to, the failure that it ends
with, and how many values the peer has returned.
-/
structure Conversation where
  events : List SessionEvent
  failure : Option DeliveryError
  returned : Nat

/--
The peers behind their connections. A discovered key is pinned, which changes what resolves to what.
-/
structure Network where
  connect : Identity → List UInt8 → Except DeliveryError Conversation
  discoverKey : Address → PublicKey → Except DeliveryError (PublicKey × KeyResolver)

structure Exchange where
  requests : List OutstandingRequest
  responses : List CompletedResponse
  returned : Nat

inductive FailureAction where
  | recoverContinuity
  | preserveCompleted
  | fail
  deriving DecidableEq

def isSignatureFailure (error : DeliveryError) : Bool :=
  error = .bundle .invalidSignature || error = .exchange (.bundle .invalidSignature)

def failureAction (hasCompletedResponses destinationIsAnonymous : Bool) (error : DeliveryError)
    : FailureAction :=
  if hasCompletedResponses then
    .preserveCompleted
  else if !destinationIsAnonymous && isSignatureFailure error then
    .recoverContinuity
  else
    .fail

-- Closing the session at the end leaves its requests and responses as they are.
def converse (conversation : Conversation) (session : ClientSession)
    : Except DeliveryError Exchange × ClientSession :=
  let session := (sessionMachine session.tracker).run session conversation.events
  match conversation.failure with
  | some error => (.error error, session)
  | none =>
    let exchange :=
      { requests := session.requests
        responses := session.responses
        returned := conversation.returned }
    (.ok exchange, session)

def pollValue (typeCode identifier : UInt64) : OwnedTlv :=
  carrierValue typeCode (carrierValue Types.requestIdentifier (encodeU64 identifier)).encode

def pollValues : List OwnedTlv :=
  [ pollValue Types.pollMessages 1,
    pollValue Types.pollFiles 2,
    pollValue Types.pollFileRequests 3 ]

def RequestKind.isPoll (kind : RequestKind) : Bool :=
  match kind with
  | .pollMessages | .pollFiles | .pollFileRequests => true
  | .message | .file | .fileRequest | .publicKeyRequest => false

/--
Whether this delivery asks its next hop to relay a message.
-/
def isRelayDelivery (c : Crypto) (value : OwnedTlv) (nextHop : Identity) (resolver : KeyResolver)
    : Except BundleError Bool := do
  let item ← validateItem c value resolver
  .ok ((item.bind (·.destination)).any (· ≠ nextHop))

def rejectionOutcome (rejection : Option Rejection) (nextAttempt : UInt64) (relayed : Bool)
    : DeliveryOutcome :=
  match rejection with
  | none => .deferred nextAttempt "rejected without a usable reason"
  | some rejection =>
    match rejection.reason with
    | .permanent => .rejected (if relayed then .relayDenied else .rejected) rejection.description
    | .conditionUnmet => .rejected .rejected rejection.description
    | .temporary => .deferred (rejection.retryAfter.getD nextAttempt) rejection.description

def outcomeFor (response : CompletedResponse) (nextAttempt : UInt64) (relayed : Bool)
    : DeliveryOutcome :=
  match response.response with
  | .accepted => .delivered "accepted"
  | .rejected => rejectionOutcome response.rejection nextAttempt relayed

/--
One outcome per copy, in the order of the group. A value that was sent has its place in the group with
it, and the request at the same position.
-/
def outcomes (sent : List (Nat × Bool)) (requests : List OutstandingRequest)
    (responses : List CompletedResponse) (nextAttempt : UInt64)
    : List DeliveryOutcome :=
  go sent requests (List.replicate sent.length (.deferred nextAttempt "no response was received"))
where
  go (sent : List (Nat × Bool)) (requests : List OutstandingRequest)
      (outcomes : List DeliveryOutcome)
      : List DeliveryOutcome :=
    match sent with
    | [] => outcomes
    | (index, relayed) :: sent =>
      let response := requests.head?.bind fun request => responses.find? (·.request = request)
      match response with
      | some response =>
        go sent requests.tail (outcomes.set index (outcomeFor response nextAttempt relayed))
      | none => go sent requests.tail outcomes

def singleValue (item : List UInt8) : Except DeliveryError OwnedTlv := do
  let parsed ← (parseSequence item).mapError (fun error => .bundle (.framing error))
  match parsed with
  | [value] => .ok value
  | _ => .error (.message "spooled item is not a single TLV value")

def claimedValues (c : Crypto) (resolver : KeyResolver) (destination : Identity)
    (group : List DeliveryClaim)
    : Except DeliveryError (List (OwnedTlv × Bool)) :=
  match group with
  | [] => .ok []
  | claim :: group => do
    let value ← singleValue claim.item
    let relayed ← (isRelayDelivery c value destination resolver).mapError .bundle
    let values ← claimedValues c resolver destination group
    .ok ((value, relayed) :: values)

-- Identifiers count up from the values that are already in the payload.
def appendRenumbered (payload values : List OwnedTlv) : Except DeliveryError (List OwnedTlv) :=
  match values with
  | [] => .ok payload
  | value :: values => do
    let renumbered ←
      (setRequestIdentifier value (UInt64.ofNat (payload.length + 1))).mapError .bundle
    appendRenumbered (payload ++ [renumbered]) values

def sentPayloads (first second : List OwnedTlv) : List (List OwnedTlv) :=
  if first.isEmpty then
    [second]
  else if second.isEmpty then
    [first]
  else
    [first, second]

def attempt (c : Crypto) (sign : SignTlv) (sender : LocalIdentity) (network : Network)
    (resolver : KeyResolver) (destination : Identity) (payloads : List (List OwnedTlv)) (now : UInt64)
    : Except DeliveryError (Except DeliveryError Exchange × ClientSession) := do
  let encoded ←
    (buildBundle c sign sender.identity sender.secret destination now payloads).mapError .bundle
  let bundle ← (Bundle.parse c encoded resolver).mapError .bundle
  let tracker ← (ResponseTracker.forBundle c bundle resolver).mapError .exchange
  let conversation ← network.connect destination encoded
  .ok (converse conversation (ClientSession.new tracker))

def exchangePayloads (c : Crypto) (sign : SignTlv) (sender : LocalIdentity) (network : Network)
    (resolver : KeyResolver) (destination : Identity) (payloads : List (List OwnedTlv)) (now : UInt64)
    : Except DeliveryError Exchange := do
  let (result, session) ← attempt c sign sender network resolver destination payloads now
  match result with
  | .ok exchange => .ok exchange
  | .error error =>
    match failureAction (!session.responses.isEmpty) destination.address.isAnonymous error with
    | .recoverContinuity =>
      let (key, resolver) ← network.discoverKey destination.address destination.publicKey
      let (result, _) ←
        attempt c sign sender network resolver ⟨destination.address, key⟩ payloads now
      result
    | .preserveCompleted =>
      .ok { requests := session.requests, responses := session.responses, returned := 0 }
    | .fail => .error error

def exchangeTo (c : Crypto) (sign : SignTlv) (sender : LocalIdentity) (network : Network)
    (resolver : KeyResolver) (destination : Identity) (group : List DeliveryClaim)
    (includePolls : Bool) (now nextAttempt : UInt64)
    : Except DeliveryError (List DeliveryOutcome × Nat) := do
  let values ← claimedValues c resolver destination group
  let (fileRequests, rest) :=
    values.zipIdx.partition (fun entry => entry.1.1.typeCode = Types.fileRequest)
  let first ←
    appendRenumbered (if includePolls then pollValues else []) (fileRequests.map (·.1.1))
  let second ← appendRenumbered [] (rest.map (·.1.1))
  let exchange ←
    exchangePayloads c sign sender network resolver destination (sentPayloads first second) now
  let sent := (fileRequests ++ rest).map (fun entry => (entry.2, entry.1.2))
  let copyRequests := exchange.requests.filter (fun request => !request.kind.isPoll)
  .ok (outcomes sent copyRequests exchange.responses nextAttempt, exchange.returned)

end Tith
