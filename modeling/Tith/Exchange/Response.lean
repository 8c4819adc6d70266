import Tith.Exchange.Receive
import Tith.Lib.Search

/-!
This module contains the accounting of requests and their responses on the side of the client.
-/

namespace Tith

inductive RequestKind where
  | message
  | file
  | fileRequest
  | pollMessages
  | pollFiles
  | pollFileRequests
  | publicKeyRequest
  deriving DecidableEq

def RequestKind.requiresReturnBundle (kind : RequestKind) : Bool :=
  match kind with
  | .fileRequest | .pollMessages | .pollFiles | .pollFileRequests => true
  | .message | .file | .publicKeyRequest => false

structure OutstandingRequest where
  signedTlvHash : TlvHash
  requestIdentifier : UInt64
  kind : RequestKind
  deriving DecidableEq

-- A response names its request by this pair.
def OutstandingRequest.key (request : OutstandingRequest) : TlvHash × UInt64 :=
  (request.signedTlvHash, request.requestIdentifier)

inductive ResponseKind where
  | accepted
  | rejected
  deriving DecidableEq

structure CompletedResponse where
  request : OutstandingRequest
  response : ResponseKind
  rejection : Option Rejection
  deriving DecidableEq

def requestKind (item : ValidatedItem) : Option RequestKind :=
  match item.kind with
  | .netMail | .echoMail => some .message
  | .file => some .file
  | .fileRequest => some .fileRequest
  | .pollMessages => some .pollMessages
  | .pollFiles => some .pollFiles
  | .pollFileRequests => some .pollFileRequests
  | .publicKeyRequest => some .publicKeyRequest
  | .accepted | .rejected => none

def responseKind (item : ValidatedItem) : Option ResponseKind :=
  match item.kind with
  | .accepted => some .accepted
  | .rejected => some .rejected
  | _ => none

structure ResponseTracker where
  origin : Identity
  destination : Identity
  outstanding : List OutstandingRequest
  completed : List CompletedResponse
  deriving DecidableEq

namespace ResponseTracker

def outstandingOf (signedTlvHash : TlvHash) (item : ValidatedItem) : Option OutstandingRequest :=
  (requestKind item).map fun kind =>
    { signedTlvHash, requestIdentifier := item.requestIdentifier, kind }

def payloadRequests (c : Crypto) (resolver : KeyResolver) (payload : VerifiedSignedTlv)
    : Except ExchangeError (List OutstandingRequest) := do
  let signedTlvHash ← (c.hashTlv payload.encoded).mapError .crypto
  let items ← (validatePayload c payload resolver).mapError .payload
  .ok (items.filterMap (outstandingOf signedTlvHash))

def bundleRequests (c : Crypto) (resolver : KeyResolver) (payloads : List VerifiedSignedTlv)
    : Except ExchangeError (List OutstandingRequest) :=
  match payloads with
  | [] => .ok []
  | payload :: payloads => do
    let first ← payloadRequests c resolver payload
    let rest ← bundleRequests c resolver payloads
    .ok (first ++ rest)

def forBundle (c : Crypto) (bundle : Bundle) (resolver : KeyResolver)
    : Except ExchangeError ResponseTracker := do
  let outstanding ← bundleRequests c resolver bundle.payloads
  .ok { origin := bundle.origin, destination := bundle.destination, outstanding, completed := [] }

def expected (tracker : ResponseTracker) : Nat :=
  tracker.outstanding.length

def received (tracker : ResponseTracker) : Nat :=
  tracker.completed.length

def isComplete (tracker : ResponseTracker) : Bool :=
  tracker.received = tracker.expected

def requiresReturnBundle (tracker : ResponseTracker) : Bool :=
  tracker.outstanding.any (·.kind.requiresReturnBundle)

def validateReplyIdentity (tracker : ResponseTracker) (reply : Bundle) : Except ExchangeError Unit :=
  if reply.origin ≠ tracker.destination then
    .error .wrongReplyOrigin
  else if reply.destination ≠ tracker.origin then
    .error .wrongReplyDestination
  else
    .ok ()

def position (tracker : ResponseTracker) (key : TlvHash × UInt64) : Option Nat :=
  tracker.outstanding.findIdx? (fun request => request.key = key)

-- The source expects every completed response to have a position, and panics otherwise. Here such a
-- response would count as one that stands behind.
def insertion (tracker : ResponseTracker) (position : Nat) : Nat :=
  tracker.completed.partitionPoint fun existing =>
    (tracker.position existing.request.key).any (· < position)

def complete (tracker : ResponseTracker) (position : Nat) (completed : CompletedResponse)
    : ResponseTracker :=
  { tracker with completed := tracker.completed.insertIdx (tracker.insertion position) completed }

/--
The request that a response answers and its position, unless the response has to be refused.
-/
def findRequest (tracker : ResponseTracker) (item : ValidatedItem)
    : Except ExchangeError (Nat × CompletedResponse) := do
  let response ← (responseKind item).okOr .invalidResponse
  let responseHash ← item.responseTo.okOr .unexpectedResponse
  let key := (responseHash, item.requestIdentifier)
  let position ← (tracker.position key).okOr .unexpectedResponse
  let request ← tracker.outstanding[position]?.okOr .unexpectedResponse
  if item.responsePublicKey.isSome ∧ request.kind ≠ .publicKeyRequest then
    .error .unexpectedResponse
  else if tracker.completed.any (fun completed => completed.request.key = key) then
    .error .duplicateResponse
  else
    .ok (position, { request, response, rejection := item.rejection })

def observeResponse (tracker : ResponseTracker) (item : ValidatedItem)
    : Except ExchangeError Unit × ResponseTracker :=
  match tracker.findRequest item with
  | .ok (position, completed) => (.ok (), tracker.complete position completed)
  | .error error => (.error error, tracker)

-- The responses in front of a refused one have been recorded by then.
def observeResponses (tracker : ResponseTracker) (responses : List ValidatedItem)
    : Except ExchangeError Unit × ResponseTracker :=
  match responses with
  | [] => (.ok (), tracker)
  | response :: responses =>
    match tracker.observeResponse response with
    | (.ok (), tracker) => tracker.observeResponses responses
    | (.error error, tracker) => (.error error, tracker)

def requireComplete (tracker : ResponseTracker) : Except ExchangeError Unit :=
  if tracker.isComplete then
    .ok ()
  else
    .error (.incompleteResponse tracker.expected tracker.received)

end ResponseTracker

end Tith
