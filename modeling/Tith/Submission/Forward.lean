import Tith.Accept.Dispatch
import Tith.Wire.Describe
import Tith.Wire.Lemmas.Trimmed

/-!
This module contains the forwarding of distribution items: the copies that an area owes its links, which of them are
left out for an item that has been elsewhere, and the item that is sent on.
-/

namespace Tith

namespace Submission

open Config Router

structure BuildFailure where
  kind : JobBuildFailure
  description : String
  deriving DecidableEq, Repr

namespace BuildFailure

def invalid (description : String) : BuildFailure := ⟨.invalid, description⟩

def permanent (description : String) : BuildFailure := ⟨.permanent, description⟩

end BuildFailure

/--
An identity that the node signs for. Forwarding does not sign.
-/
structure LocalSigner where
  reference : IdentityRef
  identity : Identity
  deriving DecidableEq

structure SubmissionEngine where
  configuration : ConfigurationSet
  nodelist : Nodelist
  signers : Table String LocalSigner

/--
The keys that the application has named for a submission.
-/
abbrev Resolved := Address → Option PublicKey

namespace SubmissionEngine

variable (engine : SubmissionEngine)

/--
The keys of a submission: those that were named, and those of the nodelist.
-/
def lookup (resolved : Resolved) : KeyResolver := fun address =>
  (resolved address).or (engine.nodelist.publicKey address)

def sources (resolved : Resolved) : Sources where
  config := engine.configuration
  nodelist := engine.nodelist
  resolver := engine.lookup resolved

def resolvePeer (name : String) (resolved : Resolved) : Except BuildFailure Identity := do
  let peer ← engine.configuration.peers[name]?.okOr (.invalid "unknown Peer reference")
  let publicKey ←
    if peer.address.isAnonymous then
      peer.publicKey.okOr (.invalid "anonymous Peer has no public key")
    else
      (engine.lookup resolved peer.address).okOr (.permanent "non-anonymous Peer has no trusted key")
  .ok ⟨peer.address, publicKey⟩

def resolveIdentityWith (value : String) (resolved : Resolved) : Except BuildFailure Identity :=
  match value.toList with
  | '@' :: name => engine.resolvePeer (String.ofList name) resolved
  | _ =>
    match Address.fromStr value with
    | .error _ => .error (.invalid "invalid identity")
    | .ok address =>
      if address.isAnonymous then
        .error (.invalid "anonymous identities require a Peer reference")
      else do
        let publicKey ←
          (engine.lookup resolved address).okOr (.permanent "identity has no trusted public key")
        .ok ⟨address, publicKey⟩

def areaDelivery (localRef : IdentityRef) (localIdentity : Identity) (routes : Routes) (resolved : Resolved)
    (link : AreaLink)
    : Except BuildFailure NewDelivery := do
  let peer ← engine.configuration.peers[link.peer]?.okOr (.invalid "unknown Send-To Peer")
  let identity ← engine.resolveIdentityWith ("@" ++ link.peer) resolved
  .ok
    { localIdentity := localRef.display
      nextHop := identity.address.display
      nextHopKey := identity.embeddedKey
      mode := if peer.endpoints.isEmpty then .passive else .active
      deliveryClass := link.deliveryClass
      retryAt := none
      policies := failurePolicies (engine.sources resolved) routes localIdentity identity none none }

def areaDeliveries (localRef : IdentityRef) (localIdentity : Identity) (areaName : String) (fileArea : Bool)
    (resolved : Resolved)
    : Except BuildFailure (List NewDelivery) := do
  let areas ← (engine.configuration.areas.find? (fun areas => areas.localRef = localRef)).okOr
    (.permanent "local identity has no Areas block")
  let area ← (areas.areas.find? (fun area => area.fileArea = fileArea ∧ area.name = areaName)).okOr
    (.permanent "undefined area")
  if area.sendTo = [] then
    .error (.permanent "area has no Send-To link")
  else do
    let routes ← (routesFor engine.configuration localRef).okOr
      (.permanent "local identity has no Routes block")
    area.sendTo.mapM (engine.areaDelivery localRef localIdentity routes resolved)

end SubmissionEngine

def seenAddresses (children : List OwnedTlv) : Except BundleError (List Address) := do
  let collections ← (children.filter (·.typeCode = Types.seenBy)).mapM seenByAddresses
  .ok collections.flatten

/--
Whether a copy is left out, because the item came from there or has been there.
-/
def isSuppressed (record : InboundRecord) (seenBy : List Address) (copy : NewDelivery) : Bool :=
  copy.nextHop = record.peer ||
    match Address.fromStr copy.nextHop with
    | .error _ => false
    | .ok address => seenBy.contains address

/--
An anonymous identity cannot be told from others by its address, and is not recorded.
-/
def representable (address : Address) : List Address := if address.isAnonymous then [] else [address]

def incomingAddress (record : InboundRecord) : List Address :=
  match Address.fromStr record.peer with
  | .error _ => []
  | .ok address => representable address

def copyAddress (copy : NewDelivery) : Except BuildFailure (List Address) :=
  match Address.fromStr copy.nextHop with
  | .error _ => .error (.invalid "delivery next hop is not an address")
  | .ok address => .ok (representable address)

/--
What a forward job consists of. The rest of the job is handed on from the request.
-/
structure ForwardJob where
  kind : JobKind
  area : String
  localIdentity : String
  item : OwnedTlv
  deliveries : List NewDelivery

def parseValues (bytes : List UInt8) : Except BuildFailure (List OwnedTlv) :=
  (parseSequence bytes).mapError (fun error => .invalid error.describe)

/--
The one item of a payload.
-/
def inboundRoot (payload : List UInt8) : Except BuildFailure OwnedTlv := do
  match ← parseValues payload with
  | [root] => .ok root
  | _ => .error (.invalid "inbound payload is not one item")

/--
The kind of the job for an item, and whether its area is one of files.
-/
def forwardKind (kind : ItemKind) : Except BuildFailure (JobKind × Bool) :=
  match kind with
  | .echoMail => .ok (.echoMail, false)
  | .file => .ok (.file, true)
  | _ => .error (.invalid "Forward requires EchoMail or standalone File")

def isAuthentic (authentication : ItemAuthentication) : Bool :=
  authentication = .originValid || authentication = .signedOriginValid

def describe {α : Type} (x : Except BundleError α) : Except BuildFailure α :=
  x.mapError (fun error => .invalid error.describe)

/--
The addresses that have the item or will get it, as the item that is sent on names them.
-/
def seenBehind (signer : LocalSigner) (record : InboundRecord) (seenBy : List Address)
    (deliveries : List NewDelivery)
    : Except BuildFailure (List Address) := do
  let copies ← deliveries.mapM copyAddress
  .ok (sortedSet (seenBy ++ representable signer.identity.address ++ incomingAddress record ++ copies.flatten))

def buildForwardJob (c : Crypto) (engine : SubmissionEngine) (inbound : ForwardInbound) (resolved : Resolved)
    (requestIdentifier created : UInt64)
    : Except BuildFailure ForwardJob := do
  if !isAuthentic inbound.record.authentication then
    .error (.invalid "Forward requires a valid end-to-end item signature")
  else
    let signer ←
      ((engine.signers.toList.map Prod.snd).find? (fun signer =>
        signer.reference.display = inbound.record.localIdentity)).okOr
        (.invalid "inbound receiving identity is no longer configured")
    let root ← inboundRoot inbound.payload
    let validated? ← describe (validateItem c root engine.nodelist.publicKey)
    let validated ← validated?.okOr (.invalid "inbound payload is not a forwardable item")
    let (kind, fileArea) ← forwardKind validated.kind
    -- A file for a peer owes nobody a copy.
    let area ← validated.area.okOr
      (.invalid "Forward requires a distribution item, and this one has no Area")
    let children ← parseValues root.value
    let seenBy ← describe (seenAddresses children)
    let copies ← engine.areaDeliveries signer.reference signer.identity area fileArea resolved
    let deliveries := copies.filter (fun copy => !isSuppressed inbound.record seenBy copy)
    let seen ← seenBehind signer inbound.record seenBy deliveries
    let item ← describe (forwardItem root signer.identity requestIdentifier created software seen)
    let rebuilt ← describe (validateItem c item engine.nodelist.publicKey)
    if rebuilt.isNone then
      .error (.invalid "forwarding did not construct an item")
    else
      .ok { kind, area, localIdentity := signer.reference.display, item, deliveries }

end Submission

end Tith
