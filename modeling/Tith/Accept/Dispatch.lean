import Tith.Router.Route
import Tith.Store.Inbound
import Tith.Store.KeyPins
import Tith.Store.Outbound
import Tith.Wire.Describe
import Tith.Wire.Suffix

/-!
This module contains the acceptance of authenticated items: an item for this node is stored, a NetMail
for another node is relayed, and either is answered.
-/

namespace Tith

def software : String := "tithd 0.1.0"

namespace Accept

open Config Router

def relayApplication : Application := ⟨"tithd-relay", by decide⟩

/--
Everything that decides about an item, and the store's pins of keys.
-/
structure Acceptance where
  pins : KeyPins
  application : Application
  configuration : ConfigurationSet
  nodelist : Nodelist
  localRef : IdentityRef
  localIdentity : Identity

def Acceptance.resolver (acceptance : Acceptance) : KeyResolver :=
  acceptance.pins.lookup acceptance.nodelist.publicKey

def Acceptance.sources (acceptance : Acceptance) : Sources where
  config := acceptance.configuration
  nodelist := acceptance.nodelist
  resolver := acceptance.resolver

/--
A refusal to relay, which is answered.
-/
structure Refusal where
  reason : RejectionReason
  description : String
  deriving DecidableEq

namespace Refusal

def permanent (description : String) : Refusal := ⟨.permanent, description⟩

def temporary (description : String) : Refusal := ⟨.temporary, description⟩

def ofRouteFailure (failure : RouteFailure) : Refusal :=
  match failure with
  | .loop => permanent "routing would return the item to a node it came through"
  | .unroutable => permanent "no eligible route to the destination"

end Refusal

structure PreparedRelay where
  job : NewOutboundJob
  identity : SubmissionIdentity

/--
What an arrival draws from its surroundings: the random source, the clock, and the draws of the store.
-/
structure Surroundings where
  requestIdentifier : Except CryptoError UInt64
  viaTime : UInt64
  created : UInt64
  rng : Rng

inductive DispatchError where
  | responseValue
  | unauthenticated
  | relayConflict
  | crypto (error : CryptoError)
  | wire (error : BundleError)
  | store (error : StoreError)
  deriving DecidableEq

-- The decimal text of the type an item of the kind has.
def SignedItemKind.typeText (kind : SignedItemKind) : String :=
  match kind with
  | .message => toString Types.message.toNat
  | .file => toString Types.file.toNat

/--
The text under which an item is spooled: its signed identity, which no retransmission changes.
-/
def relayKey (base64 : Nodelist.Base64) (signed : SignedItemIdentity) : String :=
  SignedItemKind.typeText signed.kind ++ " " ++ signed.signer.address.display ++ " " ++
    String.ofList (base64.encode signed.signer.publicKey.toList) ++ " " ++
    String.ofList (base64.encode signed.signature.toList)

def relayIdentity (c : Crypto) (base64 : Nodelist.Base64) (signed : SignedItemIdentity)
    : Except CryptoError SubmissionIdentity := do
  let idempotencyKey := relayKey base64 signed
  let digest ← c.hashTlv (Bytes.ofString idempotencyKey)
  .ok { application := relayApplication, idempotencyKey, digest }

def relayRule (sources : Sources) (routes : Routes) (peer signer destination : Identity)
    : Option RelayRule :=
  routes.relay.find? (fun rule =>
    selectorMatches sources rule.fromPeer peer && selectorMatches sources rule.origin signer &&
      selectorMatches sources rule.destination destination)

/--
The identity that a via names. A non-anonymous one without a known key is left out.
-/
def viaIdentity (resolver : KeyResolver) (via : ViaData) : Option Identity := do
  let publicKey ← if via.address.isAnonymous then via.publicKey else resolver via.address
  some ⟨via.address, publicKey⟩

def viaIdentities (resolver : KeyResolver) (item : OwnedTlv) : Except BundleError (List Identity) := do
  let vias ← itemVias item
  .ok (vias.filterMap (viaIdentity resolver))

def signedIdentity (item : ValidatedItem) : Option SignedItemIdentity :=
  match item.authentication with
  | some .originValid | some .signedOriginValid => item.duplicateIdentity
  | _ => none

def RelayRule.allowed (rule : RelayRule) : Option (Option FailurePolicy) :=
  match rule.action with
  | .allow onFailure => some onFailure
  | .deny => none

def relayDelivery (acceptance : Acceptance) (commitment : Commitment) (policies : Vector FailurePolicy 2)
    : NewDelivery where
  localIdentity := acceptance.localRef.display
  nextHop := commitment.nextHop.address.display
  nextHopKey := commitment.nextHop.embeddedKey
  mode := if commitment.passive then .passive else .active
  deliveryClass := "Normal"
  retryAt := none
  policies

theorem length_singleton_lt (delivery : NewDelivery) : [delivery].length < 2 ^ 64 := by
  simp

def relayJob (acceptance : Acceptance) (identity : SubmissionIdentity) (destination : Identity)
    (relayed : OwnedTlv) (created : UInt64) (delivery : NewDelivery)
    : NewOutboundJob where
  identity
  kind := .netMail
  target := .destination destination.address.display
  localIdentity := acceptance.localRef.display
  item := relayed.encode
  deliveries := [delivery]
  deliveries_lt := length_singleton_lt delivery
  sources := []
  created
  forwardInbound := none
  forwardClaimToken := none

def prepareRelay (c : Crypto) (base64 : Nodelist.Base64) (acceptance : Acceptance) (item : ValidatedItem)
    (peer : Identity) (requestIdentifier viaTime created : UInt64)
    : Except Refusal PreparedRelay := do
  let destination ← item.destination.okOr (.permanent "relayed message has no Destination")
  let signed ← (signedIdentity item).okOr
    (.permanent "relay requires a valid end-to-end item signature")
  let routes ← (routesFor acceptance.configuration acceptance.localRef).okOr
    (.permanent "receiving identity has no Routes block")
  let onFailure ←
    ((relayRule acceptance.sources routes peer signed.signer destination).bind RelayRule.allowed).okOr
      (.permanent "no relay rule authorizes this peer, signer, and destination")
  let vias ← (viaIdentities acceptance.resolver item.raw).mapError
    (fun error => .permanent ("unreadable Via: " ++ error.describe))
  let commitment ← (routeNetmail acceptance.sources routes destination vias).mapError
    Refusal.ofRouteFailure
  let relayed ←
    (forwardItem item.raw acceptance.localIdentity requestIdentifier viaTime software []).mapError
      (fun error => .permanent ("could not rebuild the item: " ++ error.describe))
  let policies := failurePolicies acceptance.sources routes signed.signer commitment.nextHop
    commitment.routeRule onFailure
  let identity ← (relayIdentity c base64 signed).mapError
    (fun error => .temporary ("could not derive a spool key: " ++ error.describe))
  .ok
    { job := relayJob acceptance identity destination relayed created
        (relayDelivery acceptance commitment policies)
      identity }

/--
A retransmission of an item that is already spooled adds nothing.
-/
def relayBuilder (job : NewOutboundJob) : BatchBuilder := fun classes _ =>
  match classes.head? with
  | some (.new _) => .ok [job]
  | _ => .ok []

def relay (c : Crypto) (base64 : Nodelist.Base64) (acceptance : Acceptance) (item : ValidatedItem)
    (responseTo : TlvHash) (peer : Identity) (surroundings : Surroundings) (s : Store)
    : Except DispatchError OwnedTlv × Store :=
  match surroundings.requestIdentifier with
  | .error error => (.error (.crypto error), s)
  | .ok requestIdentifier =>
    match prepareRelay c base64 acceptance item peer requestIdentifier surroundings.viaTime
      surroundings.created with
    | .error refusal =>
      ((rejected item.requestIdentifier responseTo none refusal.reason refusal.description).mapError .wire,
        s)
    | .ok prepared =>
      match commitBatch [prepared.identity] (relayBuilder prepared.job) surroundings.rng s with
      | .error error => (.error (.store error), s)
      | .ok (.committed _, s) => (.ok (accepted item.requestIdentifier responseTo), s)
      | .ok (.conflict _, s) => (.error .relayConflict, s)

def peerName (config : ConfigurationSet) (peer : Identity) : Option String :=
  (config.peerList.find? (fun entry =>
    entry.2.address = peer.address &&
      (!peer.address.isAnonymous || entry.2.publicKey = some peer.publicKey))).map Prod.fst

def areaFor (config : ConfigurationSet) (localRef : IdentityRef) (fileArea : Bool) (name : String)
    : Option Area := do
  let areas ← config.areas.find? (fun areas => areas.localRef = localRef)
  areas.areas.find? (fun area => area.fileArea = fileArea && area.name = name)

def areaAllowed (acceptance : Acceptance) (item : ValidatedItem) (fileArea : Bool) (peer : Identity)
    : Bool :=
  match item.area, peerName acceptance.configuration peer with
  | some areaName, some name =>
    (areaFor acceptance.configuration acceptance.localRef fileArea areaName).any
      (fun area => area.receiveFrom.contains name)
  | _, _ => false

/--
Why an item is not stored, with the reason that the answer gives.
-/
def refusalFor (acceptance : Acceptance) (item : ValidatedItem) (peer : Identity)
    : Except DispatchError (Option Refusal) :=
  match item.kind with
  | .echoMail =>
    if areaAllowed acceptance item false peer then
      .ok none
    else
      .ok (some (.permanent "EchoMail area is not authorized for this peer"))
  | .file =>
    if item.area.isNone || areaAllowed acceptance item true peer then
      .ok none
    else
      .ok (some (.permanent "file area is not authorized for this peer"))
  | .pollMessages | .pollFiles | .pollFileRequests | .publicKeyRequest =>
    .ok (some (.temporary "request type is not implemented"))
  | .accepted | .rejected => .error .responseValue
  | .netMail | .fileRequest => .ok none

def inboundOf (acceptance : Acceptance) (item : ValidatedItem) (peer : Identity)
    (authentication : ItemAuthentication) (received : UInt64)
    : NewInbound where
  application := acceptance.application
  localIdentity := acceptance.localRef.display
  peer := peer.address.display
  peerKey := peer.publicKey
  received
  authentication
  payload := item.raw.encode

def store (c : Crypto) (acceptance : Acceptance) (item : ValidatedItem) (responseTo : TlvHash)
    (peer : Identity) (surroundings : Surroundings) (s : Store)
    : Except DispatchError OwnedTlv × Store :=
  match refusalFor acceptance item peer, item.authentication with
  | .error error, _ => (.error error, s)
  | .ok (some refusal), _ =>
    ((rejected item.requestIdentifier responseTo none refusal.reason refusal.description).mapError .wire,
      s)
  | .ok none, none => (.error .unauthenticated, s)
  | .ok none, some authentication =>
    let value := inboundOf acceptance item peer authentication surroundings.created
    match accept c value item.duplicateIdentity surroundings.rng s with
    | .error error => (.error (.store error), s)
    | .ok (_, _, s) => (.ok (accepted item.requestIdentifier responseTo), s)

def dispatch (c : Crypto) (base64 : Nodelist.Base64) (acceptance : Acceptance) (item : ValidatedItem)
    (responseTo : TlvHash) (peer : Identity) (surroundings : Surroundings) (s : Store)
    : Except DispatchError OwnedTlv × Store :=
  if item.kind = .netMail ∧ item.destination ≠ some acceptance.localIdentity then
    relay c base64 acceptance item responseTo peer surroundings s
  else
    store c acceptance item responseTo peer surroundings s

end Accept

end Tith
