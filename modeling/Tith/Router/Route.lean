import Tith.Config.Basic
import Tith.Nodelist.Lookup

/-!
This module contains the selection of the next hop of a NetMail.
-/

namespace Tith

/--
The key distinguishes systems only where the address is anonymous.
-/
def Identity.sameSystemAs (a b : Identity) : Bool :=
  a.address = b.address && (!a.address.isAnonymous || a.publicKey = b.publicKey)

namespace Router

open Config

inductive RouteFailure where
  | unroutable
  | loop
  deriving DecidableEq, Repr

structure Commitment where
  nextHop : Identity
  passive : Bool
  routeRule : Option Nat
  methodIndex : Nat
  deriving DecidableEq

structure Sources where
  config : ConfigurationSet
  nodelist : Nodelist
  resolver : KeyResolver

def peerIdentity (peer : Peer) (resolver : KeyResolver) : Option Identity := do
  let publicKey ← if peer.address.isAnonymous then peer.publicKey else resolver peer.address
  some ⟨peer.address, publicKey⟩

def exactPeer (sources : Sources) (identity : Identity) : Option Peer :=
  (sources.config.peerList.map Prod.snd).find? (fun peer =>
    peer.address = identity.address ∧ peerIdentity peer sources.resolver = some identity)

def listedUsable (nodelist : Nodelist) (address : Address) : Bool :=
  match (nodelist.get address).bind (·.tith) with
  | none => false
  | some service => service.endpoints.any Nodelist.Endpoint.isUsable

def usable (sources : Sources) (identity : Identity) : Bool :=
  (exactPeer sources identity).any (fun peer => !peer.endpoints.isEmpty) ||
    listedUsable sources.nodelist identity.address

def namedPeer (sources : Sources) (name : String) : Option Identity := do
  let peer ← sources.config.peers[name]?
  peerIdentity peer sources.resolver

def eligibleAncestor (sources : Sources) (identity : Identity) : Option (Identity × Bool) :=
  let configured := exactPeer sources identity
  if configured.isSome || usable sources identity then
    some (identity, configured.any (fun peer => peer.endpoints.isEmpty))
  else
    none

def listedKeyword (nodelist : Nodelist) (address : Address) : Option Nodelist.Keyword :=
  (nodelist.get address).map (·.keyword)

def isDown (nodelist : Nodelist) (address : Address) : Bool :=
  listedKeyword nodelist address = some .down

def listedAncestor (sources : Sources) (address : Address) : Option (Identity × Bool) := do
  let entry ← sources.nodelist.get address
  let _ ← entry.tith
  let publicKey ← sources.resolver address
  eligibleAncestor sources ⟨address, publicKey⟩

def directCandidate (sources : Sources) (destination : Identity) : Option (Identity × Bool) :=
  if destination.address.isAnonymous then do
    let peer ← exactPeer sources destination
    if peer.endpoints.isEmpty then none else some (destination, false)
  else
    let prohibited := (listedKeyword sources.nodelist destination.address).any (fun keyword =>
      keyword = .privateNode ∨ keyword = .hold ∨ keyword = .down)
    if !prohibited && usable sources destination then some (destination, false) else none

def namedAncestor (sources : Sources) (destination : Identity) (superior : Peer → Option String)
    : Option (Identity × Bool) := do
  let peer ← exactPeer sources destination
  let name ← superior peer
  let identity ← namedPeer sources name
  eligibleAncestor sources identity

def bossAddress (address : Address) : Option Address :=
  if address.point = 0 then
    none
  else
    (Address.new address.domain address.zone address.net address.node 0).toOption

def candidate (sources : Sources) (method : RouteMethod) (destination : Identity)
    : Option (Identity × Bool) :=
  match method with
  | .via name => do
    let identity ← namedPeer sources name
    some (identity, false)
  | .direct => directCandidate sources destination
  | .hold => if isDown sources.nodelist destination.address then none else some (destination, true)
  | .boss =>
    if destination.address.isAnonymous then
      namedAncestor sources destination (·.boss)
    else do
      let address ← bossAddress destination.address
      listedAncestor sources address
  | .hub =>
    if destination.address.isAnonymous then
      namedAncestor sources destination (·.hub)
    else do
      let entry ← sources.nodelist.get destination.address
      let address ← entry.branch.hub
      listedAncestor sources address
  | .host => do
    let entry ← sources.nodelist.get destination.address
    let address ← entry.branch.host
    listedAncestor sources address
  | .region => do
    let entry ← sources.nodelist.get destination.address
    let address ← entry.branch.region
    listedAncestor sources address
  | .zone => do
    let entry ← sources.nodelist.get destination.address
    listedAncestor sources entry.branch.zone

def branchMatches (kind : BranchKind) (root : Address) (branch : Nodelist.Branch) : Bool :=
  match kind with
  | .zone => branch.zone = root
  | .region => branch.region = some root
  | .host => branch.host = some root
  | .hub => branch.hub = some root

def independentMatches (kind : IndependentKind) (root : Address) (branch : Nodelist.Branch) : Bool :=
  match kind with
  | .zone => branch.zone = root && branch.region.isNone && branch.host.isNone && branch.hub.isNone
  | .region => branch.region = some root && branch.host.isNone && branch.hub.isNone

def selectorMatches (sources : Sources) (selector : Selector) (identity : Identity) : Bool :=
  match selector with
  | .all => true
  | .address address => identity.address = address
  | .addressPattern pattern => pattern.matches identity.address
  | .peer name => namedPeer sources name = some identity
  | .branch kind root =>
    (sources.nodelist.get identity.address).any (fun entry => branchMatches kind root entry.branch)
  | .independent kind root =>
    (sources.nodelist.get identity.address).any (fun entry => independentMatches kind root entry.branch)

def nonAnonymousDefaults : List RouteMethod := [.direct, .boss, .hub, .host, .region, .zone, .hold]

def anonymousDefaults : List RouteMethod := [.boss, .hub, .direct, .hold]

def defaultMethods (destination : Identity) : List RouteMethod :=
  if destination.address.isAnonymous then anonymousDefaults else nonAnonymousDefaults

/--
The index of the first rule that matches and its methods, or the default methods.
-/
def selectMethods (sources : Sources) (rules : List RouteRule) (destination : Identity)
    : Option Nat × List RouteMethod :=
  match rules.zipIdx.find? (fun entry => selectorMatches sources entry.1.destination destination) with
  | none => (none, defaultMethods destination)
  | some (rule, index) => (some index, rule.methods)

def commit (sources : Sources) (destination : Identity) (vias : List Identity) (rule : Option Nat)
    (methods : List RouteMethod) (methodIndex : Nat)
    : Except RouteFailure Commitment :=
  match methods with
  | [] => .error .unroutable
  | method :: rest =>
    match candidate sources method destination with
    | none => commit sources destination vias rule rest (methodIndex + 1)
    | some (nextHop, passive) =>
      if vias.any (fun via => via.sameSystemAs nextHop) then
        .error .loop
      else
        .ok ⟨nextHop, passive, rule, methodIndex⟩

def routeNetmail (sources : Sources) (routes : Routes) (destination : Identity) (vias : List Identity)
    : Except RouteFailure Commitment :=
  if isDown sources.nodelist destination.address then
    .error .unroutable
  else
    let (rule, methods) := selectMethods sources routes.routes destination
    commit sources destination vias rule methods 0

def routesFor (config : ConfigurationSet) (localRef : IdentityRef) : Option Routes :=
  config.routes.find? (fun routes => routes.localRef = localRef)

def failurePolicy (sources : Sources) (routes : Routes) (origin destination : Identity)
    (selected : Option FailurePolicy) (kind : FailureKind)
    : FailurePolicy :=
  match selected with
  | some policy => policy
  | none =>
    let rule := routes.failures.find? (fun rule =>
      (rule.kind = .any || rule.kind = kind) && selectorMatches sources rule.origin origin &&
        selectorMatches sources rule.destination destination)
    (rule.map (·.policy)).getD routes.failureDefault

def failurePolicies (sources : Sources) (routes : Routes) (origin destination : Identity)
    (routeRule : Option Nat) (relayOverride : Option FailurePolicy)
    : Vector FailurePolicy 2 :=
  let selected := ((routeRule.bind (fun index => routes.routes[index]?)).bind (·.onFailure)).or relayOverride
  #v[failurePolicy sources routes origin destination selected .relayDenied,
    failurePolicy sources routes origin destination selected .rejected]

end Router

end Tith
