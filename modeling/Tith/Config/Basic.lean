import Tith.Lib.Table
import Tith.Store.Basic
import Tith.Wire.Address

/-!
This module contains the configuration of a node, as its parser leaves it: peers, routes, areas and schedules.
-/

namespace Tith

/-!
Patterns of addresses.
-/

inductive DomainPattern where
  | any
  | exact (domain : String)
  | list (domains : List String)
  deriving DecidableEq, Repr

inductive NumberPattern where
  | any
  | exact (number : Int)
  | list (ranges : List (Int × Int))
  deriving DecidableEq, Repr

structure AddressPattern where
  domain : DomainPattern
  zone : NumberPattern
  net : NumberPattern
  node : NumberPattern
  point : NumberPattern
  deriving DecidableEq, Repr

def matchDomain (pattern : DomainPattern) (value : String) : Bool :=
  match pattern with
  | .any => true
  | .exact expected => expected = value
  | .list values => values.contains value

def matchNumber (pattern : NumberPattern) (value : Int) : Bool :=
  match pattern with
  | .any => value ≠ -1
  | .exact expected => expected = value
  | .list ranges => ranges.any (fun range => range.1 ≤ value ∧ value ≤ range.2)

def AddressPattern.matches (pattern : AddressPattern) (address : Address) : Bool :=
  matchDomain pattern.domain address.domain && matchNumber pattern.zone address.zone &&
    matchNumber pattern.net address.net && matchNumber pattern.node address.node &&
    matchNumber pattern.point address.point.toNat

namespace Config

inductive IdentityRef where
  | address (address : Address)
  | peer (name : String)
  deriving DecidableEq

/--
`Display` of a reference.
-/
def IdentityRef.display (reference : IdentityRef) : String :=
  match reference with
  | .address listed => listed.display
  | .peer name => "@" ++ name

structure Endpoint where
  server : String
  port : UInt16
  deriving DecidableEq, Repr

structure Peer where
  name : String
  address : Address
  publicKey : Option PublicKey
  endpoints : List Endpoint
  trustOnFirstUse : Bool
  boss : Option String
  hub : Option String
  deriving DecidableEq

inductive BranchKind where
  | zone
  | region
  | host
  | hub
  deriving DecidableEq, Repr

inductive IndependentKind where
  | zone
  | region
  deriving DecidableEq, Repr

inductive Selector where
  | all
  | address (address : Address)
  | addressPattern (pattern : AddressPattern)
  | peer (name : String)
  | branch (kind : BranchKind) (root : Address)
  | independent (kind : IndependentKind) (root : Address)
  deriving DecidableEq

inductive RouteMethod where
  | via (name : String)
  | direct
  | boss
  | hub
  | host
  | region
  | zone
  | hold
  deriving DecidableEq, Repr

inductive FailureKind where
  | any
  | relayDenied
  | rejected
  deriving DecidableEq, Repr

/--
A rule of the routes. The policies of the configuration are those of the store.
-/
structure RouteRule where
  destination : Selector
  methods : List RouteMethod
  onFailure : Option FailurePolicy
  deriving DecidableEq

inductive RelayAction where
  | allow (onFailure : Option FailurePolicy)
  | deny
  deriving DecidableEq, Repr

structure RelayRule where
  action : RelayAction
  fromPeer : Selector
  origin : Selector
  destination : Selector
  deriving DecidableEq

structure FailureRule where
  kind : FailureKind
  origin : Selector
  destination : Selector
  policy : FailurePolicy
  deriving DecidableEq

structure Routes where
  localRef : IdentityRef
  routes : List RouteRule
  relay : List RelayRule
  failures : List FailureRule
  failureDefault : FailurePolicy
  deriving DecidableEq

structure AreaLink where
  peer : String
  deliveryClass : String
  deriving DecidableEq, Repr

structure Area where
  fileArea : Bool
  name : String
  receiveFrom : List String
  sendTo : List AreaLink
  deriving DecidableEq, Repr

structure Areas where
  localRef : IdentityRef
  areas : List Area
  deriving DecidableEq

structure Schedule where
  name : String
  origin : IdentityRef
  classes : List String
  nextHops : List Selector
  polls : List String
  startLocal : Bool
  startMinutes : UInt16
  durationMinutes : UInt64
  repeatAfterMinutes : UInt64
  deriving DecidableEq

end Config

structure ConfigurationSet where
  peers : Table String Config.Peer
  routes : List Config.Routes
  areas : List Config.Areas
  schedules : List Config.Schedule := []

/--
The peers in the order of their names.
-/
def ConfigurationSet.peerList (config : ConfigurationSet) : List (String × Config.Peer) :=
  config.peers.toList

end Tith
