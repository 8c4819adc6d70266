import Tith.Config.Parse
import Tith.Lib.DepthFirst

/-!
This module contains the checks between the files of a configuration: the names of peers that are used and
the relations between the peers.
-/

namespace Tith

namespace Config

/--
How a configuration is refused. The failures other than those of the syntax are reported at line 0.
-/
inductive ConfigFailure where
  | syntaxError (failure : SyntaxFailure)
  | undefinedPeer (file name : String)
  | relationshipCycle
  | areasWithoutRoutes
  | scheduleWithoutRoutes
  | panic
  deriving DecidableEq, Repr

structure ConfigError where
  file : String
  line : Nat
  message : String
  deriving DecidableEq, Repr

/--
The error of a failure. A panic has none.
-/
def ConfigFailure.report (failure : ConfigFailure) : Option ConfigError :=
  match failure with
  | .syntaxError (.error file line message) => some ⟨file, line, message⟩
  | .syntaxError .panic => none
  | .undefinedPeer file name => some ⟨file, 0, "undefined peer @" ++ name⟩
  | .relationshipCycle => some ⟨"peers", 0, "peer relationship cycle"⟩
  | .areasWithoutRoutes => some ⟨"areas", 0, "Areas identity has no Routes block"⟩
  | .scheduleWithoutRoutes => some ⟨"schedules", 0, "Schedule origin has no Routes block"⟩
  | .panic => none

/--
The boss and the hub of a peer.
-/
def Peer.relatives (peer : Peer) : List String := peer.boss.toList ++ peer.hub.toList

def relativesOf (peers : Table String Peer) (name : String) : Option (List String) :=
  peers[name]?.map Peer.relatives

/--
The visits of `visit_peer` from all peers. An index that has no peer panics, and so does a stack without
an end.
-/
def visitPeers (peers : Table String Peer) : Except ConfigFailure Unit :=
  match DepthFirst.visitAll (relativesOf peers) peers.keys.length peers.keys with
  | .ok _ => .ok ()
  | .error .cycle => .error .relationshipCycle
  | .error _ => .error .panic

def checkPeer (peers : Table String Peer) (file name : String) : Except ConfigFailure Unit :=
  if peers[name]?.isSome then .ok () else .error (.undefinedPeer file name)

def checkPeers (peers : Table String Peer) (file : String) (names : List String)
    : Except ConfigFailure Unit :=
  names.forM (checkPeer peers file)

def parsePeers (base64 : Nodelist.Base64) (input : String)
    : Except ConfigFailure (Table String Peer) := do
  let peers ← (peerBlocks base64 input).mapError .syntaxError
  peers.toList.forM (fun (_, peer) => checkPeers peers "peers" peer.relatives)
  visitPeers peers
  .ok peers

def selectorPeers (selector : Selector) : List String :=
  match selector with
  | .peer name => [name]
  | _ => []

def IdentityRef.peers (reference : IdentityRef) : List String :=
  match reference with
  | .peer name => [name]
  | .address _ => []

def viaPeers (methods : List RouteMethod) : List String :=
  methods.filterMap (fun method =>
    match method with
    | .via name => some name
    | _ => none)

def RouteRule.peers (rule : RouteRule) : List String := selectorPeers rule.destination ++ viaPeers rule.methods

def RelayRule.peers (rule : RelayRule) : List String :=
  selectorPeers rule.fromPeer ++ selectorPeers rule.origin ++ selectorPeers rule.destination

def Area.peers (area : Area) : List String := area.receiveFrom ++ area.sendTo.map AreaLink.peer

def Schedule.peers (schedule : Schedule) : List String :=
  schedule.polls ++ schedule.nextHops.flatMap selectorPeers

/--
The checks of one block of routes. The failure rules are not among them.
-/
def checkRoutes (peers : Table String Peer) (routes : Routes) : Except ConfigFailure Unit := do
  checkPeers peers "routes" routes.localRef.peers
  routes.routes.forM (fun rule => checkPeers peers "routes" rule.peers)
  routes.relay.forM (fun rule => checkPeers peers "routes" rule.peers)

def checkAreas (peers : Table String Peer) (routeLocals : List IdentityRef) (group : Areas)
    : Except ConfigFailure Unit := do
  checkPeers peers "areas" group.localRef.peers
  if routeLocals.contains group.localRef then
    group.areas.forM (fun area => checkPeers peers "areas" area.peers)
  else
    .error .areasWithoutRoutes

def checkSchedule (peers : Table String Peer) (routeLocals : List IdentityRef) (schedule : Schedule)
    : Except ConfigFailure Unit := do
  checkPeers peers "schedules" schedule.origin.peers
  if routeLocals.contains schedule.origin then
    checkPeers peers "schedules" schedule.peers
  else
    .error .scheduleWithoutRoutes

end Config

open Config

/--
The texts of the four files.
-/
structure ConfigurationTexts where
  peers : String
  routes : String
  areas : String
  schedules : String

def ConfigurationSet.parse (base64 : Nodelist.Base64) (texts : ConfigurationTexts)
    : Except ConfigFailure ConfigurationSet := do
  let peers ← parsePeers base64 texts.peers
  let routes ← (parseRoutes texts.routes).mapError .syntaxError
  let areas ← (parseAreas texts.areas).mapError .syntaxError
  let schedules ← (parseSchedules texts.schedules).mapError .syntaxError
  let routeLocals := routes.map Routes.localRef
  routes.forM (checkRoutes peers)
  areas.forM (checkAreas peers routeLocals)
  schedules.forM (checkSchedule peers routeLocals)
  .ok ⟨peers, routes, areas, schedules⟩

end Tith
