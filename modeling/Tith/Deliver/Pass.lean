import Tith.Accept.Spool
import Tith.Deliver.Exchange
import Tith.Store.Delivery

/-!
This module contains the pass of a schedule over the outbound store: it claims groups of copies for one
next hop, sends each group over one connection and records the outcomes, until nothing is left.
-/

namespace Tith

structure PassSummary where
  connections : Nat := 0
  delivered : Nat := 0
  retained : Nat := 0
  failed : Nat := 0
  deriving DecidableEq

def PassSummary.record (summary : PassSummary) (outcome : DeliveryOutcome) : PassSummary :=
  match outcome with
  | .delivered _ => { summary with delivered := summary.delivered + 1 }
  | .deferred _ _ => { summary with retained := summary.retained + 1 }
  | .rejected _ _ | .failed _ => { summary with failed := summary.failed + 1 }

def maxGroup : Nat := 256

/--
The circumstances of one turn of the pass. What the schedule selects depends on the keys that resolve,
which a connection may change. What the peer returns over the connection is dispatched like any arrival.
-/
structure Turn (c : Crypto) where
  selects : DeliveryRecord → Bool
  resolver : KeyResolver
  network : Network
  draws : Nat → Rng
  returned : List (Accept.Arrival c)

def nextHop (resolver : KeyResolver) (copy : DeliveryRecord) : Option Identity := do
  let address ← (Address.fromStr copy.nextHop).toOption
  let publicKey ← if address.isAnonymous then copy.nextHopKey else resolver address
  some { address, publicKey }

/--
The copies that were claimed for one connection. What was claimed before an error stays claimed.
-/
structure ClaimedGroup where
  claims : List DeliveryClaim
  error : Option StoreError
  store : Store

def claimRest (now : UInt64) (selects : DeliveryRecord → Bool) (draws : Nat → Rng) (room : Nat)
    (s : Store)
    : ClaimedGroup :=
  match room with
  | 0 => ⟨[], none, s⟩
  | room + 1 =>
    match claimScheduled now selects (draws room) s with
    | .error error => ⟨[], some error, s⟩
    | .ok (none, s) => ⟨[], none, s⟩
    | .ok (some claim, s) =>
      let rest := claimRest now selects draws room s
      { rest with claims := claim :: rest.claims }

def claimGroup {c : Crypto} (turn : Turn c) (now : UInt64) (s : Store) : ClaimedGroup :=
  match claimScheduled now turn.selects (turn.draws maxGroup) s with
  | .error error => ⟨[], some error, s⟩
  | .ok (none, s) => ⟨[], none, s⟩
  | .ok (some first, s) =>
    let compatible := fun (copy : DeliveryRecord) =>
      copy.localIdentity = first.delivery.localIdentity && copy.nextHop = first.delivery.nextHop &&
        copy.nextHopKey = first.delivery.nextHopKey && turn.selects copy
    let rest := claimRest now compatible turn.draws (maxGroup - 1) s
    { rest with claims := first :: rest.claims }

section Pass

variable (c : Crypto) (base64 : Nodelist.Base64) (sign : SignTlv) (describe : DeliveryError → String)

def exchange (sender : LocalIdentity) (turn : Turn c) (group : List DeliveryClaim)
    (now nextAttempt : UInt64)
    : Except DeliveryError (List DeliveryOutcome) := do
  let destination ← (group.head?.bind fun first => nextHop turn.resolver first.delivery).okOr
    (.message "next hop has no resolvable public key")
  let (outcomes, _) ←
    exchangeTo c sign sender turn.network turn.resolver destination group false now nextAttempt
  .ok outcomes

-- A connection that never completed leaves every copy eligible.
def groupOutcomes (sender : LocalIdentity) (turn : Turn c) (group : List DeliveryClaim)
    (now nextAttempt : UInt64)
    : List DeliveryOutcome :=
  match exchange c sign sender turn group now nextAttempt with
  | .ok outcomes => outcomes
  | .error error =>
    group.map fun _ => .deferred nextAttempt ("delivery attempt failed: " ++ describe error)

def isFileRequest (item : List UInt8) : Bool :=
  (singleValue item).toOption.any fun value => value.typeCode = Types.fileRequest

def requiresReturnBundle (group : List DeliveryClaim) : Bool := group.any fun claim => isFileRequest claim.item

-- The values up to the first one that cannot be answered.
def dispatchReturned (returned : List (Accept.Arrival c)) (s : Store) : Store :=
  match returned with
  | [] => s
  | arrival :: returned =>
    match arrival.dispatch base64 s with
    | (.error _, s) => s
    | (.ok _, s) => dispatchReturned returned s

/--
A connection without a FileRequest is not open for values from the peer.
-/
def receiveReturned (turn : Turn c) (group : List DeliveryClaim) (s : Store) : Store :=
  if requiresReturnBundle group then dispatchReturned c base64 turn.returned s else s

def finishGroup (now : UInt64) (finished : List (DeliveryClaim × DeliveryOutcome))
    (summary : PassSummary) (s : Store)
    : Except StoreError PassSummary × Store :=
  match finished with
  | [] => (.ok summary, s)
  | (claim, outcome) :: finished =>
    let summary := summary.record outcome
    match finishDelivery claim.jobId claim.deliveryIndex claim.workerToken now outcome s with
    | .error error => (.error error, s)
    | .ok (_, s) => finishGroup now finished summary s

/--
A pass with everything that it has claimed. It has not ended if the turns did not suffice.
-/
structure PassRun where
  claimed : List DeliveryClaim
  ended : Option (Except StoreError PassSummary)
  store : Store

def passLoop (sender : LocalIdentity) (turns : Nat → Turn c) (now nextAttempt : UInt64) (limit turn : Nat)
    (summary : PassSummary) (s : Store)
    : PassRun :=
  match limit with
  | 0 => ⟨[], none, s⟩
  | limit + 1 =>
    let group := claimGroup (turns turn) now s
    match group.error, group.claims with
    | some error, claims => ⟨claims, some (.error error), group.store⟩
    | none, [] => ⟨[], some (.ok summary), group.store⟩
    | none, claims =>
      let outcomes := groupOutcomes c sign describe sender (turns turn) claims now nextAttempt
      let summary := { summary with connections := summary.connections + 1 }
      let s := receiveReturned c base64 (turns turn) claims group.store
      match finishGroup now (claims.zip outcomes) summary s with
      | (.error error, s) => ⟨claims, some (.error error), s⟩
      | (.ok summary, s) =>
        let rest := passLoop sender turns now nextAttempt limit (turn + 1) summary s
        { rest with claimed := claims ++ rest.claimed }

/--
At most `limit` turns of the pass of a schedule. Without its local identity there is nothing to do.
-/
def runPass (sender : Option LocalIdentity) (turns : Nat → Turn c) (now nextAttempt : UInt64)
    (limit : Nat) (s : Store)
    : PassRun :=
  match sender with
  | none => ⟨[], some (.ok {}), s⟩
  | some sender => passLoop c base64 sign describe sender turns now nextAttempt limit 0 {} s

end Pass

end Tith
