import Tith.Lib.Machine
import Tith.Store.Delivery
import Tith.Store.Inbound

/-!
This module contains the store as a machine: the operations that the sessions, the applications and
the delivery workers issue in any order, and what each of them answers.
-/

namespace Tith

inductive Op where
  | accept (value : NewInbound) (duplicateIdentity : Option SignedItemIdentity) (rng : Rng)
  | removeDuplicateIdentity (identity : SignedItemIdentity)
  | refreshExpirations (now : UInt64)
  | claim (application : Application) (claimKey : String) (now duration : UInt64) (rng : Rng)
  | resolve (application : Application) (inboundId token : String) (now : UInt64)
      (resolution : Resolution)
  | renew (application : Application) (inboundId token : String) (now duration : UInt64)
  | commitBatch (identities : List SubmissionIdentity) (build : BatchBuilder) (rng : Rng)
  | cancel (application : Application) (jobId : String) (now : UInt64)
  | retry (application : Application) (jobId : String) (now : UInt64)
  | reroute (application : Application) (jobId : String) (now : UInt64) (delivery : NewDelivery)
  | claimScheduled (now : UInt64) (selects : DeliveryRecord → Bool) (rng : Rng)
  | claimPollSnapshot (nextHop : String) (nextHopKey : Option PublicKey) (kinds : List JobKind)
      (now : UInt64) (rng : Rng)
  | finishDelivery (jobId : String) (index : UInt64) (token : String) (now : UInt64)
      (outcome : DeliveryOutcome)
  | recoverActive (now retryAt : UInt64) (result : String)
  | acknowledgeEvent (application : Application) (eventId : String)

inductive Answer where
  | done
  | accepted (result : AcceptResult)
  | removed (found : Bool)
  | claimed (result : ClaimResult)
  | resolved (state : InboundState)
  | renewed (expires : UInt64)
  | batch (result : BatchCommit)
  | controlled (outcome : ControlOutcome)
  | delivery (claim : Option DeliveryClaim)
  | snapshot (claims : List DeliveryClaim)
  | finished (state : JobState)
  | recovered (count : UInt64)
  deriving DecidableEq

def transact (s : Store) (body : Except StoreError (α × Store)) (answer : α → Answer)
    : Except StoreError Answer × Store :=
  match body with
  | .error e => (.error e, s)
  | .ok (a, s) => (.ok (answer a), s)

theorem transact_cases {α : Type} (s : Store) (body : Except StoreError (α × Store))
    (answer : α → Answer)
    : (∃ e, body = .error e ∧ transact s body answer = (.error e, s)) ∨
        ∃ a s', body = .ok (a, s') ∧ transact s body answer = (.ok (answer a), s') := by
  cases body with
  | error e => exact .inl ⟨e, rfl, rfl⟩
  | ok result => exact .inr ⟨result.1, result.2, rfl, rfl⟩

theorem transact_rel {α : Type} {R : Store → Store → Prop} {s : Store}
    {body : Except StoreError (α × Store)} {answer : α → Answer} (hrefl : R s s)
    (h : ∀ a s', body = .ok (a, s') → R s s')
    : R s (transact s body answer).2 := by
  rcases transact_cases s body answer with ⟨e, _, heq⟩ | ⟨a, s', hbody, heq⟩
  . rw [heq]
    exact hrefl
  . rw [heq]
    exact h a s' hbody

def step (c : Crypto) (s : Store) (op : Op) : Except StoreError Answer × Store :=
  match op with
  | .accept value duplicateIdentity rng =>
    match accept c value duplicateIdentity rng s with
    | .error e => (.error e, s)
    | .ok (result, _, s) => (.ok (.accepted result), s)
  | .removeDuplicateIdentity identity =>
    let (found, s) := removeDuplicateIdentity identity s
    (.ok (.removed found), s)
  | .refreshExpirations now =>
    match refreshExpirations now s with
    | .error e => (.error e, s)
    | .ok s => (.ok .done, s)
  | .claim application claimKey now duration rng =>
    match claim application claimKey now duration rng s with
    | (.error e, s) => (.error e, s)
    | (.ok result, s) => (.ok (.claimed result), s)
  | .resolve application inboundId token now resolution =>
    transact s (resolve application inboundId token now resolution s) .resolved
  | .renew application inboundId token now duration =>
    transact s (renew application inboundId token now duration s) .renewed
  | .commitBatch identities build rng => transact s (commitBatch identities build rng s) .batch
  | .cancel application jobId now => transact s (cancel application jobId now s) .controlled
  | .retry application jobId now => transact s (retry application jobId now s) .controlled
  | .reroute application jobId now delivery =>
    transact s (reroute application jobId now delivery s) .controlled
  | .claimScheduled now selects rng => transact s (claimScheduled now selects rng s) .delivery
  | .claimPollSnapshot nextHop nextHopKey kinds now rng =>
    transact s (claimPollSnapshot nextHop nextHopKey kinds now rng s) .snapshot
  | .finishDelivery jobId index token now outcome =>
    transact s (finishDelivery jobId index token now outcome s) .finished
  | .recoverActive now retryAt result => transact s (recoverActive now retryAt result s) .recovered
  | .acknowledgeEvent application eventId =>
    match acknowledgeEvent application eventId s with
    | .error e => (.error e, s)
    | .ok s => (.ok .done, s)

def storeMachine (c : Crypto) : Machine Store Op (Except StoreError Answer) where
  init := .empty
  step := step c

/--
A store that some sequence of operations reaches from the empty store.
-/
def Reachable (c : Crypto) (s : Store) : Prop := ∃ ops, (storeMachine c).run .empty ops = s

/-!
Small values to run the machine on.
-/

namespace Sample

def crypto : Crypto where
  verifyTlv _ _ _ := .ok true
  hashTlv _ := .ok (Vector.replicate 32 0)
  hashInboundItem _ := .ok (Vector.replicate 32 0)

def application : Application := ⟨"reader", by decide⟩

def draw (n : UInt8) : Vector UInt8 16 := Vector.replicate 16 n

def delivery (nextHop : String) : NewDelivery where
  localIdentity := "fidonet#1:2/3"
  nextHop
  nextHopKey := none
  mode := .passive
  deliveryClass := "normal"
  retryAt := none
  policies := Vector.replicate 2 ⟨.deadLetter, .none⟩

def identity (key : String) : SubmissionIdentity where
  application
  idempotencyKey := key
  digest := Vector.replicate 32 0

def netMail (key : String) (first : NewDelivery) (second : Option NewDelivery) : NewOutboundJob where
  identity := identity key
  kind := .netMail
  target := .destination "fidonet#1:2/4"
  localIdentity := "fidonet#1:2/3"
  item := [64, 0]
  deliveries := first :: second.toList
  deliveries_lt := by
    have : second.toList.length ≤ 1 := by cases second <;> simp
    simp only [List.length_cons]
    omega
  sources := []
  created := 1
  forwardInbound := none
  forwardClaimToken := none

def submit (key : String) (first : NewDelivery) (second : Option NewDelivery) (n : UInt8) : Op :=
  .commitBatch [identity key] (fun _ _ => .ok [netMail key first second]) [draw n]

def newInbound : NewInbound where
  application
  localIdentity := "fidonet#1:2/3"
  peer := "fidonet#1:2/4"
  peerKey := Vector.replicate 32 0
  received := 1
  authentication := .unsigned
  payload := [64, 0]

def receive (n : UInt8) : Op := .accept newInbound none [draw n]

end Sample

end Tith
