import Tith.Adapter.Inbound

/-!
This module contains the adapter over whole runs: it handles claims and recovers, it may be stopped
between any two operations, and the tosser and others work in the same directory.
-/

namespace Tith

namespace Adapter

/--
What the mailer keeps under an InboundID. Every claim of it is a claim of the same item.
-/
structure Delivery where
  payloadHash : Vector UInt8 32
  peer : Address
  peerKey : PublicKey
  authentication : ItemAuthentication
  payload : List UInt8

def Delivery.claimed (delivery : Delivery) (inboundId claimToken : String) : Claimed where
  inboundId
  payloadHash := delivery.payloadHash
  claimToken
  peer := delivery.peer
  peerKey := delivery.peerKey
  authentication := delivery.authentication

inductive Task where
  | recover
  | handle (inboundId claimToken : String)

/--
What others do in the directory: the tosser takes a file, or someone puts one under a free name.
-/
inductive Move where
  | consume (name : String)
  | put (name : String) (contents : List UInt8)

/--
A site: its configuration, its conversions and what the mailer has for it.
-/
structure Site where
  configuration : Configuration
  conversion : Conversion
  queue : String → Delivery

def Surface.settled (s : Surface) (inboundId : String) : Bool :=
  match s.records[inboundId]? with
  | none => false
  | some record => record.state ≠ .staged

namespace Site

variable (site : Site)

def claimed (inboundId claimToken : String) : Claimed := (site.queue inboundId).claimed inboundId claimToken

def tasks : Program.Tasks Surface Op Op.Reply Task Move where
  program task :=
    match task with
    | .recover => recover
    | .handle inboundId claimToken =>
      handleClaim site.configuration site.conversion (site.claimed inboundId claimToken)
        (site.queue inboundId).payload
  begin task s :=
    match task with
    | .recover => { s with attempt := none, exposed := [] }
    | .handle inboundId _ => { s with attempt := some inboundId, exposed := [] }
  finish s := { s with attempt := none, exposed := [] }
  moved move s :=
    match move with
    | .consume name => s.consume name
    | .put name contents => s.put name contents

end Site

/--
The legacy side of an item: the names of its companions and whether a TIC goes with them.
-/
structure Companions where
  filenames : List String
  tic : Bool

def companions (resolver : KeyResolver) (payload : List UInt8) : Companions :=
  match parseSequence payload with
  | .ok [item] =>
    if item.typeCode = Types.message then
      match readMessage item resolver with
      | .ok read => ⟨read.data.attachments.filterMap (·.filename), false⟩
      | .error _ => ⟨[], false⟩
    else
      match readStandaloneFile item with
      | .ok read => ⟨read.data.filename.toList, read.data.area.isSome⟩
      | .error _ => ⟨[], false⟩
  | _ => ⟨[], false⟩

def isKept (filename : String) : Bool := isSafeEightThree (filename.toList.map Char.toLower)

/--
The names that every plan of an item chooses, because the filename is one already.
-/
def Companions.keptNames (c : Companions) : List String :=
  let kept := (c.filenames.filter isKept).map fun filename => transferName filename 0
  if c.tic then kept ++ kept.map ticName else kept

/--
No two names of one plan are always the same.
-/
def Companions.Distinct (c : Companions) : Prop :=
  c.keptNames.Nodup ∧
  (c.tic = true → ∀ filename ∈ c.filenames, transferName filename 0 ≠ ticName (transferName filename 0))

def Site.keptNames (site : Site) (inboundId : String) : List String :=
  (companions site.configuration.resolver (site.queue inboundId).payload).keptNames

/--
An interruption at this point leaves nothing behind that matters: the ledger has the item as published,
or what the tosser can see of this attempt are companions under names that no later plan chooses again.
-/
def Harmless (site : Site) (s : Surface) : Prop :=
  match s.attempt with
  | none => True
  | some id =>
    s.settled id = true ∨
      ∀ object ∈ s.exposed, object.kind = .companion ∧ object.name ∉ site.keptNames id

/--
A reply that ends the attempt: an error, or a name that is taken.
-/
def Op.interrupts (op : Op) : op.Reply → Bool :=
  match op with
  | .createStaging _ => fun reply => match reply with
    | .failed _ => true
    | _ => false
  | .hardLink _ => fun reply => reply = .alreadyExists
  | .createFinal _ => fun reply => match reply with
    | .created _ => false
    | _ => true
  | .removeStaging _ => fun reply => reply ≠ .removed
  | .clock => fun _ => false
  | .readStaging _ | .readFinal _ => fun reply => !reply.isOk
  | .listStaging => fun reply => !reply.isOk
  | .getRecord _ => fun reply => !reply.isOk
  | .getOrphan _ => fun reply => !reply.isOk
  | .stageOrphan .. | .markOrphanNoticePublished _ | .advance .. | .recordForward .. => fun reply => !reply.isOk
  | .nextIdentity => fun reply => !reply.isOk
  | .readPayload => fun reply => !reply.isOk
  | .forward => fun reply => !reply.isOk
  | .serveRequest => fun reply => !reply.isOk
  | .writeStaging .. | .syncStaging _ | .writeFinal .. | .syncFinal _ | .syncDirectory | .stage _ | .acknowledge
  | .defer _ | .reject _ | .release => fun reply => !reply.isOk

/--
The world of the adapter, as far as its interruptions are harmless.
-/
def Site.world (site : Site) : Program.World Surface Op Op.Reply Surroundings where
  act := Surface.act
  moves s s' := ∃ move, s' = site.tasks.moved move s
  allowed s op around := op.interrupts (s.act op around).1 = true → Harmless site s
  mayStop := Harmless site

def Site.machine (site : Site)
    : Machine (Program.Process Surface Op Op.Reply) (Program.Turn Task Surroundings Move) Unit :=
  Program.machine site.world site.tasks .empty

def Kind.isMain (kind : Kind) : Bool :=
  match kind with
  | .packet _ | .tic _ => true
  | _ => false

def Kind.companions (kind : Kind) : List String :=
  match kind with
  | .packet names => names
  | .tic name => [name]
  | _ => []

def shownOf (inboundId : String) (events : List Event) : List Publication :=
  events.filterMap fun event =>
    match event with
    | .shown id object _ => if id = inboundId then some object else none
    | .complete _ _ => none

/--
The packet or TIC of an item has become visible at most once, and its notice too.
-/
def Once (inboundId : String) (events : List Event) : Prop :=
  (shownOf inboundId events).countP (·.kind.isMain) ≤ 1 ∧ (shownOf inboundId events).countP (·.kind = .notice) ≤ 1

/--
Whatever became visible, its companions had been published before.
-/
def Ordered (events : List Event) : Prop :=
  match events with
  | [] => True
  | .shown id object _ :: past => (∀ name ∈ object.kind.companions, .complete id name ∈ past) ∧ Ordered past
  | .complete _ _ :: past => Ordered past

/--
What the plan of an item comes to when nothing fails.
-/
def Site.planned (site : Site) (s : Surface) (around : Surroundings) (inboundId : String)
    : Except InboundError (Option Outcome) :=
  ((plan site.configuration site.conversion (site.claimed inboundId "")
    (site.queue inboundId).payload).run.evaluate Surface.act around s).1

/--
One of the names is used twice, or is the one of a file that the item itself has in the directory.
-/
def Clashes (s : Surface) (inboundId : String) (names : List String) : Prop :=
  ¬names.Nodup ∨ ∃ name ∈ names, ∃ file, s.files[name]? = some file ∧ file.owner = some inboundId

/--
Whatever identities the ledger hands out, the next attempt chooses a name that the item's own publication
has in use.
-/
def Site.Blocked (site : Site) (s : Surface) (inboundId : String) : Prop :=
  ∀ identity around, s.identity ≤ identity → around.failure = none →
    ∃ objects note distribution forwardable,
      site.planned { s with identity } around inboundId =
        .ok (some (.publish objects note distribution forwardable)) ∧
      Clashes s inboundId (objects.map (·.name))

end Adapter

end Tith
