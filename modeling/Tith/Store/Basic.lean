import Tith.Lib.Bytes
import Tith.Lib.Except
import Tith.Lib.Table
import Tith.Wire.Identity

/-!
This module contains the durable records of the daemon and the tables that hold them. The tables
hold the records themselves, the byte codecs of the records are not part of this module.
-/

namespace Tith

/--
The name of an application. It stands in front of another text in the keys of two tables, so its
length matters: as a Rust `str` it has fewer bytes than a 64 bit word can count.
-/
structure Application where
  name : String
  size_lt : name.utf8ByteSize < 2 ^ 64
  deriving DecidableEq

inductive StoredKind where
  | message
  | file
  | fileRequest
  deriving DecidableEq, Repr

inductive InboundState where
  | available
  | claimed
  | deferred
  | consumed
  | rejected
  | failed
  deriving DecidableEq, Repr

structure NewInbound where
  application : Application
  localIdentity : String
  peer : String
  peerKey : PublicKey
  received : UInt64
  authentication : ItemAuthentication
  payload : List UInt8

structure InboundRecord where
  inboundId : String
  application : Application
  localIdentity : String
  peer : String
  peerKey : PublicKey
  received : UInt64
  changed : UInt64
  kind : StoredKind
  authentication : ItemAuthentication
  payloadSize : UInt64
  payloadHash : TlvHash
  state : InboundState
  attempts : UInt64
  eligibleAt : UInt64
  claimKey : Option String
  claimToken : Option String
  claimExpires : Option UInt64
  lastResult : Option String
  forwardJob : Option String
  deriving DecidableEq

structure Claim where
  inboundId : String
  claimToken : String
  expires : UInt64
  record : InboundRecord
  deriving DecidableEq

inductive ClaimResult where
  | completed (claim : Claim)
  | empty
  | resolved (inboundId : String) (state : InboundState)
  deriving DecidableEq

inductive AcceptResult where
  | stored (record : InboundRecord)
  | duplicate (inboundId : String)
  deriving DecidableEq

inductive Resolution where
  | acknowledge
  | release
  | defer (retryAfter : UInt64) (description : String)
  | reject (description : String)
  deriving DecidableEq

/--
What a claim key is bound to. The outcome is recorded once the claim is over.
-/
structure ClaimMapping where
  inboundId : String
  token : String
  outcome : Option InboundState
  deriving DecidableEq

/--
What became of a claim token. A claim that merely expired is not completed.
-/
structure TokenResolution where
  inboundId : String
  state : InboundState
  completed : Bool
  deriving DecidableEq

inductive JobKind where
  | netMail
  | echoMail
  | file
  | peerFile
  | fileRequest
  deriving DecidableEq, Repr

namespace JobKind

def isDirect (kind : JobKind) : Bool := kind = .peerFile ∨ kind = .fileRequest

def hasDestination (kind : JobKind) : Bool :=
  kind = .netMail ∨ kind = .peerFile ∨ kind = .fileRequest

end JobKind

inductive JobTarget where
  | destination (text : String)
  | area (text : String)
  deriving DecidableEq, Repr

inductive JobState where
  | queued
  | active
  | deferred
  | delivered
  | rejected
  | failed
  | cancelled
  deriving DecidableEq, Repr

inductive DeliveryMode where
  | active
  | passive
  deriving DecidableEq, Repr

inductive FailureDisposition where
  | deadLetter
  | discard
  deriving DecidableEq, Repr

inductive FailureNotification where
  | none
  | sender
  | originSysop
  | both
  deriving DecidableEq, Repr

structure FailurePolicy where
  disposition : FailureDisposition
  notification : FailureNotification
  deriving DecidableEq, Repr

inductive PermanentFailureKind where
  | relayDenied
  | rejected
  deriving DecidableEq, Repr

structure NewDelivery where
  localIdentity : String
  nextHop : String
  nextHopKey : Option PublicKey
  mode : DeliveryMode
  deliveryClass : String
  retryAt : Option UInt64
  policies : Vector FailurePolicy 2
  deriving DecidableEq

structure DeliveryRecord where
  index : UInt64
  localIdentity : String
  nextHop : String
  nextHopKey : Option PublicKey
  mode : DeliveryMode
  deliveryClass : String
  retryAt : Option UInt64
  policies : Vector FailurePolicy 2
  state : JobState
  attempts : UInt64
  lastResult : String
  lastFailure : Option PermanentFailureKind
  workerToken : Option String
  deriving DecidableEq

inductive SourceKind where
  | attachment
  | file
  deriving DecidableEq, Repr

inductive SourceDisposition where
  | keep
  | delete
  | truncate
  deriving DecidableEq, Repr

inductive CleanupState where
  | notRequested
  | pending
  | complete
  | notFound
  | replaced
  | failed
  deriving DecidableEq, Repr

structure SourceRecord where
  index : UInt64
  kind : SourceKind
  wireFilename : String
  path : Option String
  disposition : SourceDisposition
  cleanup : CleanupState
  fileIdentity : List UInt8
  deriving DecidableEq

structure SubmissionIdentity where
  application : Application
  idempotencyKey : String
  digest : TlvHash
  deriving DecidableEq

/--
A job as it is submitted. Its copies are a Rust `Vec`, so a 64 bit word can count them.
-/
structure NewOutboundJob where
  identity : SubmissionIdentity
  kind : JobKind
  target : JobTarget
  localIdentity : String
  item : List UInt8
  deliveries : List NewDelivery
  deliveries_lt : deliveries.length < 2 ^ 64
  sources : List SourceRecord
  created : UInt64
  forwardInbound : Option String
  forwardClaimToken : Option String
  deriving DecidableEq

structure OutboundJob where
  jobId : String
  application : Application
  idempotencyKey : String
  digest : TlvHash
  kind : JobKind
  target : JobTarget
  localIdentity : String
  state : JobState
  created : UInt64
  changed : UInt64
  deliveries : List DeliveryRecord
  sources : List SourceRecord
  forwardInbound : Option String
  lastResult : String
  deriving DecidableEq

inductive SubmissionClass where
  | new (jobId : String)
  | existing (jobId : String) (state : JobState)
  | conflict
  deriving DecidableEq

inductive CommitOutcome where
  | new (jobId : String) (state : JobState)
  | existing (jobId : String) (state : JobState)
  deriving DecidableEq

inductive BatchCommit where
  | committed (outcomes : List CommitOutcome)
  | conflict (positions : List Nat)
  deriving DecidableEq

structure DeliveryClaim where
  jobId : String
  deliveryIndex : UInt64
  workerToken : String
  item : List UInt8
  delivery : DeliveryRecord
  deriving DecidableEq

inductive DeliveryOutcome where
  | delivered (result : String)
  | deferred (retryAt : UInt64) (result : String)
  | rejected (kind : PermanentFailureKind) (result : String)
  | failed (result : String)
  deriving DecidableEq

structure OutboundEvent where
  eventId : String
  jobId : String
  previous : Option JobState
  current : JobState
  changed : UInt64
  lastResult : String
  deriving DecidableEq

/--
An event as it is stored: with the application that owns it and whether that has acknowledged it.
-/
structure EventEntry where
  application : Application
  acknowledged : Bool
  event : OutboundEvent
  deriving DecidableEq

/--
The job a submission key is bound to, and the digest of the request that bound it.
-/
structure SubmissionEntry where
  jobId : String
  digest : TlvHash
  deriving DecidableEq

inductive ControlOutcome where
  | completed (state : JobState)
  | busy (state : JobState)
  | notPermitted (state : JobState)
  deriving DecidableEq, Repr

structure ForwardInbound where
  record : InboundRecord
  payload : List UInt8
  deriving DecidableEq

inductive JobBuildFailure where
  | invalid
  | permanent
  | temporary
  deriving DecidableEq, Repr

/--
The errors of the store itself. A failure of the database aborts the transaction like any of these.
-/
inductive StoreError where
  | crypto (error : CryptoError)
  | invalidPayload
  | corruptRecord
  | notFound
  | stale (state : InboundState)
  | jobStale (state : JobState)
  | jobBuild (position : Nat) (kind : JobBuildFailure) (description : String)
  deriving DecidableEq, Repr

structure Store where
  records : Table String InboundRecord
  payloads : Table String (List UInt8)
  duplicates : Table (List UInt8) String
  claimKeys : Table (List UInt8) ClaimMapping
  resolvedTokens : Table String TokenResolution
  jobs : Table String OutboundJob
  items : Table String (List UInt8)
  submissions : Table (List UInt8) SubmissionEntry
  events : Table String EventEntry

def Store.empty : Store where
  records := ∅
  payloads := ∅
  duplicates := ∅
  claimKeys := ∅
  resolvedTokens := ∅
  jobs := ∅
  items := ∅
  submissions := ∅
  events := ∅

/--
The draws of the random source. A source that has run dry answers with an error, which aborts the
transaction.
-/
abbrev Rng := List (Vector UInt8 16)

def hexDigits (byte : UInt8) : List Char :=
  [Nat.digitChar (byte.toNat / 16), Nat.digitChar (byte.toNat % 16)]

def identifierOf (kind : Char) (bytes : Vector UInt8 16) : String :=
  String.ofList (kind :: bytes.toList.flatMap hexDigits)

def randomIdentifier (kind : Char) (rng : Rng) : Except StoreError (String × Rng) :=
  match rng with
  | [] => .error (.crypto .initialization)
  | bytes :: rng => .ok (identifierOf kind bytes, rng)

/--
The loop that draws identifiers until it has one that is not taken.
-/
def freshIdentifier (kind : Char) (taken : String → Bool) (rng : Rng)
    : Except StoreError (String × Rng) :=
  match rng with
  | [] => .error (.crypto .initialization)
  | bytes :: rng =>
    if taken (identifierOf kind bytes) then
      freshIdentifier kind taken rng
    else
      .ok (identifierOf kind bytes, rng)

def claimMappingKey (application : Application) (key : String) : List UInt8 :=
  Bytes.withLength (Bytes.ofString application.name) ++ Bytes.ofString key

def submissionKey (application : Application) (key : String) : List UInt8 :=
  Bytes.withLength (Bytes.ofString application.name) ++ Bytes.ofString key

end Tith
