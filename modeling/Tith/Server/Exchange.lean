import Tith.Deliver.Exchange
import Tith.Store.Machine

/-!
This module contains one connection on the side of the server: the bundles of a client are answered, the
copies that it polls for are returned, and its responses settle them.
-/

namespace Tith

inductive ServerError where
  | delivery (error : DeliveryError)
  | store (error : StoreError)
  | connection (text : String)
  deriving DecidableEq

def ServerError.bundle (error : BundleError) : ServerError := .delivery (.bundle error)

def ServerError.exchange (error : ExchangeError) : ServerError := .delivery (.exchange error)

def ServerError.message (text : String) : ServerError := .delivery (.message text)

structure IncomingBundle where
  bundle : Bundle
  headerHash : TlvHash
  headerBytes : List UInt8

/--
A delivery copy that was returned in a poll snapshot, awaiting its response.
-/
structure PollHold where
  signedTlvHash : TlvHash
  requestIdentifier : UInt64
  relayed : Bool
  claim : DeliveryClaim

/--
The calls with which a connection claims and finishes copies: the store at that time, and whether the
database has failed. A poll comes with the last identifier that its payload has already used.
-/
inductive StoreCall where
  | poll (store : Store) (origin : Identity) (kinds : List JobKind) (identifier : UInt64)
      (claims : List DeliveryClaim)
  | finish (store : Store) (claim : DeliveryClaim) (outage : Option StoreError)

/--
What is still to be read, what has been written, and the copies that await their response.
-/
structure Connection where
  reads : List (Except ServerError OwnedTlv)
  sent : List (List UInt8)
  store : Store
  holds : List PollHold
  calls : List StoreCall

/--
What the acceptance of a request does to the store.
-/
inductive AcceptanceOp where
  | accept (value : NewInbound) (duplicateIdentity : Option SignedItemIdentity) (rng : Rng)
  | commitBatch (identities : List SubmissionIdentity) (build : BatchBuilder) (rng : Rng)

def AcceptanceOp.op (op : AcceptanceOp) : Op :=
  match op with
  | .accept value duplicateIdentity rng => .accept value duplicateIdentity rng
  | .commitBatch identities build rng => .commitBatch identities build rng

/--
The server with its surroundings: the clock, the random numbers and the failures of the database at
every call of the store, and whether the client takes what is written next.
-/
structure Mailer where
  resolver : KeyResolver
  localIdentity : Identity
  localSecret : SecretKey
  retiredSecrets : List SecretKey
  publicKey : SecretKey → PublicKey
  dispatch : ValidatedItem → TlvHash → Identity → Store →
    Except ServerError OwnedTlv × List AcceptanceOp
  now : Nat → UInt64
  draws : Nat → Rng
  outage : Nat → Option StoreError
  takes : List (List UInt8) → Bool

/--
A failure without an error means that the turns of a loop did not suffice.
-/
abbrev ServerM := ExceptT (Option ServerError) (StateM Connection)

namespace ServerM

def fail {α : Type} (error : ServerError) : ServerM α := throw (some error)

def ofExcept {α : Type} (result : Except ServerError α) : ServerM α :=
  match result with
  | .ok value => pure value
  | .error error => fail error

def attempt {α : Type} (part : ServerM α) : ServerM (Except (Option ServerError) α) :=
  ExceptT.lift part.run

end ServerM

section Connection

variable (mailer : Mailer)

def readNext : ServerM (Option OwnedTlv) := do
  let connection ← get
  match connection.reads with
  | [] => pure none
  | read :: reads =>
    modify fun connection => { connection with reads }
    let value ← ServerM.ofExcept read
    pure (some value)

-- A value that has already been read comes first.
def nextValue (first : Option OwnedTlv) : ServerM (Option OwnedTlv) :=
  match first with
  | some value => pure (some value)
  | none => readNext

def write (bytes : List UInt8) : ServerM Unit := do
  let connection ← get
  if mailer.takes connection.sent then
    modify fun connection => { connection with sent := connection.sent ++ [bytes] }
  else
    ServerM.fail (.connection "write failed")

def shutdown : ServerM Unit := do
  let connection ← get
  if mailer.takes connection.sent then
    pure ()
  else
    ServerM.fail (.connection "shutdown failed")

-- The clock is read again at every call of the store.
def currentTime : ServerM UInt64 := do
  let connection ← get
  pure (mailer.now connection.calls.length)

def finishClaim (claim : DeliveryClaim) (outcome : DeliveryOutcome) : ServerM Unit := do
  let connection ← get
  let call := connection.calls.length
  modify fun connection => { connection with
    calls := connection.calls ++ [.finish connection.store claim (mailer.outage call)] }
  match mailer.outage call with
  | some error => ServerM.fail (.store error)
  | none =>
    match finishDelivery claim.jobId claim.deliveryIndex claim.workerToken (mailer.now call) outcome
      connection.store with
    | .error error => ServerM.fail (.store error)
    | .ok (_, store) => modify fun connection => { connection with store }

-- An anonymous origin is only identified together with its key.
def snapshotAt (call : Nat) (kinds : List JobKind) (origin : Identity) (s : Store)
    : Except StoreError (List DeliveryClaim × Store) :=
  match mailer.outage call with
  | some error => .error error
  | none =>
    claimPollSnapshot origin.address.display origin.embeddedKey kinds (mailer.now call)
      (mailer.draws call) s

/--
Atomically claims everything that is held for the authenticated origin of a bundle.
-/
def pollSnapshot (kinds : List JobKind) (origin : Identity) (identifier : UInt64)
    : ServerM (List DeliveryClaim) := do
  let connection ← get
  match snapshotAt mailer connection.calls.length kinds origin connection.store with
  | .error error =>
    modify fun connection => { connection with
      calls := connection.calls ++ [.poll connection.store origin kinds identifier []] }
    ServerM.fail (.store error)
  | .ok (claims, store) =>
    modify fun connection => { connection with
      store
      calls := connection.calls ++ [.poll connection.store origin kinds identifier claims] }
    pure claims

end Connection

section Exchange

variable (c : Crypto) (sign : SignTlv) (mailer : Mailer)

def readHeaderRest (turns : Nat) (headerBytes : List UInt8) : ServerM IncomingBundle := do
  match turns with
  | 0 => throw none
  | turns + 1 =>
    let value ← readNext
    let value ← ServerM.ofExcept
      (value.okOr (.message "connection ended before the Header SignedTLV"))
    let headerBytes := headerBytes ++ value.encode
    if value.typeCode = Types.signedTlv then
      let bundle ← ServerM.ofExcept
        ((Bundle.parseHeaderPrefix c headerBytes mailer.resolver).mapError .bundle)
      let headerHash ← ServerM.ofExcept
        ((c.hashTlv bundle.header.encoded).mapError fun error => .bundle (.crypto error))
      pure { bundle, headerHash, headerBytes }
    else
      readHeaderRest turns headerBytes

def readHeader (turns : Nat) (first : Option OwnedTlv) : ServerM (Option IncomingBundle) := do
  let first ← nextValue first
  match first with
  | none => pure none
  | some first =>
    if first.typeCode ≠ Types.origin then
      ServerM.fail (.message "Bundle does not begin with Origin")
    else
      let incoming ← readHeaderRest c mailer turns first.encode
      pure (some incoming)

structure ServerReply where
  replyBytes : List UInt8
  headerHash : TlvHash

def ServerReply.forRequest (request : Bundle) (timestamp : UInt64)
    : Except ExchangeError ServerReply := do
  if request.destination ≠ mailer.localIdentity then
    .error .wrongDestination
  else
    let replyBytes ← (buildBundle c sign mailer.localIdentity mailer.localSecret request.origin timestamp
      []).mapError .bundle
    let top ← (parseSequence replyBytes).mapError fun error => .bundle (.framing error)
    let header ← (top.find? (·.typeCode = Types.signedTlv)).okOr
      (.bundle (.missing "Reply Header SignedTLV"))
    let headerHash ← (c.hashTlv header.encode).mapError .crypto
    .ok { replyBytes, headerHash }

def ServerReply.payload (reply : ServerReply) (responses : List OwnedTlv)
    : Except ExchangeError (List UInt8) := do
  let hashTlv ← (assigned Types.tlvHash reply.headerHash.toList).mapError .bundle
  let value ← (buildSignedTlv sign (hashTlv :: responses) none mailer.localSecret).mapError .bundle
  .ok value.encode

/--
What has been answered to the requests of one payload so far.
-/
structure PayloadAnswers where
  values : List OwnedTlv := []
  returnedIdentifier : UInt64 := 0
  requiresReturnBundle : Bool := false
  newHolds : Nat := 0

structure PayloadResponses where
  values : List OwnedTlv
  closeAfterReply : Bool
  requiresReturnBundle : Bool
  newHolds : Nat

def pollKinds (kind : ItemKind) : Option (List JobKind) :=
  match kind with
  | .pollMessages => some [.netMail, .echoMail]
  | .pollFiles => some [.file, .peerFile]
  | .pollFileRequests => some [.fileRequest]
  | _ => none

def PollHold.of (claim : DeliveryClaim) (identifier : UInt64) : PollHold where
  signedTlvHash := Vector.replicate 32 0
  requestIdentifier := identifier
  relayed := false
  claim

def setLastRelayed (relayed : Bool) (holds : List PollHold) : List PollHold :=
  holds.modify (holds.length - 1) fun hold => { hold with relayed }

-- Every claim is registered before its item is parsed, so that it is released after a later error.
def returnClaims (origin : Identity) (claims : List DeliveryClaim) (answers : PayloadAnswers)
    : ServerM PayloadAnswers := do
  match claims with
  | [] => pure answers
  | claim :: claims =>
    let identifier ← ServerM.ofExcept ((checkedAdd answers.returnedIdentifier 1).okOr
      (.message "too many values returned in one SignedTLV"))
    modify fun connection =>
      { connection with holds := connection.holds ++ [.of claim identifier] }
    let returned ← ServerM.ofExcept ((singleValue claim.item).mapError .delivery)
    let relayed ← ServerM.ofExcept
      ((isRelayDelivery c returned origin mailer.resolver).mapError .bundle)
    modify fun connection => { connection with holds := setLastRelayed relayed connection.holds }
    let value ← ServerM.ofExcept ((setRequestIdentifier returned identifier).mapError .bundle)
    returnClaims origin claims
      { answers with
        values := answers.values ++ [value]
        returnedIdentifier := identifier
        newHolds := answers.newHolds + 1 }

def dataErrorResponse (requestIdentifier : UInt64) (responseTo : TlvHash)
    : Except BundleError OwnedTlv :=
  rejected requestIdentifier responseTo none .permanent "request has a data error"

def ItemKind.requiresReturnBundle (kind : ItemKind) : Bool :=
  match kind with
  | .fileRequest | .pollMessages | .pollFiles | .pollFileRequests => true
  | _ => false

def dispatch (item : ValidatedItem) (responseTo : TlvHash) (origin : Identity) : ServerM OwnedTlv := do
  let connection ← get
  let (response, ops) := mailer.dispatch item responseTo origin connection.store
  modify fun connection =>
    { connection with store := (storeMachine c).run connection.store (ops.map AcceptanceOp.op) }
  ServerM.ofExcept response

def answerRequest (origin : Identity) (responseTo : TlvHash) (request : ReceivedRequest)
    (answers : PayloadAnswers)
    : ServerM PayloadAnswers := do
  match request with
  | .dataError requestIdentifier =>
    let response ← ServerM.ofExcept
      ((dataErrorResponse requestIdentifier responseTo).mapError .bundle)
    pure { answers with values := answers.values ++ [response] }
  | .valid item =>
    let answers :=
      { answers with
        requiresReturnBundle := answers.requiresReturnBundle || item.kind.requiresReturnBundle }
    match pollKinds item.kind with
    | some kinds =>
      let claims ← pollSnapshot mailer kinds origin answers.returnedIdentifier
      let answers ← returnClaims c mailer origin claims answers
      pure { answers with
        values := answers.values ++ [accepted item.requestIdentifier responseTo] }
    | none =>
      let response ← dispatch c mailer item responseTo origin
      pure { answers with values := answers.values ++ [response] }

def answerRequests (origin : Identity) (responseTo : TlvHash) (requests : List ReceivedRequest)
    (answers : PayloadAnswers)
    : ServerM PayloadAnswers := do
  match requests with
  | [] => pure answers
  | request :: requests =>
    let answers ← answerRequest c mailer origin responseTo request answers
    answerRequests origin responseTo requests answers

/--
Applies one response of the peer to the copy that it answers.
-/
def resolveHold (item : ValidatedItem) : ServerM Unit := do
  let responseTo ← ServerM.ofExcept
    (item.responseTo.okOr (.message "final Reply Bundle response has no ResponseTo"))
  let connection ← get
  let position ← ServerM.ofExcept
    ((connection.holds.findIdx? fun hold =>
      hold.signedTlvHash = responseTo && hold.requestIdentifier = item.requestIdentifier).okOr
        (.message "final Reply Bundle has a duplicate or unexpected response"))
  match connection.holds[position]? with
  | none => pure ()
  | some hold =>
    let now ← currentTime mailer
    let outcome :=
      match item.kind with
      | .accepted => .delivered "accepted by poll"
      | _ => rejectionOutcome item.rejection now hold.relayed
    finishClaim mailer hold.claim outcome
    modify fun connection => { connection with holds := connection.holds.eraseIdx position }

def resolveHolds (responses : List ValidatedItem) : ServerM Unit := do
  match responses with
  | [] => pure ()
  | response :: responses =>
    resolveHold mailer response
    resolveHolds responses

def payloadResponses (value : OwnedTlv) (request : IncomingBundle) (allowResponses : Bool)
    : ServerM PayloadResponses := do
  let payload ← ServerM.ofExcept
    ((receivePayload c value request.bundle.origin request.headerHash mailer.resolver).mapError
      .exchange)
  if !allowResponses && !payload.responses.isEmpty then
    ServerM.fail (.message "an initial Bundle contains a response value")
  resolveHolds mailer payload.responses
  let answers ← answerRequests c mailer request.bundle.origin payload.responseTo payload.requests {}
  pure
    { values := answers.values
      closeAfterReply := payload.closeAfterReply
      requiresReturnBundle := answers.requiresReturnBundle
      newHolds := answers.newHolds }

-- The peer names the SignedTLV that a value has arrived in.
def setNewHashes (newHolds : Nat) (signedTlvHash : TlvHash) (holds : List PollHold) : List PollHold :=
  holds.take (holds.length - newHolds) ++
    (holds.drop (holds.length - newHolds)).map fun hold => { hold with signedTlvHash }

def sendResponses (reply : ServerReply) (responses : PayloadResponses) : ServerM Unit := do
  let encoded ← ServerM.ofExcept ((reply.payload sign mailer responses.values).mapError .exchange)
  write mailer encoded
  let signedTlvHash ← ServerM.ofExcept ((c.hashTlv encoded).mapError fun error => .bundle (.crypto error))
  modify fun connection =>
    { connection with holds := setNewHashes responses.newHolds signedTlvHash connection.holds }

/--
The reply to a client reply bundle begins with its first responses.
-/
def sendReply (reply : ServerReply) (responses : PayloadResponses) (replyStarted : Bool)
    : ServerM Bool := do
  if responses.values.isEmpty then
    pure replyStarted
  else
    if !replyStarted then
      write mailer reply.replyBytes
    sendResponses c sign mailer reply responses
    pure true

def requireContinuation (permitted : Bool) : Except ServerError Unit :=
  if permitted then
    .ok ()
  else
    .error (.message "Client continued after a Bundle without a FileRequest or Poll")

def replyTo (peer : Identity) (incoming : IncomingBundle) : ServerM ServerReply := do
  if incoming.bundle.origin ≠ peer || incoming.bundle.destination ≠ mailer.localIdentity then
    ServerM.fail (.message "Client Reply Bundle has the wrong identities")
  let now ← currentTime mailer
  ServerM.ofExcept ((ServerReply.forRequest c sign mailer incoming.bundle now).mapError .exchange)

/--
The payloads of a client reply bundle, and the client reply bundles behind it.
-/
def respondToPayloads (turns : Nat) (peer : Identity) (incoming : IncomingBundle) (reply : ServerReply)
    (replyStarted waitForClientReply : Bool)
    : ServerM Unit := do
  match turns with
  | 0 => throw none
  | turns + 1 =>
    match ← readNext with
    | none =>
      let connection ← get
      if connection.holds.isEmpty then
        pure ()
      else
        ServerM.fail (.message ("Client Reply Bundle ended with " ++ toString connection.holds.length ++
          " response(s) missing"))
    | some value =>
      if value.typeCode = Types.signedTlv then
        let responses ← payloadResponses c mailer value incoming true
        let waitForClientReply := waitForClientReply || responses.requiresReturnBundle
        let replyStarted ← sendReply c sign mailer reply responses replyStarted
        if responses.closeAfterReply then
          ServerM.fail (.message "payload has a missing or incorrect Header TLVHash")
        let connection ← get
        if connection.holds.isEmpty && !waitForClientReply then
          pure ()
        else
          respondToPayloads turns peer incoming reply replyStarted waitForClientReply
      else if value.typeCode = Types.origin then
        ServerM.ofExcept (requireContinuation waitForClientReply)
        let incoming ← readHeader c mailer turns (some value)
        let incoming ← ServerM.ofExcept
          (incoming.okOr (.message "missing next Client Reply Bundle"))
        let reply ← replyTo c sign mailer peer incoming
        respondToPayloads turns peer incoming reply false false
      else if Types.isDefined value.typeCode then
        ServerM.fail (.message "unexpected defined top-level Client Reply value")
      else
        respondToPayloads turns peer incoming reply replyStarted waitForClientReply

def respondToClientReplies (turns : Nat) (first : OwnedTlv) (initial : IncomingBundle)
    : ServerM Unit := do
  let peer := initial.bundle.origin
  let incoming ← readHeader c mailer turns (some first)
  let incoming ← ServerM.ofExcept (incoming.okOr (.message "missing Client Reply Bundle"))
  let reply ← replyTo c sign mailer peer incoming
  respondToPayloads c sign mailer turns peer incoming reply false false

def respond (turns : Nat) (request : IncomingBundle) (reply : ServerReply) (first : Option OwnedTlv)
    (waitForClientReply : Bool)
    : ServerM Unit := do
  match turns with
  | 0 => throw none
  | turns + 1 =>
    let value ← nextValue first
    match value with
    | none => pure ()
    | some value =>
      if value.typeCode = Types.signedTlv then
        let responses ← payloadResponses c mailer value request false
        let waitForClientReply := waitForClientReply || responses.requiresReturnBundle
        if !responses.values.isEmpty then
          sendResponses c sign mailer reply responses
        if responses.closeAfterReply then
          ServerM.fail (.message "payload has a missing or incorrect Header TLVHash")
        respond turns request reply none waitForClientReply
      else if value.typeCode = Types.origin then
        ServerM.ofExcept (requireContinuation waitForClientReply)
        respondToClientReplies c sign mailer turns value request
      else if Types.isDefined value.typeCode then
        ServerM.fail (.message "unexpected defined top-level value")
      else
        respond turns request reply none waitForClientReply

/--
Retains every copy that is still held when the connection ends.
-/
def releaseHolds (holds : List PollHold) : ServerM Unit := do
  match holds with
  | [] => pure ()
  | hold :: holds =>
    let now ← currentTime mailer
    finishClaim mailer hold.claim (.deferred now "poll ended without a response for this value")
    releaseHolds holds

def buildPublicKeyResponse (destination : Identity) (requested : PublicKey)
    (timestamp identifier : UInt64) (responseTo : TlvHash)
    : Except BundleError (List UInt8) :=
  let secrets := mailer.localSecret :: mailer.retiredSecrets
  match secrets.find? (fun secret => mailer.publicKey secret = requested) with
  | some signingSecret =>
    buildPublicKeyReply c sign ⟨mailer.localIdentity.address, requested⟩ signingSecret destination
      timestamp identifier responseTo (mailer.publicKey mailer.localSecret)
  | none =>
    buildPublicKeyUnavailableReply c sign mailer.localIdentity mailer.localSecret destination timestamp
      identifier responseTo

def answerPublicKeyRequest (request : IncomingBundle) (requestIdentifier : UInt64)
    (responseTo : TlvHash)
    : ServerM Unit := do
  if request.bundle.destination.address ≠ mailer.localIdentity.address then
    ServerM.fail (.message "PublicKeyRequest names a different local address")
  let now ← currentTime mailer
  let encoded ← ServerM.ofExcept
    ((buildPublicKeyResponse c sign mailer request.bundle.origin request.bundle.destination.publicKey now
      requestIdentifier responseTo).mapError .bundle)
  write mailer encoded
  shutdown mailer

/--
The first value behind the header is a dedicated request for a public key.
-/
def isKeyProbe (value : OwnedTlv) : Bool :=
  value.typeCode = Types.signedTlv &&
    match unauthenticatedSignedData value with
    | .ok [hash, request] =>
      hash.typeCode = Types.tlvHash && request.typeCode = Types.publicKeyRequest
    | _ => false

def answerProbe (request : IncomingBundle) (value : OwnedTlv) : ServerM Unit := do
  let probe ← ServerM.ofExcept
    ((Bundle.parse c (request.headerBytes ++ value.encode) mailer.resolver).mapError .bundle)
  let found ← ServerM.ofExcept ((probe.publicKeyRequest c).mapError .bundle)
  let (requestIdentifier, responseTo) ← ServerM.ofExcept
    (found.okOr (.message "classified PublicKeyRequest has no request"))
  let next ← readNext
  if next.isSome then
    ServerM.fail (.message "PublicKeyRequest must be the sole request in its Bundle")
  answerPublicKeyRequest c sign mailer request requestIdentifier responseTo

-- Whatever happened, every copy that this connection has claimed needs an outcome.
def respondAndRelease (turns : Nat) (request : IncomingBundle) (reply : ServerReply)
    (first : Option OwnedTlv)
    : ServerM Unit := do
  let result ← ServerM.attempt (respond c sign mailer turns request reply first false)
  let connection ← get
  releaseHolds mailer connection.holds
  match result with
  | .error error => throw error
  | .ok () => shutdown mailer

def answerBundle (turns : Nat) (request : IncomingBundle) (first : Option OwnedTlv) : ServerM Unit := do
  match first.filter isKeyProbe with
  | some value => answerProbe c sign mailer request value
  | none =>
    let now ← currentTime mailer
    let reply ← ServerM.ofExcept
      ((ServerReply.forRequest c sign mailer request.bundle now).mapError .exchange)
    write mailer reply.replyBytes
    respondAndRelease c sign mailer turns request reply first

def transactionWithin (turns : Nat) : ServerM Unit := do
  let request ← readHeader c mailer turns none
  let request ← ServerM.ofExcept (request.okOr (.message "empty mail connection"))
  let first ← readNext
  answerBundle c sign mailer turns request first

-- Every turn of a loop reads a value.
def transaction : ServerM Unit := do
  let connection ← get
  transactionWithin c sign mailer (connection.reads.length + 1)

def Connection.start (reads : List (Except ServerError OwnedTlv)) (s : Store) : Connection where
  reads
  sent := []
  store := s
  holds := []
  calls := []

/--
The result of a connection, and what it leaves behind.
-/
def serve (reads : List (Except ServerError OwnedTlv)) (s : Store)
    : Except (Option ServerError) Unit × Connection :=
  (transaction c sign mailer).run.run (.start reads s)

end Exchange

def StoreCall.claims (call : StoreCall) : List DeliveryClaim :=
  match call with
  | .poll _ _ _ _ claims => claims
  | .finish _ _ _ => []

def StoreCall.finished (call : StoreCall) : List DeliveryClaim :=
  match call with
  | .poll _ _ _ _ _ => []
  | .finish _ claim _ => [claim]

def Connection.claimed (connection : Connection) : List DeliveryClaim :=
  connection.calls.flatMap (·.claims)

def Connection.finished (connection : Connection) : List DeliveryClaim :=
  connection.calls.flatMap (·.finished)

end Tith
