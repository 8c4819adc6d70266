import Tith.Store.Basic
import Tith.Wire.Tlv
import Tith.Wire.Types

/-!
This module contains the inbound half of the store: accepting items, and the claims by which
applications consume them. A function that returns the store in its result is one transaction, an
error aborts it.
-/

namespace Tith

def encodeDuplicateIdentity (value : SignedItemIdentity) : List UInt8 :=
  let kind :=
    match value.kind with
    | .message => Types.message
    | .file => Types.file
  Bytes.ofWord kind ++ Bytes.withLength (Bytes.ofString value.signer.address.display) ++
    value.signer.publicKey.toList ++ value.signature.toList

def removeDuplicateIdentity (identity : SignedItemIdentity) (s : Store) : Bool × Store :=
  let key := encodeDuplicateIdentity identity
  (s.duplicates[key]?.isSome, { s with duplicates := s.duplicates.erase key })

def storedKind (typeCode : UInt64) : Option StoredKind :=
  if typeCode = Types.message then
    some .message
  else if typeCode = Types.file then
    some .file
  else if typeCode = Types.fileRequest then
    some .fileRequest
  else
    none

def signedKind (kind : StoredKind) : Option SignedItemKind :=
  match kind with
  | .message => some .message
  | .file => some .file
  | .fileRequest => none

/--
The checks of `accept` on the item, before it opens a transaction.
-/
def checkInbound (value : NewInbound) (duplicateIdentity : Option SignedItemIdentity)
    : Except StoreError StoredKind :=
  match parseSequence value.payload with
  | .ok [tlv] =>
    match storedKind tlv.typeCode with
    | none => .error .invalidPayload
    | some kind =>
      if (kind = .fileRequest) ≠ (value.authentication = .transport) then
        .error .invalidPayload
      else
        match duplicateIdentity with
        | none => .ok kind
        | some identity =>
          if some identity.kind ≠ signedKind kind ∨ kind = .fileRequest ∨
              ¬(value.authentication = .originValid ∨ value.authentication = .signedOriginValid) then
            .error .invalidPayload
          else
            .ok kind
  | _ => .error .invalidPayload

def newRecord (inboundId : String) (value : NewInbound) (kind : StoredKind) (hash : TlvHash)
    : InboundRecord where
  inboundId
  application := value.application
  localIdentity := value.localIdentity
  peer := value.peer
  peerKey := value.peerKey
  received := value.received
  changed := value.received
  kind
  authentication := value.authentication
  payloadSize := UInt64.ofNat value.payload.length
  payloadHash := hash
  state := .available
  attempts := 0
  eligibleAt := value.received
  claimKey := none
  claimToken := none
  claimExpires := none
  lastResult := none
  forwardJob := none

def duplicateOf (s : Store) (duplicateIdentity : Option SignedItemIdentity) : Option String :=
  match duplicateIdentity with
  | none => none
  | some identity => s.duplicates[encodeDuplicateIdentity identity]?

/--
The duplicate table once the identity, if there is one, is bound to a record.
-/
def bindDuplicate (s : Store) (duplicateIdentity : Option SignedItemIdentity) (inboundId : String)
    : Table (List UInt8) String :=
  match duplicateIdentity with
  | none => s.duplicates
  | some identity => s.duplicates.insert (encodeDuplicateIdentity identity) inboundId

/--
`inbound_identifier::allocate`: the only state of the allocator is what it has not drawn yet.
-/
def allocate (s : Store) (rng : Rng) : Except StoreError (String × Rng) :=
  freshIdentifier 'I' (fun candidate => s.records[candidate]?.isSome) rng

def accept (c : Crypto) (value : NewInbound) (duplicateIdentity : Option SignedItemIdentity)
    (rng : Rng) (s : Store)
    : Except StoreError (AcceptResult × Rng × Store) := do
  let kind ← checkInbound value duplicateIdentity
  match c.hashInboundItem value.payload with
  | .error e => .error (.crypto e)
  | .ok hash =>
    match duplicateOf s duplicateIdentity with
    | some existing => .ok (.duplicate existing, rng, s)
    | none => do
      let (id, rng) ← allocate s rng
      let record := newRecord id value kind hash
      let s :=
        { s with
          records := s.records.insert id record
          payloads := s.payloads.insert id value.payload
          duplicates := bindDuplicate s duplicateIdentity id }
      .ok (.stored record, rng, s)

def expireRecord (record : InboundRecord) (expiredAt : UInt64) : InboundRecord :=
  { record with
    state := .available
    changed := expiredAt
    eligibleAt := expiredAt
    claimExpires := none
    lastResult := some "Available" }

def InboundRecord.isExpired (record : InboundRecord) (now : UInt64) : Bool :=
  record.state = .claimed ∧ record.claimExpires.any (· ≤ now)

/--
The expiry of one claim, in the record, its claim key and its token.
-/
def expireClaim (s : Store) (record : InboundRecord) : Except StoreError Store := do
  let expiredAt ← record.claimExpires.okOr .corruptRecord
  let claimKey ← record.claimKey.okOr .corruptRecord
  let claimToken ← record.claimToken.okOr .corruptRecord
  let mapping := ⟨record.inboundId, claimToken, some .available⟩
  .ok
    { s with
      records := s.records.insert record.inboundId (expireRecord record expiredAt)
      claimKeys := s.claimKeys.insert (claimMappingKey record.application claimKey) mapping
      resolvedTokens :=
        s.resolvedTokens.insert claimToken ⟨record.inboundId, .available, false⟩ }

def expiredRecords (s : Store) (now : UInt64) : List InboundRecord :=
  (s.records.toList.map Prod.snd).filter (InboundRecord.isExpired · now)

def refreshExpirations (now : UInt64) (s : Store) : Except StoreError Store :=
  (expiredRecords s now).foldlM expireClaim s

def claimFrom (record : InboundRecord) : Except StoreError Claim := do
  let claimToken ← record.claimToken.okOr .corruptRecord
  let expires ← record.claimExpires.okOr .corruptRecord
  .ok { inboundId := record.inboundId, claimToken, expires, record }

def InboundRecord.isHeld (record : InboundRecord) (token : String) (now : UInt64) : Bool :=
  record.state = .claimed ∧ record.claimToken = some token ∧ record.claimExpires.any (now < ·)

/--
What a claim key that has been used before answers.
-/
def claimAgain (s : Store) (mapping : ClaimMapping) (now : UInt64) : Except StoreError ClaimResult := do
  let record ← s.records[mapping.inboundId]?.okOr .corruptRecord
  if mapping.outcome.isSome ∨ ¬record.isHeld mapping.token now then
    .ok (.resolved mapping.inboundId (mapping.outcome.getD record.state))
  else do
    let claim ← claimFrom record
    .ok (.completed claim)

def InboundRecord.isEligible (record : InboundRecord) (application : Application) (now : UInt64)
    : Bool :=
  record.application = application ∧ (record.state = .available ∨ record.state = .deferred) ∧
    record.eligibleAt ≤ now

def InboundRecord.precedes (record old : InboundRecord) : Bool :=
  ((compare record.eligibleAt old.eligibleAt).then <|
    (compare record.received old.received).then (compare record.inboundId old.inboundId)).isLT

def selectRecord (s : Store) (application : Application) (now : UInt64) : Option InboundRecord :=
  (s.records.toList.map Prod.snd).foldl
    (fun selected record =>
      if record.isEligible application now ∧ selected.all (fun old => record.precedes old) then
        some record
      else
        selected)
    none

def claimRecord (record : InboundRecord) (claimKey token : String) (now expires attempts : UInt64)
    : InboundRecord :=
  { record with
    state := .claimed
    changed := now
    attempts
    claimKey := some claimKey
    claimToken := some token
    claimExpires := some expires }

/--
The transaction of `claim` after the expirations have been refreshed.
-/
def claimNext (application : Application) (claimKey : String) (now duration : UInt64) (rng : Rng)
    (s : Store)
    : Except StoreError (ClaimResult × Store) :=
  match s.claimKeys[claimMappingKey application claimKey]? with
  | some mapping => do
    let result ← claimAgain s mapping now
    .ok (result, s)
  | none =>
    match selectRecord s application now with
    | none => .ok (.empty, s)
    | some record => do
      let (token, _) ← randomIdentifier 'C' rng
      let expires ← (checkedAdd now duration).okOr .corruptRecord
      let attempts ← (checkedAdd record.attempts 1).okOr .corruptRecord
      let record := claimRecord record claimKey token now expires attempts
      let mapping := ⟨record.inboundId, token, none⟩
      let s :=
        { s with
          records := s.records.insert record.inboundId record
          claimKeys := s.claimKeys.insert (claimMappingKey application claimKey) mapping }
      let claim ← claimFrom record
      .ok (.completed claim, s)

/--
The refresh is a transaction of its own: it stays when the claim fails.
-/
def claim (application : Application) (claimKey : String) (now duration : UInt64) (rng : Rng)
    (s : Store)
    : Except StoreError ClaimResult × Store :=
  if claimKey = "" then
    (.error .corruptRecord, s)
  else
    match refreshExpirations now s with
    | .error e => (.error e, s)
    | .ok s =>
      match claimNext application claimKey now duration rng s with
      | .error e => (.error e, s)
      | .ok (result, s) => (.ok result, s)

def resolveRecord (record : InboundRecord) (now : UInt64) (resolution : Resolution)
    : InboundRecord :=
  let (state, eligibleAt, result) :=
    match resolution with
    | .acknowledge => (.consumed, record.eligibleAt, "Consumed")
    | .release => (.available, now, "Available")
    | .defer retryAfter description => (.deferred, retryAfter, description)
    | .reject description => (.rejected, record.eligibleAt, description)
  { record with
    state
    changed := now
    eligibleAt
    claimExpires := none
    lastResult := some result }

def resolve (application : Application) (inboundId token : String) (now : UInt64)
    (resolution : Resolution) (s : Store)
    : Except StoreError (InboundState × Store) :=
  match s.resolvedTokens[token]? with
  | some resolved => do
    let record ← s.records[resolved.inboundId]?.okOr .notFound
    if record.application ≠ application then
      .error .notFound
    else if resolved.inboundId = inboundId ∧ resolved.completed then
      .ok (resolved.state, s)
    else
      .error (.stale resolved.state)
  | none => do
    let record ← s.records[inboundId]?.okOr .notFound
    if record.application ≠ application then
      .error .notFound
    else if record.state ≠ .claimed then
      if record.claimToken = some token then .ok (record.state, s) else .error (.stale record.state)
    else if ¬record.isHeld token now then
      .error (.stale record.state)
    else do
      let claimKey ← record.claimKey.okOr .corruptRecord
      let resolved := resolveRecord record now resolution
      let mapping := ⟨inboundId, token, some resolved.state⟩
      let s :=
        { s with
          records := s.records.insert inboundId resolved
          claimKeys := s.claimKeys.insert (claimMappingKey record.application claimKey) mapping
          resolvedTokens := s.resolvedTokens.insert token ⟨inboundId, resolved.state, true⟩ }
      .ok (resolved.state, s)

def renew (application : Application) (inboundId token : String) (now duration : UInt64) (s : Store)
    : Except StoreError (UInt64 × Store) := do
  let record ← s.records[inboundId]?.okOr .notFound
  if record.application ≠ application then
    .error .notFound
  else if ¬record.isHeld token now then
    .error (.stale record.state)
  else do
    let expires ← (checkedAdd now duration).okOr .corruptRecord
    let record := { record with claimExpires := some expires }
    .ok (expires, { s with records := s.records.insert inboundId record })

def claimedPayload (application : Application) (inboundId token : String) (now : UInt64) (s : Store)
    : Except StoreError (List UInt8) := do
  let record ← s.records[inboundId]?.okOr .notFound
  if record.application ≠ application then
    .error .notFound
  else if ¬record.isHeld token now then
    .error (.stale record.state)
  else
    s.payloads[inboundId]?.okOr .notFound

end Tith
