import Tith.Wire.Common

/-!
This module contains the items of TSP-0016 and their validation, and the requests and responses of
TTS-0005 that carry them.
-/

namespace Tith

inductive ItemKind where
  | netMail
  | echoMail
  | file
  | fileRequest
  | accepted
  | rejected
  | pollMessages
  | pollFiles
  | pollFileRequests
  | publicKeyRequest
  deriving DecidableEq, Repr

structure ItemProvenance where
  origin : Address
  signer : Option Identity
  deriving DecidableEq

inductive RejectionReason where
  | permanent
  | conditionUnmet
  | temporary
  deriving DecidableEq, Repr

def RejectionReason.fromCode (code : UInt64) : Option RejectionReason :=
  if code = 1 then
    some .permanent
  else if code = 2 then
    some .conditionUnmet
  else if code = 3 then
    some .temporary
  else
    none

structure Rejection where
  reason : RejectionReason
  retryAfter : Option UInt64
  description : String
  deriving DecidableEq

structure ValidatedItem where
  kind : ItemKind
  requestIdentifier : UInt64
  duplicateIdentity : Option SignedItemIdentity
  authentication : Option ItemAuthentication
  responseTo : Option TlvHash
  responsePublicKey : Option PublicKey
  rejection : Option Rejection
  provenance : Option ItemProvenance
  destination : Option Identity
  area : Option String
  raw : OwnedTlv
  deriving DecidableEq

/--
An item that is nothing but an identified request.
-/
def ValidatedItem.ofKind (kind : ItemKind) (requestIdentifier : UInt64) (raw : OwnedTlv)
    : ValidatedItem where
  kind
  requestIdentifier
  duplicateIdentity := none
  authentication := none
  responseTo := none
  responsePublicKey := none
  rejection := none
  provenance := none
  destination := none
  area := none
  raw

/--
The children of an item and the position of the next one to read.
-/
structure Cursor where
  values : List OwnedTlv
  index : Nat

/--
A computation that reads the children of an item in order.
-/
abbrev Reader := StateT Cursor (Except BundleError)

namespace Cursor

def new (values : List OwnedTlv) : Cursor := ⟨values, 0⟩

/--
The next child of a defined type with its position, and the cursor behind it.
-/
def nextDefined (cursor : Cursor) : Option ((Nat × OwnedTlv) × Cursor) :=
  go (cursor.values.drop cursor.index) cursor.index
where
  go (rest : List OwnedTlv) (index : Nat) : Option ((Nat × OwnedTlv) × Cursor) :=
    match rest with
    | [] => none
    | value :: rest =>
      if Types.isDefined value.typeCode then
        some ((index, value), ⟨cursor.values, index + 1⟩)
      else
        go rest (index + 1)

def take (expected : UInt64) (name : String) : Reader (Nat × OwnedTlv) := fun cursor =>
  match cursor.nextDefined with
  | some (entry, cursor) =>
    if entry.2.typeCode = expected then .ok (entry, cursor) else .error (.missing name)
  | none => .error (.missing name)

def optional (expected : UInt64) : Reader (Option (Nat × OwnedTlv)) := fun cursor =>
  match cursor.nextDefined with
  | some (entry, next) =>
    if entry.2.typeCode = expected then .ok (some entry, next) else .ok (none, cursor)
  | none => .ok (none, cursor)

/--
All the next children of one type. Every turn moves the cursor on, so the number of children is
enough.
-/
def repeated (expected : UInt64) : Reader (List OwnedTlv) := fun cursor =>
  .ok (go cursor.values.length cursor)
where
  go (fuel : Nat) (cursor : Cursor) : List OwnedTlv × Cursor :=
    match fuel, cursor.nextDefined with
    | fuel + 1, some (entry, next) =>
      if entry.2.typeCode = expected then
        let (values, cursor) := go fuel next
        (entry.2 :: values, cursor)
      else
        ([], cursor)
    | _, _ => ([], cursor)

def finish : Reader Unit := fun cursor =>
  match cursor.nextDefined with
  | some _ => .error (.unexpected "defined child value")
  | none => .ok ((), cursor)

/--
The key behind an address: it is there exactly if the address is anonymous.
-/
def conditionalPublicKey (address : Address) : Reader (Option OwnedTlv) := fun cursor =>
  match address.isAnonymous, (cursor.values[cursor.index]?).filter (·.typeCode = Types.publicKey) with
  | true, none => .error (.missing "PublicKey after anonymous address")
  | false, some _ => .error (.unexpected "PublicKey after non-anonymous address")
  | true, some value => .ok (some value, { cursor with index := cursor.index + 1 })
  | false, none => .ok (none, cursor)

def read (value : OwnedTlv) (reader : List OwnedTlv → Reader α) : Except BundleError α := do
  let children ← parseChildren value.value
  let (result, _) ← reader children (new children)
  .ok result

end Cursor

open Cursor

def optionalText (typeCode : UInt64) : Reader (Option String) := do
  match ← optional typeCode with
  | none => return none
  | some (_, value) => return some (← textValue value)

def takeNumber (typeCode : UInt64) (name : String) : Reader UInt64 := do
  let (_, value) ← take typeCode name
  numberValue value

def parseIdentity (origin : OwnedTlv) (publicKey : Option OwnedTlv) (resolver : KeyResolver)
    : Except BundleError Identity := do
  let address ← addressValue origin
  if address.isAnonymous then
    let keyTlv ← publicKey.okOr (.missing "anonymous PublicKey")
    let publicKey ← publicKeyValue keyTlv
    .ok { address, publicKey }
  else if publicKey.isSome then
    .error (.unexpected "non-anonymous PublicKey")
  else
    let publicKey ← (resolver address).okOr (.unknownKey address)
    .ok { address, publicKey }

/--
An address among the children of an item, with the key behind it.
-/
structure AddressPart where
  address : Address
  value : OwnedTlv
  publicKey : Option OwnedTlv

def readAddressPart (value : OwnedTlv) : Reader AddressPart := do
  let address ← addressValue value
  let publicKey ← conditionalPublicKey address
  return { address, value, publicKey }

def optionalAddressPart (typeCode : UInt64) : Reader (Option AddressPart) := do
  match ← optional typeCode with
  | none => return none
  | some (_, value) => return some (← readAddressPart value)

/--
The key that is available for the origin of an item.
-/
def originPublicKey (origin : AddressPart) (resolver : KeyResolver)
    : Except BundleError (Option PublicKey) := do
  let address ← addressValue origin.value
  if address.isAnonymous then
    let keyTlv ← origin.publicKey.okOr (.missing "anonymous Origin PublicKey")
    let key ← publicKeyValue keyTlv
    .ok (some key)
  else if origin.publicKey.isSome then
    .error (.unexpected "non-anonymous Origin PublicKey")
  else
    .ok (resolver address)

/--
`parse_provenance`, which always finds a signer: the origin, if there is a key for it, or else the
signed origin.
-/
def parseProvenance (origin : AddressPart) (signedOrigin : Option AddressPart) (resolver : KeyResolver)
    : Except BundleError Identity := do
  let key ← originPublicKey origin resolver
  match signedOrigin with
  | none => pure ()
  | some part => do
    let _ ← addressValue part.value
    match part.publicKey with
    | none => pure ()
    | some keyTlv => do
      let _ ← publicKeyValue keyTlv
  match key with
  | some publicKey => .ok { address := origin.address, publicKey }
  | none => do
    let part ← signedOrigin.okOr (.unknownKey origin.address)
    parseIdentity part.value part.publicKey resolver

def itemAuthentication (origin : Address) (signer : Identity) (authenticated : Bool)
    : ItemAuthentication :=
  match decide (signer.address = origin), authenticated with
  | true, true => .originValid
  | true, false => .originInvalid
  | false, true => .signedOriginValid
  | false, false => .signedOriginInvalid

/--
What the signature of an item, or its absence, says about the item.
-/
structure ItemSignature where
  provenance : ItemProvenance
  authentication : ItemAuthentication
  duplicateIdentity : Option SignedItemIdentity

def encodedPrefix (values : List OwnedTlv) (last : Nat) : List UInt8 := concatenate (values.take last)

def verifyItem (c : Crypto) (kind : SignedItemKind) (children : List OwnedTlv) (origin : AddressPart)
    (signer : Identity) (index : Nat) (signature : Signature)
    : Except BundleError ItemSignature := do
  let authenticated ←
    (c.verifyTlv (encodedPrefix children index) signature signer.publicKey).mapError .crypto
  .ok
    { provenance := { origin := origin.address, signer := some signer }
      authentication := itemAuthentication origin.address signer authenticated
      duplicateIdentity := if authenticated then some { kind, signer, signature } else none }

def unsignedItem (origin : AddressPart) (signedOrigin : Option AddressPart)
    : Except BundleError ItemSignature :=
  if signedOrigin.isSome then
    .error (.unexpected "SignedOrigin without Signature")
  else
    .ok
      { provenance := { origin := origin.address, signer := none }
        authentication := .unsigned
        duplicateIdentity := none }

def legacyAttributeFileAttached : UInt64 := (1 : UInt64) <<< 4

def legacyAttributesSignedMask : UInt64 :=
  (1 : UInt64) <<< 0 ||| (1 : UInt64) <<< 1 ||| (1 : UInt64) <<< 12 ||| (1 : UInt64) <<< 13 |||
    (1 : UInt64) <<< 14

def validateLegacyAttributes (value : UInt64) : Except BundleError Unit :=
  if value = 0 then
    .error (.unexpected "zero LegacyAttributes")
  else if value &&& legacyAttributeFileAttached ≠ 0 then
    .error (.unexpected "LegacyAttributes bit 4, which the File children carry")
  else if value &&& ~~~legacyAttributesSignedMask ≠ 0 then
    .error (.unexpected "non-persistent LegacyAttributes bits")
  else
    .ok ()

def validateTimestampOffset (value : Int) : Except BundleError Unit :=
  if value = 0 then .error (.unexpected "zero TimestampOffset") else .ok ()

def validateMessageText (value : String) : Except BundleError Unit :=
  if value.toList.contains '\r' then
    .error (.unexpected "U+000D in MessageText")
  else if value.toList ≠ [] ∧ value.toList.getLast? ≠ some '\n' then
    .error (.unexpected "a MessageText whose final paragraph is unterminated")
  else
    .ok ()

structure AreaData where
  name : String
  description : Option String
  deriving DecidableEq

def validateArea (value : OwnedTlv) : Except BundleError AreaData :=
  Cursor.read value fun _ => do
    let (_, nameTlv) ← take Types.areaName "AreaName"
    let name ← textValue nameTlv
    let description ← optionalText Types.areaDescription
    finish
    return { name, description }

def optionalArea : Reader (Option AreaData) := do
  match ← optional Types.area with
  | none => return none
  | some (_, value) => return some (← validateArea value)

structure ViaData where
  address : Address
  publicKey : Option PublicKey
  timestamp : UInt64
  software : String
  deriving DecidableEq

/--
`take_encoded_tlv`, which reads its integers before it looks at the type.
-/
def takeEncodedTlv (bytes : List UInt8) : Except BundleError (OwnedTlv × List UInt8) := do
  let (typeCode, typeLen) ← (decodeU64Prefix bytes).mapError .integer
  let (length, lengthLen) ← (decodeU64Prefix (bytes.drop typeLen)).mapError .integer
  let rest := bytes.drop (typeLen + lengthLen)
  if 2 ^ 64 ≤ typeLen + lengthLen + length.toNat then
    .error (.framing .lengthOverflow)
  else if rest.length < length.toNat then
    .error (.framing (.truncatedValue length.toNat rest.length))
  else
    let value ← (OwnedTlv.new typeCode (rest.take length.toNat)).mapError .framing
    .ok (value, rest.drop length.toNat)

/--
The key of an anonymous address in front of the timestamp of a via.
-/
def takeViaKey (address : Address) (bytes : List UInt8)
    : Except BundleError (Option PublicKey × OwnedTlv × List UInt8) := do
  let (next, rest) ← takeEncodedTlv bytes
  if address.isAnonymous then
    if next.typeCode ≠ Types.publicKey then
      .error (.missing "PublicKey after anonymous Via Address")
    else
      let publicKey ← publicKeyValue next
      let (timestamp, rest) ← takeEncodedTlv rest
      .ok (some publicKey, timestamp, rest)
  else if next.typeCode = Types.publicKey then
    .error (.unexpected "PublicKey after non-anonymous Via Address")
  else
    .ok (none, next, rest)

def readVia (value : OwnedTlv) : Except BundleError ViaData := do
  let (addressTlv, rest) ← takeEncodedTlv value.value
  if addressTlv.typeCode ≠ Types.address then
    .error (.missing "Via Address")
  else
    let address ← addressValue addressTlv
    let (publicKey, timestampTlv, rest) ← takeViaKey address rest
    if timestampTlv.typeCode ≠ Types.timestamp then
      .error (.missing "Via Timestamp")
    else
      let timestamp ← numberValue timestampTlv
      let software ← (Bytes.toString? rest).okOr .invalidUtf8
      .ok { address, publicKey, timestamp, software }

def readReplyTo (value : OwnedTlv) : Except BundleError (Address × String) := do
  let (addressTlv, rest) ← takeEncodedTlv value.value
  if addressTlv.typeCode ≠ Types.address then
    .error (.missing "ReplyTo Address")
  else
    let address ← addressValue addressTlv
    let identifier ← (Bytes.toString? rest).okOr .invalidUtf8
    .ok (address, identifier)

def seenByAddresses (value : OwnedTlv) : Except BundleError (List Address) := do
  let text ← textValue value
  (parseTrimmedCollection text.toList).mapError fun _ =>
    .unexpected "SeenBy is not a Trimmed Collection of addresses"

def filenameHasPathComponent (value : String) : Bool :=
  value.toList.any (fun c => c = '/' || c = '\\')

def optionalTimestamp : Reader Unit := do
  match ← optional Types.timestamp with
  | none => return ()
  | some (_, value) =>
    let _ ← numberValue value
    return ()

def checkLine (value : OwnedTlv) (message : String) : Except BundleError Unit := do
  let text ← textValue value
  if text.toList.any (fun c => c = '\r' || c = '\n') then .error (.unexpected message) else .ok ()

def readFileMetadata : Reader Unit := do
  match ← optional Types.shortDescription with
  | none => pure ()
  | some (_, value) => checkLine value "newline in ShortDescription"
  (← repeated Types.longDescriptionLine).forM fun value => do
    checkLine value "newline in LongDescriptionLine"
  [Types.tearLine, Types.magicWord, Types.replaces].forM fun typeCode => do
    let _ ← optionalText typeCode

def readFileHead (standalone : Bool) (children : List OwnedTlv) : Reader (Option AreaData) := do
  match ← optionalText Types.filename with
  | none => pure ()
  | some filename =>
    if filenameHasPathComponent filename then
      throw (.unexpected "Filename path component")
  optionalTimestamp
  let _ ← take Types.contents "File Contents"
  if !standalone && children.any (fun child =>
      child.typeCode = Types.origin || child.typeCode = Types.publicKey ||
        child.typeCode = Types.signedOrigin || child.typeCode = Types.signature) then
    throw (.unexpected "attached File provenance")
  let area ← optionalArea
  if !standalone && area.isSome then
    throw (.unexpected "attached File Area")
  return area

/--
The route of a file: a distributed file has one, another file has none.
-/
def readFileRoute (area : Option AreaData) : Reader Unit := do
  let vias ← repeated Types.via
  let seenBy ← repeated Types.seenBy
  if area.isSome && (vias.isEmpty || seenBy.isEmpty) then
    throw (.missing "distribution File Via/SeenBy")
  if area.isNone && (!vias.isEmpty || !seenBy.isEmpty) then
    throw (.unexpected "non-distribution File Via/SeenBy")
  vias.forM fun via => do
    let _ ← readVia via
  seenBy.forM fun value => do
    let _ ← seenByAddresses value

def readFileSignature (c : Crypto) (children : List OwnedTlv) (resolver : KeyResolver)
    (origin : AddressPart) (signedOrigin : Option AddressPart)
    : Reader ItemSignature := do
  match ← optional Types.signature with
  | none => unsignedItem origin signedOrigin
  | some (index, signatureTlv) =>
    let signature ← signatureValue signatureTlv
    let signer ← parseProvenance origin signedOrigin resolver
    verifyItem c .file children origin signer index signature

def validateStandaloneFile (c : Crypto) (value : OwnedTlv) (resolver : KeyResolver)
    : Except BundleError ValidatedItem :=
  Cursor.read value fun children => do
    let area ← readFileHead true children
    match ← optional Types.origin with
    | none => throw (.missing "standalone File Origin")
    | some (_, originTlv) =>
      let origin ← readAddressPart originTlv
      let signedOrigin ← optionalAddressPart Types.signedOrigin
      readFileMetadata
      let signed ← readFileSignature c children resolver origin signedOrigin
      let requestIdentifier ← takeNumber Types.requestIdentifier "File RequestIdentifier"
      readFileRoute area
      finish
      return { ValidatedItem.ofKind .file requestIdentifier value with
        duplicateIdentity := signed.duplicateIdentity
        authentication := some signed.authentication
        provenance := some signed.provenance
        area := area.map AreaData.name }

/--
A file inside of a message. It has no provenance of its own, so nothing is left of it.
-/
def validateAttachedFile (value : OwnedTlv) : Except BundleError Unit :=
  Cursor.read value fun children => do
    let area ← readFileHead false children
    readFileMetadata
    readFileRoute area
    finish

def validateFile (c : Crypto) (value : OwnedTlv) (standalone : Bool) (resolver : KeyResolver)
    : Except BundleError (Option ValidatedItem) :=
  if standalone then
    (validateStandaloneFile c value resolver).map some
  else
    (validateAttachedFile value).map (fun () => none)

def readMessageHead (children : List OwnedTlv) (resolver : KeyResolver)
    : Reader (AddressPart × Option AddressPart × Option Identity) := do
  if children.head?.map OwnedTlv.typeCode ≠ some Types.origin then
    throw (.missing "initial Message Origin")
  let (_, originTlv) ← take Types.origin "Message Origin"
  let origin ← readAddressPart originTlv
  let signedOrigin ← optionalAddressPart Types.signedOrigin
  match ← optionalAddressPart Types.destination with
  | none => return (origin, signedOrigin, none)
  | some part =>
    let destination ← parseIdentity part.value part.publicKey resolver
    return (origin, signedOrigin, some destination)

def readMessageText (destination : Option Identity) : Reader (Option AreaData) := do
  let _ ← takeNumber Types.timestamp "Message Timestamp"
  [(Types.toUserName, "ToUserName"), (Types.fromUserName, "FromUserName"),
    (Types.subject, "Subject")].forM fun (typeCode, name) => do
    let (_, value) ← take typeCode name
    let _ ← textValue value
  let (_, value) ← take Types.messageText "MessageText"
  let text ← textValue value
  validateMessageText text
  let area ← optionalArea
  if destination.isSome = area.isSome then
    throw (.unexpected "Message Destination/Area combination")
  return area

def readMessageBody (c : Crypto) (resolver : KeyResolver) (destination : Option Identity)
    : Reader Unit := do
  (← repeated Types.file).forM fun file => do
    let _ ← validateFile c file false resolver
  match ← optional Types.legacyAttributes with
  | none => pure ()
  | some (_, value) => validateLegacyAttributes (← numberValue value)
  match ← optional Types.timestampOffset with
  | none => pure ()
  | some (_, value) =>
    let offset ← (decodeI64 value.value).mapError BundleError.integer
    validateTimestampOffset offset
  let tearLine ← optionalText Types.tearLine
  let originLine ← optionalText Types.originLine
  let _ ← optionalText Types.messageId
  if destination.isSome && (tearLine.isSome || originLine.isSome) then
    throw (.unexpected "a NetMail TearLine or OriginLine")
  match ← optional Types.replyTo with
  | none => pure ()
  | some (_, value) =>
    let _ ← readReplyTo value
  let _ ← optionalText Types.originalCharacterSet

/--
The signature of a message. Its provenance is only looked up if there is one.
-/
def readMessageSignature (c : Crypto) (children : List OwnedTlv) (resolver : KeyResolver)
    (origin : AddressPart) (signedOrigin : Option AddressPart)
    : Reader ItemSignature := do
  match ← optional Types.signature with
  | none => unsignedItem origin signedOrigin
  | some (index, signatureTlv) =>
    let signer ← parseProvenance origin signedOrigin resolver
    let signature ← signatureValue signatureTlv
    verifyItem c .message children origin signer index signature

def readMessageSuffix : Reader UInt64 := do
  let requestIdentifier ← takeNumber Types.requestIdentifier "Message RequestIdentifier"
  let vias ← repeated Types.via
  if vias.isEmpty then
    throw (.missing "Message Via")
  vias.forM fun via => do
    let _ ← readVia via
  match ← optional Types.seenBy with
  | none => pure ()
  | some (_, value) =>
    let _ ← seenByAddresses value
  (← repeated Types.additionalKludgeLine).forM fun value => do
    let line ← textValue value
    if line.toList.contains '\x01' then
      throw (.unexpected "Control-A in AdditionalKludgeLine")
  finish
  return requestIdentifier

def validateMessage (c : Crypto) (value : OwnedTlv) (resolver : KeyResolver)
    : Except BundleError ValidatedItem :=
  Cursor.read value fun children => do
    let (origin, signedOrigin, destination) ← readMessageHead children resolver
    let area ← readMessageText destination
    readMessageBody c resolver destination
    let signed ← readMessageSignature c children resolver origin signedOrigin
    let requestIdentifier ← readMessageSuffix
    let kind := if destination.isSome then .netMail else .echoMail
    return { ValidatedItem.ofKind kind requestIdentifier value with
      duplicateIdentity := signed.duplicateIdentity
      authentication := some signed.authentication
      provenance := some signed.provenance
      destination
      area := area.map AreaData.name }

def validateFileRequest (value : OwnedTlv) : Except BundleError ValidatedItem :=
  Cursor.read value fun _ => do
    let (_, filenameTlv) ← take Types.filename "Filename"
    let filename ← textValue filenameTlv
    if filenameHasPathComponent filename then
      throw (.unexpected "Filename path component")
    optionalTimestamp
    let requestIdentifier ← takeNumber Types.requestIdentifier "RequestIdentifier"
    finish
    return { ValidatedItem.ofKind .fileRequest requestIdentifier value with
      authentication := some .transport }

def simpleRequest (value : OwnedTlv) (kind : ItemKind) : Except BundleError ValidatedItem :=
  Cursor.read value fun _ => do
    let requestIdentifier ← takeNumber Types.requestIdentifier "RequestIdentifier"
    finish
    return ValidatedItem.ofKind kind requestIdentifier value

def validatePublicKeyRequest (value : OwnedTlv) : Except BundleError ValidatedItem :=
  simpleRequest value .publicKeyRequest

def validateAccepted (value : OwnedTlv) : Except BundleError ValidatedItem :=
  Cursor.read value fun _ => do
    let requestIdentifier ← takeNumber Types.requestIdentifier "Accepted RequestIdentifier"
    let (_, hashTlv) ← take Types.tlvHash "Accepted TLVHash"
    let responseTo ← (fixed 32 hashTlv.value).okOr (BundleError.wrongLength "TLVHash")
    let responsePublicKey ←
      match ← optional Types.publicKey with
      | none => pure none
      | some (_, keyTlv) => pure (some (← publicKeyValue keyTlv))
    finish
    return { ValidatedItem.ofKind .accepted requestIdentifier value with
      responseTo := some responseTo
      responsePublicKey }

def validateRejected (value : OwnedTlv) : Except BundleError ValidatedItem :=
  Cursor.read value fun _ => do
    let requestIdentifier ← takeNumber Types.requestIdentifier "Rejected RequestIdentifier"
    let (_, hashTlv) ← take Types.tlvHash "Rejected TLVHash"
    let responseTo ← (fixed 32 hashTlv.value).okOr (BundleError.wrongLength "Rejected TLVHash")
    let retryAfter ←
      match ← optional Types.timestamp with
      | none => pure none
      | some (_, timestampTlv) => pure (some (← numberValue timestampTlv))
    let code ← takeNumber Types.rejectionReason "Rejected RejectionReason"
    let reason ← (RejectionReason.fromCode code).okOr (BundleError.unexpected "Rejected reason")
    if retryAfter.isSome ∧ reason ≠ .temporary then
      throw (.unexpected "Rejected Timestamp for non-temporary reason")
    let description ← optionalText Types.rejectionDescription
    if description = some "" then
      throw (.unexpected "empty RejectionDescription")
    finish
    return { ValidatedItem.ofKind .rejected requestIdentifier value with
      responseTo := some responseTo
      rejection := some { reason, retryAfter, description := description.getD "" } }

def validateResponse (value : OwnedTlv) (accepted : Bool) : Except BundleError ValidatedItem :=
  if accepted then validateAccepted value else validateRejected value

def requestIdentifier (value : OwnedTlv) : Option UInt64 :=
  match parseSequence value.value with
  | .error _ => none
  | .ok children =>
    match children.filter (·.typeCode = Types.requestIdentifier) with
    | [child] => (decodeU64 child.value).toOption
    | _ => none

def validateItem (c : Crypto) (value : OwnedTlv) (resolver : KeyResolver)
    : Except BundleError (Option ValidatedItem) :=
  if value.typeCode = Types.message then
    (validateMessage c value resolver).map some
  else if value.typeCode = Types.file then
    validateFile c value true resolver
  else if value.typeCode = Types.fileRequest then
    (validateFileRequest value).map some
  else if value.typeCode = Types.accepted then
    (validateResponse value true).map some
  else if value.typeCode = Types.rejected then
    (validateResponse value false).map some
  else if value.typeCode = Types.pollMessages then
    (simpleRequest value .pollMessages).map some
  else if value.typeCode = Types.pollFiles then
    (simpleRequest value .pollFiles).map some
  else if value.typeCode = Types.pollFileRequests then
    (simpleRequest value .pollFileRequests).map some
  else if value.typeCode = Types.publicKeyRequest then
    (validatePublicKeyRequest value).map some
  else if value.typeCode = Types.rejectionReason ∨ value.typeCode = Types.rejectionDescription then
    .error (.unexpected "Rejected child outside Rejected")
  else
    .ok none

end Tith
