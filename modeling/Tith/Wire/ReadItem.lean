import Tith.Wire.Item

/-!
This module contains the readers that take an item apart into its values, and the lossless model of an
item as its children.
-/

namespace Tith

open Cursor

structure AttachmentData where
  filename : Option String
  timestamp : Option UInt64
  contents : List UInt8
  shortDescription : Option String
  longDescriptionLines : List String
  tearLine : Option String
  magicWord : Option String
  replaces : Option String
  deriving DecidableEq

structure MessageData where
  destination : Option Identity
  timestamp : UInt64
  toUser : String
  fromUser : String
  subject : String
  text : String
  area : Option AreaData
  attachments : List AttachmentData
  legacyAttributes : Option UInt64
  timestampOffset : Option Int64
  tearLine : Option String
  originLine : Option String
  messageId : Option String
  replyTo : Option (Address × String)
  originalCharacterSet : Option String
  additionalKludgeLines : List String
  deriving DecidableEq

structure StandaloneFileData where
  filename : Option String
  timestamp : Option UInt64
  contents : List UInt8
  area : Option AreaData
  shortDescription : Option String
  longDescriptionLines : List String
  tearLine : Option String
  magicWord : Option String
  replaces : Option String
  deriving DecidableEq

/--
The values that select the signer of an item, and the bytes that its signature covers.
-/
structure ItemSigning where
  origin : Address
  originKey : Option PublicKey
  signedOrigin : Option Address
  signedOriginKey : Option PublicKey
  signature : Option Signature
  signedRegion : List UInt8
  signedOriginEncoding : List UInt8
  deriving DecidableEq

structure ReadMessage where
  data : MessageData
  signing : ItemSigning
  requestIdentifier : UInt64
  vias : List ViaData
  seenBy : List Address
  deriving DecidableEq

structure ReadFile where
  data : StandaloneFileData
  signing : ItemSigning
  requestIdentifier : UInt64
  vias : List ViaData
  seenBy : List Address
  deriving DecidableEq

structure ReadFileRequest where
  filename : String
  timestamp : Option UInt64
  requestIdentifier : UInt64
  deriving DecidableEq

def optionalValue (typeCode : UInt64) (decode : OwnedTlv → Except BundleError α) : Reader (Option α) := do
  match ← optional typeCode with
  | none => return none
  | some (_, value) => return some (← decode value)

def repeatedValues (typeCode : UInt64) (decode : OwnedTlv → Except BundleError α) : Reader (List α) := do
  let values ← repeated typeCode
  liftM (values.mapM decode)

-- What `decodeI64` returns always fits a signed word.
def offsetValue (value : OwnedTlv) : Except BundleError Int64 := do
  let offset ← (decodeI64 value.value).mapError .integer
  .ok (Int64.ofInt offset)

def takeText (typeCode : UInt64) (name : String) : Reader String := do
  let (_, value) ← take typeCode name
  textValue value

def parseKey (value : Option OwnedTlv) : Except BundleError (Option PublicKey) :=
  match value with
  | none => .ok none
  | some value => do
    let key ← publicKeyValue value
    .ok (some key)

def readOrigin (name : String) : Reader (Address × Option PublicKey) := do
  let (_, value) ← take Types.origin name
  let origin ← addressValue value
  let key ← conditionalPublicKey origin
  let originKey ← parseKey key
  return (origin, originKey)

structure SignedOriginParts where
  address : Option Address
  key : Option PublicKey
  encoding : List UInt8
  deriving DecidableEq

def readSignedOrigin : Reader SignedOriginParts := do
  match ← optional Types.signedOrigin with
  | none => return ⟨none, none, []⟩
  | some (_, value) =>
    let address ← addressValue value
    let keyTlv ← conditionalPublicKey address
    let key ← parseKey keyTlv
    return ⟨some address, key, value.encode ++ (keyTlv.map OwnedTlv.encode).getD []⟩

def readDestination (resolver : KeyResolver) : Reader (Option Identity) := do
  match ← optional Types.destination with
  | none => return none
  | some (_, value) =>
    let address ← addressValue value
    let key ← conditionalPublicKey address
    let destination ← parseIdentity value key resolver
    return some destination

/--
The signature and the bytes of the children in front of it, if the item is signed.
-/
def readSignature (children : List OwnedTlv) : Reader (Option Signature × List UInt8) := do
  match ← optional Types.signature with
  | none => return (none, [])
  | some (index, value) =>
    let signature ← signatureValue value
    return (some signature, encodedPrefix children index)

def itemSigning (origin : Address × Option PublicKey) (signedOrigin : SignedOriginParts)
    (signature : Option Signature × List UInt8)
    : ItemSigning where
  origin := origin.1
  originKey := origin.2
  signedOrigin := signedOrigin.address
  signedOriginKey := signedOrigin.key
  signature := signature.1
  signedRegion := signature.2
  signedOriginEncoding := signedOrigin.encoding

structure FileMetadata where
  shortDescription : Option String
  longDescriptionLines : List String
  tearLine : Option String
  magicWord : Option String
  replaces : Option String
  deriving DecidableEq

def readMetadata : Reader FileMetadata := do
  let shortDescription ← optionalText Types.shortDescription
  let longDescriptionLines ← repeatedValues Types.longDescriptionLine textValue
  let tearLine ← optionalText Types.tearLine
  let magicWord ← optionalText Types.magicWord
  let replaces ← optionalText Types.replaces
  return { shortDescription, longDescriptionLines, tearLine, magicWord, replaces }

structure FileBody where
  filename : Option String
  timestamp : Option UInt64
  contents : List UInt8
  deriving DecidableEq

def readFileBody (name : String) : Reader FileBody := do
  let filename ← optionalText Types.filename
  let timestamp ← optionalValue Types.timestamp numberValue
  let (_, contents) ← take Types.contents name
  return { filename, timestamp, contents := contents.value }

def attachmentData (body : FileBody) (metadata : FileMetadata) : AttachmentData where
  filename := body.filename
  timestamp := body.timestamp
  contents := body.contents
  shortDescription := metadata.shortDescription
  longDescriptionLines := metadata.longDescriptionLines
  tearLine := metadata.tearLine
  magicWord := metadata.magicWord
  replaces := metadata.replaces

def readAttachment (value : OwnedTlv) : Except BundleError AttachmentData :=
  Cursor.read value fun _ => do
    let body ← readFileBody "attached Contents"
    let metadata ← readMetadata
    finish
    return attachmentData body metadata

structure MessageWords where
  timestamp : UInt64
  toUser : String
  fromUser : String
  subject : String
  text : String
  area : Option AreaData
  deriving DecidableEq

def readWords : Reader MessageWords := do
  let timestamp ← takeNumber Types.timestamp "Message Timestamp"
  let toUser ← takeText Types.toUserName "ToUserName"
  let fromUser ← takeText Types.fromUserName "FromUserName"
  let subject ← takeText Types.subject "Subject"
  let text ← takeText Types.messageText "MessageText"
  let area ← optionalArea
  return { timestamp, toUser, fromUser, subject, text, area }

structure MessageControls where
  attachments : List AttachmentData
  legacyAttributes : Option UInt64
  timestampOffset : Option Int64
  tearLine : Option String
  originLine : Option String
  messageId : Option String
  replyTo : Option (Address × String)
  originalCharacterSet : Option String
  deriving DecidableEq

def readControls : Reader MessageControls := do
  let attachments ← repeatedValues Types.file readAttachment
  let legacyAttributes ← optionalValue Types.legacyAttributes numberValue
  let timestampOffset ← optionalValue Types.timestampOffset offsetValue
  let tearLine ← optionalText Types.tearLine
  let originLine ← optionalText Types.originLine
  let messageId ← optionalText Types.messageId
  let replyTo ← optionalValue Types.replyTo readReplyTo
  let originalCharacterSet ← optionalText Types.originalCharacterSet
  return {
    attachments, legacyAttributes, timestampOffset, tearLine, originLine, messageId, replyTo,
    originalCharacterSet }

/--
What the unsigned end of an item says about its way.
-/
structure ItemRoute where
  vias : List ViaData
  seenBy : List Address
  deriving DecidableEq

-- A message has one value with all the addresses that have seen it.
def readMessageRoute : Reader ItemRoute := do
  let vias ← repeatedValues Types.via readVia
  if vias.isEmpty then
    throw (.missing "Message Via")
  let seenBy ← optionalValue Types.seenBy seenByAddresses
  return { vias, seenBy := seenBy.getD [] }

-- A file repeats the value.
def readFileWay : Reader ItemRoute := do
  let vias ← repeatedValues Types.via readVia
  let seenBy ← repeatedValues Types.seenBy seenByAddresses
  return { vias, seenBy := seenBy.flatten }

def messageData (destination : Option Identity) (words : MessageWords) (controls : MessageControls)
    (additionalKludgeLines : List String)
    : MessageData where
  destination
  timestamp := words.timestamp
  toUser := words.toUser
  fromUser := words.fromUser
  subject := words.subject
  text := words.text
  area := words.area
  attachments := controls.attachments
  legacyAttributes := controls.legacyAttributes
  timestampOffset := controls.timestampOffset
  tearLine := controls.tearLine
  originLine := controls.originLine
  messageId := controls.messageId
  replyTo := controls.replyTo
  originalCharacterSet := controls.originalCharacterSet
  additionalKludgeLines

def readMessage (value : OwnedTlv) (resolver : KeyResolver) : Except BundleError ReadMessage :=
  if value.typeCode ≠ Types.message then
    .error (.unexpected "read_message item kind")
  else
    Cursor.read value fun children => do
      let origin ← readOrigin "Message Origin"
      let signedOrigin ← readSignedOrigin
      let destination ← readDestination resolver
      let words ← readWords
      let controls ← readControls
      let signature ← readSignature children
      let requestIdentifier ← takeNumber Types.requestIdentifier "Message RequestIdentifier"
      let route ← readMessageRoute
      let additionalKludgeLines ← repeatedValues Types.additionalKludgeLine textValue
      finish
      return {
        data := messageData destination words controls additionalKludgeLines
        signing := itemSigning origin signedOrigin signature
        requestIdentifier
        vias := route.vias
        seenBy := route.seenBy }

def standaloneFileData (body : FileBody) (area : Option AreaData) (metadata : FileMetadata)
    : StandaloneFileData where
  filename := body.filename
  timestamp := body.timestamp
  contents := body.contents
  area
  shortDescription := metadata.shortDescription
  longDescriptionLines := metadata.longDescriptionLines
  tearLine := metadata.tearLine
  magicWord := metadata.magicWord
  replaces := metadata.replaces

def readStandaloneFile (value : OwnedTlv) : Except BundleError ReadFile :=
  if value.typeCode ≠ Types.file then
    .error (.unexpected "read_standalone_file item kind")
  else
    Cursor.read value fun children => do
      let body ← readFileBody "File Contents"
      let area ← optionalArea
      let origin ← readOrigin "standalone File Origin"
      let signedOrigin ← readSignedOrigin
      let metadata ← readMetadata
      let signature ← readSignature children
      let requestIdentifier ← takeNumber Types.requestIdentifier "File RequestIdentifier"
      let route ← readFileWay
      finish
      return {
        data := standaloneFileData body area metadata
        signing := itemSigning origin signedOrigin signature
        requestIdentifier
        vias := route.vias
        seenBy := route.seenBy }

def readFileRequest (value : OwnedTlv) : Except BundleError ReadFileRequest :=
  if value.typeCode ≠ Types.fileRequest then
    .error (.unexpected "read_file_request item kind")
  else
    Cursor.read value fun _ => do
      let filename ← takeText Types.filename "Filename"
      let timestamp ← optionalValue Types.timestamp numberValue
      let requestIdentifier ← takeNumber Types.requestIdentifier "RequestIdentifier"
      finish
      return { filename, timestamp, requestIdentifier }

inductive ItemModelKind where
  | message
  | standaloneFile
  | fileRequest
  deriving DecidableEq, Repr

/--
An item as its children, of unknown types too.
-/
structure ItemModel where
  kind : ItemModelKind
  children : List OwnedTlv
  deriving DecidableEq

namespace ItemModel

def parseKind (c : Crypto) (value : OwnedTlv) (resolver : KeyResolver)
    : Except BundleError ItemModelKind :=
  if value.typeCode = Types.message then do
    let _ ← validateMessage c value resolver
    .ok .message
  else if value.typeCode = Types.file then do
    let _ ← validateFile c value true resolver
    .ok .standaloneFile
  else if value.typeCode = Types.fileRequest then do
    let _ ← validateFileRequest value
    .ok .fileRequest
  else
    .error (.unexpected "ItemModel item kind")

def parse (c : Crypto) (value : OwnedTlv) (resolver : KeyResolver) : Except BundleError ItemModel := do
  let kind ← parseKind c value resolver
  let children ← parseChildren value.value
  .ok { kind, children }

def typeCode (model : ItemModel) : UInt64 :=
  match model.kind with
  | .message => Types.message
  | .standaloneFile => Types.file
  | .fileRequest => Types.fileRequest

/--
The type and the bytes of the value of `to_tlv`. A value of 2^64 bytes or more is not representable here.
-/
def toTlv (model : ItemModel) : Except FramingError OwnedTlv :=
  OwnedTlv.new model.typeCode (concatenate model.children)

end ItemModel

end Tith
