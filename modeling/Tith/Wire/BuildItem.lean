import Tith.Wire.ReadItem
import Tith.Wire.Suffix

/-!
This module contains the building of messages and files: their signed children, the signature over them
and the unsigned children behind it.
-/

namespace Tith

def filenameIsPortable (value : String) : Bool :=
  !value.toList.any (fun c => c.toNat ≤ 0x1f || c.toNat = 0x7f ||
    ['"', '*', '/', ':', '<', '>', '?', '\\', '|'].contains c)

def validateProducedFilename (value : String) : Except BundleError Unit :=
  if filenameHasPathComponent value then
    .error (.unexpected "Filename path component")
  else if !filenameIsPortable value then
    .error (.unexpected "Filename code point discouraged for production")
  else
    .ok ()

def optionalTlv (value : Option α) (encode : α → Except BundleError OwnedTlv)
    : Except BundleError (List OwnedTlv) :=
  match value with
  | none => .ok []
  | some value => do
    let tlv ← encode value
    .ok [tlv]

def textTlv (typeCode : UInt64) (text : String) : Except BundleError OwnedTlv :=
  assigned typeCode (Bytes.ofString text)

def numberTlv (typeCode number : UInt64) : Except BundleError OwnedTlv :=
  assigned typeCode (encodeU64 number)

def lineTlv (typeCode : UInt64) (message text : String) : Except BundleError OwnedTlv :=
  if text.toList.any (fun c => c = '\r' || c = '\n') then
    .error (.unexpected message)
  else
    textTlv typeCode text

def filenameTlv (value : String) : Except BundleError OwnedTlv := do
  validateProducedFilename value
  textTlv Types.filename value

/--
`push_identity`: the address of an identity, with its key if it is anonymous.
-/
def identityTlvs (typeCode : UInt64) (identity : Identity) : Except BundleError (List OwnedTlv) :=
  addressed typeCode identity.address identity.embeddedKey

def provenanceTlvs (provenance : ItemProvenance) : Except BundleError (List OwnedTlv) := do
  let signer ← provenance.signer.okOr (.missing "item signing identity")
  if provenance.origin = signer.address then
    identityTlvs Types.origin signer
  else if provenance.origin.isAnonymous then
    .error (.unexpected "anonymous Origin without its own PublicKey")
  else
    let origin ← assigned Types.origin (Bytes.ofString provenance.origin.display)
    let signedOrigin ← identityTlvs Types.signedOrigin signer
    .ok (origin :: signedOrigin)

def areaValue (area : AreaData) : Except BundleError OwnedTlv := do
  let name ← textTlv Types.areaName area.name
  let description ← optionalTlv area.description (textTlv Types.areaDescription)
  assigned Types.area (concatenate (name :: description))

def metadataTlvs (metadata : FileMetadata) : Except BundleError (List OwnedTlv) := do
  let short ← optionalTlv metadata.shortDescription
    (lineTlv Types.shortDescription "newline in ShortDescription")
  let long ← metadata.longDescriptionLines.mapM
    (lineTlv Types.longDescriptionLine "newline in LongDescriptionLine")
  let tearLine ← optionalTlv metadata.tearLine (textTlv Types.tearLine)
  let magicWord ← optionalTlv metadata.magicWord (textTlv Types.magicWord)
  let replaces ← optionalTlv metadata.replaces (textTlv Types.replaces)
  .ok (short ++ long ++ tearLine ++ magicWord ++ replaces)

def bodyTlvs (body : FileBody) : Except BundleError (List OwnedTlv) := do
  let filename ← optionalTlv body.filename filenameTlv
  let timestamp ← optionalTlv body.timestamp (numberTlv Types.timestamp)
  let contents ← assigned Types.contents body.contents
  .ok (filename ++ timestamp ++ [contents])

def AttachmentData.body (data : AttachmentData) : FileBody :=
  ⟨data.filename, data.timestamp, data.contents⟩

def AttachmentData.metadata (data : AttachmentData) : FileMetadata :=
  ⟨data.shortDescription, data.longDescriptionLines, data.tearLine, data.magicWord, data.replaces⟩

def attachmentTlv (data : AttachmentData) : Except BundleError OwnedTlv := do
  let body ← bodyTlvs data.body
  let metadata ← metadataTlvs data.metadata
  assigned Types.file (concatenate (body ++ metadata))

def validateOriginatedMessageData (data : MessageData) : Except BundleError Unit := do
  if data.destination.isSome = data.area.isSome then
    .error (.unexpected "Message Destination/Area combination")
  else
    match data.legacyAttributes with
    | none => pure ()
    | some value => validateLegacyAttributes value
    match data.timestampOffset with
    | none => pure ()
    | some value => validateTimestampOffset value.toInt
    if data.area.isNone ∧ (data.tearLine.isSome ∨ data.originLine.isSome) then
      .error (.unexpected "a NetMail TearLine or OriginLine")
    else
      validateMessageText data.text

def replyToTlv (value : Address × String) : Except BundleError OwnedTlv := do
  let address ← assigned Types.address (Bytes.ofString value.1.display)
  assigned Types.replyTo (address.encode ++ Bytes.ofString value.2)

def wordsTlvs (data : MessageData) : Except BundleError (List OwnedTlv) := do
  let timestamp ← numberTlv Types.timestamp data.timestamp
  let toUser ← textTlv Types.toUserName data.toUser
  let fromUser ← textTlv Types.fromUserName data.fromUser
  let subject ← textTlv Types.subject data.subject
  let text ← textTlv Types.messageText data.text
  let area ← optionalTlv data.area areaValue
  .ok ([timestamp, toUser, fromUser, subject, text] ++ area)

def controlsTlvs (data : MessageData) : Except BundleError (List OwnedTlv) := do
  let attachments ← data.attachments.mapM attachmentTlv
  let legacyAttributes ← optionalTlv data.legacyAttributes (numberTlv Types.legacyAttributes)
  let timestampOffset ← optionalTlv data.timestampOffset
    (fun value => assigned Types.timestampOffset (encodeI64 value))
  let tearLine ← optionalTlv data.tearLine (textTlv Types.tearLine)
  let originLine ← optionalTlv data.originLine (textTlv Types.originLine)
  let messageId ← optionalTlv data.messageId (textTlv Types.messageId)
  let replyTo ← optionalTlv data.replyTo replyToTlv
  let originalCharacterSet ← optionalTlv data.originalCharacterSet (textTlv Types.originalCharacterSet)
  .ok (attachments ++ legacyAttributes ++ timestampOffset ++ tearLine ++ originLine ++ messageId ++
    replyTo ++ originalCharacterSet)

def destinationTlvs (destination : Option Identity) : Except BundleError (List OwnedTlv) :=
  match destination with
  | none => .ok []
  | some destination => identityTlvs Types.destination destination

def messageSignedChildren (data : MessageData) (provenance : ItemProvenance)
    : Except BundleError (List OwnedTlv) := do
  let provenance ← provenanceTlvs provenance
  let destination ← destinationTlvs data.destination
  let words ← wordsTlvs data
  let controls ← controlsTlvs data
  .ok (provenance ++ destination ++ words ++ controls)

/--
The unsigned end of a message that is being built.
-/
structure MessageSuffix where
  existingVias : List ViaData
  localVia : Identity
  requestIdentifier : UInt64
  viaTimestamp : UInt64
  software : String
  seenBy : List Address

/--
A via that was read is written as it was, if its key is there exactly where it has to be.
-/
def existingViaValue (localVia : Identity) (via : ViaData) : Except BundleError OwnedTlv := do
  let publicKey ←
    if via.address.isAnonymous then
      via.publicKey.okOr (.missing "anonymous Via PublicKey")
    else if via.publicKey.isSome then
      .error (.unexpected "non-anonymous Via PublicKey")
    else
      .ok localVia.publicKey
  viaValue { address := via.address, publicKey } via.timestamp via.software

def kludgeTlv (line : String) : Except BundleError OwnedTlv :=
  if line.toList.contains '\x01' then
    .error (.unexpected "Control-A in AdditionalKludgeLine")
  else
    textTlv Types.additionalKludgeLine line

def finishMessage (data : MessageData) (signed : List OwnedTlv) (suffix : MessageSuffix)
    : Except BundleError OwnedTlv := do
  let request ← numberTlv Types.requestIdentifier suffix.requestIdentifier
  let existing ← suffix.existingVias.mapM (existingViaValue suffix.localVia)
  let via ← viaValue suffix.localVia suffix.viaTimestamp suffix.software
  let seenBy ← seenByValue suffix.seenBy
  let kludges ← data.additionalKludgeLines.mapM kludgeTlv
  assigned Types.message (concatenate (signed ++ request :: existing ++ via :: seenBy ++ kludges))

/--
The children with the signature over them.
-/
def signChildren (sign : SignTlv) (secret : SecretKey) (children : List OwnedTlv)
    : Except BundleError (List OwnedTlv) := do
  let signature ← (sign (concatenate children) secret).mapError .crypto
  let signatureTlv ← assigned Types.signature signature.toList
  .ok (children ++ [signatureTlv])

def buildOriginatedMessageForDelivery (sign : SignTlv) (data : MessageData) (provenance : ItemProvenance)
    (secret : SecretKey) (localVia : Identity) (requestIdentifier viaTimestamp : UInt64) (software : String)
    (seenBy : List Address)
    : Except BundleError OwnedTlv := do
  validateOriginatedMessageData data
  let children ← messageSignedChildren data provenance
  let signed ← signChildren sign secret children
  finishMessage data signed ⟨[], localVia, requestIdentifier, viaTimestamp, software, seenBy⟩

end Tith
