import Tith.Legacy.Packet
import Tith.Lib.Table
import Tith.Nodelist.Server
import Tith.Wire.Describe
import Tith.Wire.ReadItem

/-!
This module contains the conversion of a native Message into a legacy packed message, and the inverse
conversion that it checks itself with.
-/

namespace Tith

namespace Legacy

inductive ConvertError where
  | legacy (error : ExportError)
  | address (error : AddressError)
  | unrepresentable (what : String)
  | missing (what : String)
  deriving DecidableEq, Repr

def ConvertError.describe (error : ConvertError) : String :=
  match error with
  | .legacy error => error.describe
  | .address error => error.describe
  | .unrepresentable what => what ++ " has no legacy representation"
  | .missing what => "the conversion context has no " ++ what

inductive DomainCase where
  | preserve
  | lowercase
  deriving DecidableEq, Repr

def DomainCase.apply (domainCase : DomainCase) (domain : String) : String :=
  match domainCase with
  | .preserve => domain
  | .lowercase => String.ofList (domain.toList.map Char.toLower)

/--
What a conversion needs and the item does not carry. `areaTags` has the legacy tag of each area name.
-/
structure Context where
  packetOrigin : Address
  packetDestination : Address
  domain : String
  domainCase : DomainCase
  product : String
  version : String
  areaTags : Table String String

namespace Context

variable (context : Context)

def legacyAddress (address : Address) : Except ConvertError Address :=
  let domain := if address.domain = context.domain then context.domainCase.apply address.domain else address.domain
  (Address.new domain address.zone address.net address.node address.point).mapError
    fun _ => .unrepresentable "a Domain after legacy case policy"

def areaTag (name : String) : Except ConvertError String :=
  context.areaTags[name]?.okOr (.missing "legacy tag for this AreaName")

def nativeArea (tag : List Char) : Option String :=
  (context.areaTags.toList.find? fun (_, value) => value.toList = tag).map Prod.fst

end Context

inductive Fidelity where
  | canonical
  | compatibility
  deriving DecidableEq, Repr

structure Converted where
  message : PackedMessage
  fidelity : Fidelity
  diagnostic : Option String
  deriving DecidableEq, Repr

def one (x : Except ConvertError α) : Except ConvertError (List α) := x.map fun a => [a]

def parseControl (payload : List Char) : Except ConvertError Control := do
  let _ ← (control payload).mapError .legacy
  .ok (.ofPayload payload)

def localTime (timestamp : UInt64) (offset : Int) : Except ConvertError Int :=
  if 2 ^ 63 ≤ timestamp.toNat ∨ ¬(-2 ^ 63 ≤ timestamp.toNat + offset ∧ timestamp.toNat + offset < 2 ^ 63) then
    .error (.unrepresentable "Timestamp")
  else
    .ok (timestamp.toNat + offset)

def timezone (offset : Int) : Except ConvertError (List Char) :=
  if offset % 60 ≠ 0 then
    .error (.unrepresentable "a TimestampOffset which is not a whole minute")
  else
    let minutes := (offset / 60).natAbs
    if 99 < minutes / 60 then
      .error (.unrepresentable "a TimestampOffset beyond 99 hours")
    else
      .ok ((if offset < 0 then ['-'] else []) ++ padded 2 (minutes / 60) ++ padded 2 (minutes % 60))

def parseTimezone (value : List Char) : Option Int :=
  let (sign, digits) : Int × List Char := match value with
    | '-' :: rest => (-1, rest)
    | _ => (1, value)
  if digits.length ≠ 4 then
    none
  else do
    let _ ← Text.digits? digits
    let hours ← Text.digits? (digits.take 2)
    let minutes ← Text.digits? (digits.drop 2)
    if minutes < 60 then some (sign * (hours * 3600 + minutes * 60)) else none

def validateFileSpec (name : List Char) : Except ConvertError Unit :=
  if name = [] ∨ name.any (fun c => ['\x00', ' ', ',', '/', '\\'].contains c) ∨ name = ".".toList ∨
      name = "..".toList then
    .error (.unrepresentable "attached Filename")
  else
    .ok ()

def byteLength (text : List Char) : Nat := (utf8 text).length

def isGraphic (c : Char) : Bool := '!' ≤ c && c ≤ '~'

section Build

variable (read : ReadMessage) (context : Context)

/--
Two or three short printable fields are a product with its version.
-/
def isUsable (software : List Char) : Bool :=
  let fields := software.splitOn ' '
  2 ≤ fields.length && fields.length ≤ 3 &&
    fields.all fun field => 1 ≤ field.length && field.length ≤ 10 && field.all isGraphic

def viaLine (via : ViaData) : Except ConvertError (List Char) :=
  if 2 ^ 63 ≤ via.timestamp.toNat then
    .error (.unrepresentable "Via Timestamp")
  else do
    let time := civilFromLocal via.timestamp.toNat
    let software :=
      if isUsable via.software.toList then
        via.software.toList
      else
        context.product.toList ++ ' ' :: context.version.toList
    let address ← context.legacyAddress via.address
    let address ← (fiveDimensional address).mapError .address
    .ok ("Via ".toList ++ address ++ " @".toList ++ padded 4 time.year.toNat ++ padded 2 time.month ++
      padded 2 time.day ++ '.' :: padded 2 time.hour ++ padded 2 time.minute ++ padded 2 time.second ++
      ".UTC ".toList ++ software)

def viaParagraph (via : ViaData) : Except ConvertError (List Char) := do
  (control (← viaLine context via)).mapError .legacy

def endingWith (packetOrigin : Address) (path : List Address) : List Address :=
  if path.getLast? ≠ some packetOrigin then path ++ [packetOrigin] else path

def spth : Except ConvertError (List Char) := do
  let path ← read.vias.mapM fun via => context.legacyAddress via.address
  let packetOrigin ← context.legacyAddress context.packetOrigin
  let line := "SPTH: ".toList ++ formatTrimmedList (endingWith packetOrigin path)
  if 80 < byteLength line + 2 then
    .error (.unrepresentable "an SPTH line beyond 80 bytes")
  else
    .ok line

def tearLineOf (value : Option String) : List Char :=
  match value with
  | some value => if value.toList ≠ [] then "--- ".toList ++ value.toList else "---".toList
  | none => "---".toList

def originLineOf (value : Option String) : List Char := " * Origin: ".toList ++ (value.getD "").toList

/--
The addresses that the packet's domain and zone can express, in order and without repetition.
-/
def recipients : List Address :=
  let addresses := read.seenBy.filter fun address =>
    address.domain = context.domain ∧ address.zone = context.packetOrigin.zone ∧ address.point = 0
  (addresses.mergeSort fun a b => a.net < b.net || (a.net == b.net && a.node ≤ b.node)).destutter (· ≠ ·)

def seenByEntries (previousNet : Option Int) (addresses : List Address) : List (List Char) :=
  match addresses with
  | [] => []
  | address :: rest =>
    let entry :=
      if previousNet = some address.net then
        showInt address.node
      else
        showInt address.net ++ '/' :: showInt address.node
    entry :: seenByEntries (some address.net) rest

def seenByStart : List Char := "SEEN-BY:".toList

/--
The entries on lines of at most 79 bytes, the last of them being `line`.
-/
def seenByLines (line : List Char) (entries : List (List Char)) : List (List Char) :=
  match entries with
  | [] => [line]
  | entry :: rest =>
    if 79 < line.length + 1 + entry.length then
      line :: seenByLines (seenByStart ++ ' ' :: entry) rest
    else
      seenByLines (line ++ ' ' :: entry) rest

def hasLineBreak (text : List Char) : Bool := text.any fun c => c = '\r' ∨ c = '\n'

def footerLines : Except ConvertError (List (List Char)) :=
  let tear := tearLineOf read.data.tearLine
  let origin := originLineOf read.data.originLine
  let entries := seenByEntries none (recipients read context)
  if hasLineBreak tear then
    .error (.unrepresentable "a TearLine containing a line break")
  else if 79 < byteLength origin then
    .error (.unrepresentable "an Origin line beyond 79 bytes")
  else if hasLineBreak origin then
    .error (.unrepresentable "an OriginLine containing a line break")
  else if entries = [] then
    .error (.unrepresentable "an EchoMail with no representable SEEN-BY address")
  else
    .ok (tear :: origin :: seenByLines seenByStart entries)

def echomailFooter : Except ConvertError (List Char) := do
  let lines ← footerLines read context
  .ok (lines.flatMap (· ++ ['\r']))

def pointControl (name : String) (point : UInt16) : Except ConvertError (List Control) :=
  if point ≠ 0 then one (parseControl (name.toList ++ decimal point)) else .ok []

def addressingControls (destination : Address) : Except ConvertError (List Control) := do
  let origin := read.signing.origin
  let msgto ← parseControl ("MSGTO: ".toList ++ destination.display.toList)
  let destinationText ← (threeDimensional destination).mapError .address
  let originText ← (threeDimensional origin).mapError .address
  let intl ← parseControl ("INTL ".toList ++ destinationText ++ ' ' :: originText)
  let topt ← pointControl "TOPT " destination.point
  let fmpt ← pointControl "FMPT " origin.point
  .ok (msgto :: intl :: topt ++ fmpt)

def destinationControls : Except ConvertError (List Control) :=
  match read.data.destination with
  | none => .ok []
  | some destination => addressingControls read destination.address

def pathControls : Except ConvertError (List Control) :=
  match read.data.area with
  | none => .ok []
  | some _ => do
    let line ← spth read context
    one (parseControl line)

def associatedControl (attachment : AttachmentData) : Except ConvertError Control := do
  let filename ← attachment.filename.okOr (.unrepresentable "an attached File without Filename")
  validateFileSpec filename.toList
  parseControl ("ASSOC: ".toList ++ filename.toList)

def optionalControl (name : String) (value : Option String) : Except ConvertError (List Control) :=
  match value with
  | none => .ok []
  | some value => one (parseControl (name.toList ++ ": ".toList ++ value.toList))

def stripMarks (paragraph : List Char) : List Char :=
  ((paragraph.dropWhile (· = controlA)).reverse.dropWhile (· = '\r')).reverse

def messageControls (signingControls : List (List Char)) : Except ConvertError (List Control) := do
  let chrs ← parseControl "CHRS: UTF-8 4".toList
  let signing ← signingControls.mapM fun value => parseControl (stripMarks value)
  let msgid ← optionalControl "MSGID" read.data.messageId
  let reply ← optionalControl "REPLY" (read.data.replyTo.map Prod.snd)
  let addressing ← destinationControls read
  let offset := (read.data.timestampOffset.map Int64.toInt).getD 0
  let tzutc ← parseControl ("TZUTC: ".toList ++ (← timezone offset))
  let assoc ← read.data.attachments.mapM associatedControl
  let path ← pathControls read context
  let kludges ← read.data.additionalKludgeLines.mapM fun line => parseControl line.toList
  .ok (chrs :: signing ++ msgid ++ reply ++ addressing ++ tzutc :: assoc ++ path ++ kludges)

def warningText (warning : Option String) : Except ConvertError (List Char) :=
  match warning with
  | none => .ok []
  | some warning => do
    let text ← (encodeBody warning.toList).mapError .legacy
    .ok (text ++ ['\r'])

def messageFoot : Except ConvertError (List Char) :=
  match read.data.area with
  | some _ => echomailFooter read context
  | none => do
    let paragraphs ← read.vias.mapM (viaParagraph context)
    .ok paragraphs.flatten

/--
The text of a packed message: a warning, the folded text, and what goes below it.
-/
def messageBody (warning : Option String) : Except ConvertError (List Char) := do
  let head ← warningText warning
  let text ← (encodeBody read.data.text.toList).mapError .legacy
  let foot ← messageFoot read context
  .ok (head ++ text ++ foot)

def messageAttributes : Except ConvertError UInt16 :=
  let masked := read.data.legacyAttributes.getD 0 &&& legacyAttributesSignedMask
  if 2 ^ 16 ≤ masked.toNat then
    .error (.unrepresentable "LegacyAttributes")
  else if read.data.attachments ≠ [] then
    .ok (masked.toUInt16 ||| attributeFileAttached)
  else
    .ok (masked.toUInt16 &&& ~~~attributeFileAttached)

/--
The list of the attached files takes the place of a subject.
-/
def messageSubject : Except ConvertError (List Char) :=
  if read.data.attachments = [] then
    .ok read.data.subject.toList
  else if read.data.subject.toList ≠ [] then
    .error (.unrepresentable "a Subject alongside attached files")
  else
    .ok ([' '].intercalate (read.data.attachments.map fun attachment => (attachment.filename.getD "").toList))

def messageArea : Except ConvertError (Option (List Char)) :=
  match read.data.area with
  | none => .ok none
  | some area => do
    let tag ← context.areaTag area.name
    .ok (some tag.toList)

def build (warning : Option String) (signingControls : List (List Char)) : Except ConvertError PackedMessage := do
  let offset := (read.data.timestampOffset.map Int64.toInt).getD 0
  let «local» ← localTime read.data.timestamp offset
  let controls ← messageControls read context signingControls
  let text ← messageBody read context warning
  let attributes ← messageAttributes read
  let subject ← messageSubject read
  let origin ← (endpoint context.packetOrigin).mapError .address
  let destination ← (endpoint context.packetDestination).mapError .address
  let dateTime ← (formatDateTime «local»).mapError .legacy
  let area ← messageArea read context
  .ok {
    origin, destination, attributes, dateTime, subject, controls, text, area
    toUser := read.data.toUser.toList
    fromUser := read.data.fromUser.toList }

end Build

section Inverse

def isFooterLine (line : List Char) : Bool :=
  "SEEN-BY:".toList.isPrefixOf line || " * Origin: ".toList.isPrefixOf line || "---".toList.isPrefixOf line

/--
The footer at the end of the reversed lines, up to the tear line.
-/
def footerOf (reversed : List (List Char)) : List (List Char) :=
  match reversed with
  | [] => []
  | line :: rest =>
    if "---".toList.isPrefixOf line then
      [line]
    else if isFooterLine line then
      footerOf rest ++ [line]
    else
      []

/--
Splits the body of an EchoMail into its text and its footer.
-/
def splitFooter (body : List Char) : List Char × List (List Char) :=
  let lines := body.splitOn '\r'
  let lines := if lines.getLast? = some [] then lines.dropLast else lines
  let footer := footerOf lines.reverse
  let consumed := (footer.map fun line => line.length + 1).sum
  (body.take (body.length - consumed), footer)

def footerValues (footer : List (List Char)) : Option (List Char) × Option (List Char) :=
  footer.foldl step (none, none)
where
  step (values : Option (List Char) × Option (List Char)) (line : List Char) :=
    match " * Origin: ".toList.isPrefixOf? line with
    | some value => (values.1, some value)
    | none =>
      match "---".toList.isPrefixOf? line with
      | some value => (some ((" ".toList.isPrefixOf? value).getD value), values.2)
      | none => values

/--
Takes the Via paragraphs off the end of a body. Every turn takes at least the Control-A.
-/
def withoutVias (body : List Char) : List Char :=
  go body.length body
where
  go (fuel : Nat) (body : List Char) : List Char :=
    match fuel, Text.rsplitOnce controlA body with
    | fuel + 1, some (before, paragraph) =>
      let paragraph := if paragraph.getLast? = some '\r' then paragraph.dropLast else paragraph
      if "Via ".toList.isPrefixOf paragraph ∧ ¬paragraph.contains '\r' then
        go fuel before
      else
        body
    | _, _ => body

def messageBodyFields (message : PackedMessage) : List Char × Option (List Char) × Option (List Char) :=
  match message.area with
  | some _ =>
    let (text, footer) := splitFooter message.text
    (decodeBody text, footerValues footer)
  | none => (decodeBody (withoutVias message.text), none, none)

/--
A reconstructed child with the error of the source.
-/
def child (typeCode : UInt64) (value : List UInt8) (what : String) : Except ConvertError OwnedTlv :=
  (OwnedTlv.new typeCode value).mapError fun _ => .unrepresentable what

def reconstructed (typeCode : UInt64) (value : List UInt8) : Except ConvertError OwnedTlv :=
  child typeCode value "a reconstructed child"

def reconstructedText (typeCode : UInt64) (value : Option (List Char)) : Except ConvertError (List OwnedTlv) :=
  match value with
  | none => .ok []
  | some value => one (reconstructed typeCode (utf8 value))

section

variable (message : PackedMessage) (context : Context) (read : ReadMessage)

def tithsignChunk (control : Control) : Except ConvertError (List Char) := do
  let chunk ← ("1 ".toList.isPrefixOf? control.value).okOr (.unrepresentable "a TITHSIGN version")
  (("+ ".toList.isPrefixOf? chunk).or (". ".toList.isPrefixOf? chunk)).okOr (.unrepresentable "a TITHSIGN marker")

/--
SignedOrigin and its key, which come back from TITHSIGN as they are.
-/
def reconstructSignedOrigin (base64 : Nodelist.Base64) : Except ConvertError (List UInt8) := do
  let controls := message.controls.filter fun control => eqIgnoreAsciiCase control.name "TITHSIGN".toList
  let chunks ← controls.mapM tithsignChunk
  let encoded := chunks.flatten
  if encoded = [] then
    .ok []
  else
    (base64.decode encoded).okOr (.unrepresentable "a TITHSIGN encoding")

def reconstructOriginKey (originKey : Option PublicKey) : Except ConvertError (List OwnedTlv) :=
  match originKey with
  | none => .ok []
  | some key => one (reconstructed Types.publicKey key.toList)

def reconstructOrigin : Except ConvertError (List OwnedTlv) := do
  let msgid ← (findControl message.controls "MSGID").okOr (.missing "a MSGID to resolve Origin from")
  let text := (msgid.value.splitOn ' ').headD []
  let origin ← (Address.fromStr (String.ofList text)).mapError
    fun _ => ConvertError.unrepresentable "a MSGID origin which is not a TTS address"
  let originChild ← reconstructed Types.origin (utf8 origin.display.toList)
  let key ← reconstructOriginKey read.signing.originKey
  .ok (originChild :: key)

def reconstructDestination : Except ConvertError (List OwnedTlv) :=
  match findControl message.controls "MSGTO" with
  | none => .ok []
  | some destination => do
    let address ← (Address.fromStr (String.ofList destination.value)).mapError
      fun _ => ConvertError.unrepresentable "a MSGTO which is not a TTS address"
    one (reconstructed Types.destination (utf8 address.display.toList))

def reconstructArea : Except ConvertError (List OwnedTlv) :=
  match message.area with
  | none => .ok []
  | some tag => do
    let name ← (context.nativeArea tag).okOr (.missing "a native AreaName for this legacy tag")
    let areaName ← child Types.areaName (utf8 name.toList) "AreaName"
    one (reconstructed Types.area areaName.encode)

def reconstructAttachedTimestamp (timestamp : Option UInt64) : Except ConvertError (List OwnedTlv) :=
  match timestamp with
  | none => .ok []
  | some timestamp => one (child Types.timestamp (encodeU64 timestamp) "attached Timestamp")

def reconstructFile (name : List Char) (attachment : AttachmentData) : Except ConvertError OwnedTlv :=
  if some name ≠ attachment.filename.map String.toList then
    .error (.unrepresentable "a reordered FileList")
  else do
    let filename ← child Types.filename (utf8 name) "Filename"
    let timestamp ← reconstructAttachedTimestamp attachment.timestamp
    let contents ← child Types.contents attachment.contents "Contents"
    reconstructed Types.file (concatenate (filename :: timestamp ++ [contents]))

def reconstructFiles : Except ConvertError (List OwnedTlv) :=
  if message.hasFileAttached then
    let listed := (message.subject.splitOn ' ').filter (· ≠ [])
    if listed.length ≠ read.data.attachments.length then
      .error (.unrepresentable "a FileList which does not match the File children")
    else
      (listed.zip read.data.attachments).mapM fun (name, attachment) => reconstructFile name attachment
  else
    .ok []

def reconstructReply : Except ConvertError (List OwnedTlv) :=
  match findControl message.controls "REPLY" with
  | none => .ok []
  | some reply => do
    let (address, _) ← read.data.replyTo.okOr (.missing "a ReplyTo address")
    let addressChild ← child Types.address (utf8 address.display.toList) "ReplyTo Address"
    one (reconstructed Types.replyTo (addressChild.encode ++ utf8 reply.value))

def reconstructTimestamp : Except ConvertError (OwnedTlv × Int) := do
  let «local» ← (parseDateTime message.dateTime).mapError .legacy
  let offset ← ((findControl message.controls "TZUTC").bind fun control => parseTimezone control.value).okOr
    (.missing "a TZUTC to resolve the Timestamp")
  if 0 ≤ «local» - offset ∧ «local» - offset < 2 ^ 64 then
    let timestamp ← reconstructed Types.timestamp (encodeU64 (UInt64.ofNat («local» - offset).toNat))
    .ok (timestamp, offset)
  else
    .error (.unrepresentable "a Timestamp before the epoch")

def reconstructAttributes : Except ConvertError (List OwnedTlv) :=
  let masked := message.attributes.toUInt64 &&& legacyAttributesSignedMask
  if masked ≠ 0 then one (reconstructed Types.legacyAttributes (encodeU64 masked)) else .ok []

def reconstructOffset (offset : Int) : Except ConvertError (List OwnedTlv) :=
  if offset ≠ 0 then one (reconstructed Types.timestampOffset (encodeI64 (Int64.ofInt offset))) else .ok []

/--
The children behind the signers, in their order.
-/
def reconstructFields : Except ConvertError (List OwnedTlv) := do
  let destination ← reconstructDestination message
  let (timestamp, offset) ← reconstructTimestamp message
  let toUser ← reconstructed Types.toUserName (utf8 message.toUser)
  let fromUser ← reconstructed Types.fromUserName (utf8 message.fromUser)
  let subject ← reconstructed Types.subject (if message.hasFileAttached then [] else utf8 message.subject)
  let (text, tearLine, originLine) := messageBodyFields message
  let text ← reconstructed Types.messageText (utf8 text)
  let area ← reconstructArea message context
  let files ← reconstructFiles message read
  let attributes ← reconstructAttributes message
  let offset ← reconstructOffset offset
  let tearLine ← reconstructedText Types.tearLine tearLine
  let originLine ← reconstructedText Types.originLine originLine
  let messageId ← reconstructedText Types.messageId ((findControl message.controls "MSGID").map (·.value))
  let reply ← reconstructReply message read
  .ok (destination ++ [timestamp, toUser, fromUser, subject, text] ++ area ++ files ++ attributes ++ offset ++
    tearLine ++ originLine ++ messageId ++ reply)

/--
The encoded children that a canonical import would produce.
-/
def reconstruct (base64 : Nodelist.Base64) : Except ConvertError (List UInt8) := do
  let origin ← reconstructOrigin message read
  let signedOrigin ← reconstructSignedOrigin message base64
  let fields ← reconstructFields message context read
  .ok (concatenate origin ++ signedOrigin ++ concatenate fields)

/--
Why a canonical conversion is not available, if it is not.
-/
def selfCheck (c : Crypto) (base64 : Nodelist.Base64) (resolver : KeyResolver) : Except String Unit := do
  let children ← (reconstruct message context read base64).mapError ConvertError.describe
  if children ≠ read.signing.signedRegion then
    .error "the reconstructed signed region differs from the original bytes"
  else do
    let signature ← read.signing.signature.okOr "no Signature to verify"
    let effective := read.signing.signedOrigin.getD read.signing.origin
    let key ← ((read.signing.signedOriginKey.or read.signing.originKey).or (resolver effective)).okOr
      "no signer key is available to verify the reconstruction"
    match c.verifyTlv children signature key with
    | .ok true => .ok ()
    | .ok false => .error "the retained Signature does not verify over the reconstruction"
    | .error error => .error error.describe

end

end Inverse

section ToLegacy

variable (c : Crypto) (base64 : Nodelist.Base64) (read : ReadMessage) (context : Context)
  (authentication : ItemAuthentication) (warning : Option String) (resolver : KeyResolver)

def isSigningControl (value : Control) : Bool :=
  eqIgnoreAsciiCase value.name "TITHSIG".toList || eqIgnoreAsciiCase value.name "TITHSIGN".toList

/--
Invalid or Unsigned input is not eligible for a canonical export, and neither is one with a warning.
-/
def isEligible : Bool :=
  (authentication = .originValid || authentication = .signedOriginValid) && warning.isNone &&
    read.signing.signature.isSome

def ineligibleReason : String :=
  if warning.isSome then
    "a delivery warning is present, so this object cannot also reconstruct the item"
  else if read.signing.signature.isNone then
    "the item is Unsigned and has no signed region to reconstruct"
  else
    match authentication with
    | .originInvalid | .signedOriginInvalid => "the item signature does not match its bytes"
    | _ => "the item has no end-to-end authentication"

def signedOriginControls (signedOriginEncoding : List UInt8) : Except ConvertError (List (List Char)) :=
  if signedOriginEncoding ≠ [] then
    (tithsignControls (base64.encode signedOriginEncoding)).mapError .legacy
  else
    .ok []

def signingControlsOf (signature : Signature) (signedOriginEncoding : List UInt8)
    : Except ConvertError (List (List Char)) := do
  let tithsign ← signedOriginControls base64 signedOriginEncoding
  let tithsig ← (tithsigControls (base64.encode signature.toList)).mapError .legacy
  .ok (tithsign ++ tithsig)

def toLegacy : Except ConvertError Converted := do
  let message ← build read context warning []
  match isEligible read authentication warning, read.signing.signature with
  | true, some signature => do
    let signingControls ← signingControlsOf base64 signature read.signing.signedOriginEncoding
    let candidate ← build read context none signingControls
    match selfCheck candidate context read c base64 resolver with
    | .ok () => .ok { message := candidate, fidelity := .canonical, diagnostic := none }
    | .error reason =>
      .ok {
        message := { message with controls := message.controls.filter fun value => !isSigningControl value }
        fidelity := .compatibility
        diagnostic := some reason }
  | _, _ =>
    .ok {
      message
      fidelity := .compatibility
      diagnostic := some (ineligibleReason read authentication warning) }

end ToLegacy

end Legacy

end Tith
