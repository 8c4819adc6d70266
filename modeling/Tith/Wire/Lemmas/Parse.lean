import Tith.Wire.Lemmas.Layout

/-!
This module contains the parses of signed items: the values that both the validator and the readers take
from the children, and the cursors between them.
-/

namespace Tith

open Cursor StateExcept

structure MessageParse (resolver : KeyResolver) (children : List OwnedTlv) where
  originEntry : Nat × OwnedTlv
  origin : AddressPart
  signedOrigin : Option AddressPart
  destination : Option Identity
  words : MessageWords
  controls : MessageControls
  index : Nat
  signatureTlv : OwnedTlv
  requestIdentifier : UInt64
  route : ItemRoute
  lines : List String
  atOrigin : Cursor
  afterOrigin : Cursor
  afterSigned : Cursor
  afterHead : Cursor
  afterWords : Cursor
  afterControls : Cursor
  afterRequest : Cursor
  afterRoute : Cursor
  afterLines : Cursor
  takeOrigin : take Types.origin "Message Origin" (Cursor.new children) = .ok (originEntry, atOrigin)
  readOrigin : readAddressPart originEntry.2 atOrigin = .ok (origin, afterOrigin)
  readSigned : optionalAddressPart Types.signedOrigin afterOrigin = .ok (signedOrigin, afterSigned)
  readDestination : readDestination resolver afterSigned = .ok (destination, afterHead)
  readWords : readWords afterHead = .ok (words, afterWords)
  readControls : readControls afterWords = .ok (controls, afterControls)
  foundSignature : optional Types.signature afterControls = .ok (some (index, signatureTlv), ⟨children, index + 1⟩)
  readRequest : takeNumber Types.requestIdentifier "Message RequestIdentifier" ⟨children, index + 1⟩ =
    .ok (requestIdentifier, afterRequest)
  readRoute : readMessageRoute afterRequest = .ok (route, afterRoute)
  readLines : repeatedValues Types.additionalKludgeLine textValue afterRoute = .ok (lines, afterLines)
  finished : finish afterLines = .ok ((), afterLines)

section Message

variable {c : Crypto} {resolver : KeyResolver} {children : List OwnedTlv} {value : OwnedTlv}

structure MessageParse.Valid (parse : MessageParse resolver children) : Prop where
  head : children.head?.map OwnedTlv.typeCode = some Types.origin
  text : validateMessageText parse.words.text = .ok ()
  kind : parse.destination.isSome ≠ parse.words.area.isSome
  controls : parse.controls.Valid parse.destination
  lines : KludgesValid parse.lines

def MessageParse.item (parse : MessageParse resolver children) (value : OwnedTlv) (signer : Identity)
    (signature : Signature) (authenticated : Bool)
    : ValidatedItem :=
  { ValidatedItem.ofKind (if parse.destination.isSome then .netMail else .echoMail)
      parse.requestIdentifier value with
    duplicateIdentity := if authenticated then some ⟨.message, signer, signature⟩ else none
    authentication := some (itemAuthentication parse.origin.address signer authenticated)
    provenance := some ⟨parse.origin.address, some signer⟩
    destination := parse.destination
    area := parse.words.area.map AreaData.name }

/--
What a signature that was checked says about an item.
-/
def signedItem (kind : SignedItemKind) (origin : AddressPart) (signer : Identity) (signature : Signature)
    (authenticated : Bool)
    : ItemSignature where
  provenance := ⟨origin.address, some signer⟩
  authentication := itemAuthentication origin.address signer authenticated
  duplicateIdentity := if authenticated then some ⟨kind, signer, signature⟩ else none

structure VerifiedSigner (c : Crypto) (resolver : KeyResolver) (children : List OwnedTlv) (origin : AddressPart)
    (signedOrigin : Option AddressPart) (index : Nat) (signatureTlv : OwnedTlv) (signer : Identity)
    (signature : Signature) (authenticated : Bool)
    : Prop where
  hsignature : signatureValue signatureTlv = .ok signature
  hsigner : parseProvenance origin signedOrigin resolver = .ok signer
  hverified : c.verifyTlv (encodedPrefix children index) signature signer.publicKey = .ok authenticated

theorem VerifiedSigner.verifyItem {origin : AddressPart} {signedOrigin : Option AddressPart} {index : Nat}
    {signatureTlv : OwnedTlv} {signer : Identity} {signature : Signature} {authenticated : Bool}
    (h : VerifiedSigner c resolver children origin signedOrigin index signatureTlv signer signature authenticated)
    (kind : SignedItemKind)
    : verifyItem c kind children origin signer index signature =
        .ok (signedItem kind origin signer signature authenticated) := by
  simp only [Tith.verifyItem, h.hverified, Except.mapError, Except.bind_of_ok]
  rfl

theorem MessageParse.validate (parse : MessageParse resolver children)
    (hchildren : parseChildren value.value = .ok children) (hvalid : parse.Valid) {signer : Identity}
    {signature : Signature} {authenticated : Bool}
    (hverified : VerifiedSigner c resolver children parse.origin parse.signedOrigin parse.index parse.signatureTlv
      signer signature authenticated)
    : validateMessage c value resolver = .ok (parse.item value signer signature authenticated) := by
  have hhead := readMessageHead_iff.mpr ⟨hvalid.head, parse.originEntry, parse.atOrigin, parse.afterOrigin,
    parse.afterSigned, parse.takeOrigin, parse.readOrigin, parse.readSigned, parse.readDestination⟩
  have htext := readMessageText_iff.mpr ⟨parse.words, parse.readWords, rfl, hvalid.text, hvalid.kind⟩
  have hbody : readMessageBody c resolver parse.destination parse.afterWords = .ok ((), parse.afterControls) :=
    readMessageBody_iff.mpr ⟨parse.controls, parse.readControls, hvalid.controls⟩
  have hsuffix := readMessageSuffix_iff.mpr ⟨parse.afterRequest, parse.afterRoute, parse.afterLines,
    parse.route, parse.lines, parse.readRequest, parse.readRoute, parse.readLines, hvalid.lines,
    parse.finished⟩
  have hsignature : readMessageSignature c children resolver parse.origin parse.signedOrigin
      parse.afterControls = .ok (signedItem .message parse.origin signer signature authenticated,
        ⟨children, parse.index + 1⟩) := by
    rw [readMessageSignature, bind_of_ok parse.foundSignature]
    dsimp only
    rw [bind_of_ok (lift_of_ok hverified.hsigner), bind_of_ok (lift_of_ok hverified.hsignature)]
    exact lift_of_ok (hverified.verifyItem .message)
  exact validateMessage_iff.mpr ⟨⟨children, parse.origin, parse.signedOrigin, parse.destination,
    parse.words.area, _, parse.requestIdentifier, parse.afterHead, parse.afterWords, parse.afterControls,
    ⟨children, parse.index + 1⟩, parse.afterLines, hchildren, hhead, htext, hbody, hsignature, hsuffix⟩, rfl⟩

theorem readSignature_of_found (children : List OwnedTlv) {cursor next : Cursor} {index : Nat} {signatureTlv : OwnedTlv}
    {signature : Signature}
    (hfound : optional Types.signature cursor = .ok (some (index, signatureTlv), next))
    (hsignature : signatureValue signatureTlv = .ok signature)
    : readSignature children cursor = .ok ((some signature, encodedPrefix children index), next) := by
  rw [readSignature, bind_of_ok hfound]
  dsimp only
  rw [bind_of_ok (lift_of_ok hsignature)]
  rfl

theorem MessageParse.readMessage (parse : MessageParse resolver children)
    (htype : value.typeCode = Types.message) (hchildren : parseChildren value.value = .ok children)
    {key : Option PublicKey} (hkey : parseKey parse.origin.publicKey = .ok key) {parts : SignedOriginParts}
    (hparts : parts.Of parse.signedOrigin) {signature : Signature}
    (hsignature : signatureValue parse.signatureTlv = .ok signature)
    : readMessage value resolver = .ok
        { data := messageData parse.destination parse.words parse.controls parse.lines
          signing := itemSigning (parse.origin.address, key) parts
            (some signature, encodedPrefix children parse.index)
          requestIdentifier := parse.requestIdentifier
          vias := parse.route.vias
          seenBy := parse.route.seenBy } := by
  -- The message that the reader returns for a parse.
  have horigin : Tith.readOrigin "Message Origin" (Cursor.new children) =
      .ok ((parse.origin.address, key), parse.afterOrigin) :=
    readOrigin_run.mpr ⟨_, _, parse.origin, parse.takeOrigin, parse.readOrigin, rfl, hkey⟩
  have hsigned := readSignedOrigin_run.mpr ⟨parse.signedOrigin, parse.readSigned, hparts⟩
  have hread := readSignature_of_found children parse.foundSignature hsignature
  exact (readMessage_iff htype).mpr ⟨⟨children, _, parts, parse.destination, parse.words, parse.controls, _,
    parse.requestIdentifier, parse.route, parse.lines, _, _, _, _, _, _, _, _, _, _, hchildren, horigin,
    hsigned, parse.readDestination, parse.readWords, parse.readControls, hread, parse.readRequest,
    parse.readRoute, parse.readLines, parse.finished⟩, rfl⟩

end Message

end Tith
