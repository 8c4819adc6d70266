import Tith.Lib.Bytes
import Tith.Wire.Identity
import Tith.Wire.Tlv
import Tith.Wire.Types

/-!
This module contains the common values of TTS-0003 and the verification of signed containers.
-/

namespace Tith

inductive BundleError where
  | framing (error : FramingError)
  | address (error : AddressError)
  | integer (error : IntegerError)
  | crypto (error : CryptoError)
  | invalidUtf8
  | duplicate (name : String)
  | missing (name : String)
  | unexpected (name : String)
  | wrongLength (name : String)
  | unknownKey (address : Address)
  | invalidSignature
  | incorrectHeaderHash
  deriving DecidableEq

structure VerifiedSignedTlv where
  encoded : List UInt8
  identity : Identity
  data : List OwnedTlv
  deriving DecidableEq

inductive UnknownChildren where
  | allow
  | reject
  deriving DecidableEq

/--
`parse_sequence`, with its error as the one of a bundle.
-/
def parseChildren (bytes : List UInt8) : Except BundleError (List OwnedTlv) :=
  (parseSequence bytes).mapError .framing

def textValue (value : OwnedTlv) : Except BundleError String :=
  (Bytes.toString? value.value).okOr .invalidUtf8

def addressValue (value : OwnedTlv) : Except BundleError Address := do
  let text ← textValue value
  (Address.fromStr text).mapError .address

def publicKeyValue (value : OwnedTlv) : Except BundleError PublicKey :=
  (fixed 32 value.value).okOr (.wrongLength "PublicKey")

def signatureValue (value : OwnedTlv) : Except BundleError Signature :=
  (fixed 64 value.value).okOr (.wrongLength "Signature")

def numberValue (value : OwnedTlv) : Except BundleError UInt64 :=
  (decodeU64 value.value).mapError .integer

/--
The identity that an address and the key behind it name: the key of an anonymous address is that
key, the key of any other address is the one the receiver knows.
-/
def identity (addressTlv : OwnedTlv) (publicKeyTlv : Option OwnedTlv) (resolver : KeyResolver)
    : Except BundleError Identity := do
  let address ← addressValue addressTlv
  if address.isAnonymous then
    let keyTlv ← publicKeyTlv.okOr (.missing "PublicKey for anonymous address")
    let publicKey ← publicKeyValue keyTlv
    .ok { address, publicKey }
  else
    let publicKey ← (resolver address).okOr (.unknownKey address)
    .ok { address, publicKey }

/--
The children of a signed container, as they are found.
-/
structure SignedTlvParts where
  origin : Option OwnedTlv
  publicKey : Option OwnedTlv
  signedData : OwnedTlv
  signature : OwnedTlv

/--
The data and the signature among the children behind the origin.
-/
def scanSigned (unknownChildren : UnknownChildren) (children : List OwnedTlv)
    (signedData signature : Option OwnedTlv)
    : Except BundleError (Option OwnedTlv × Option OwnedTlv) :=
  match children with
  | [] => .ok (signedData, signature)
  | child :: children =>
    if child.typeCode = Types.signedData ∧ signedData = none then
      scanSigned unknownChildren children (some child) signature
    else if child.typeCode = Types.signature ∧ signedData ≠ none ∧ signature = none then
      scanSigned unknownChildren children signedData (some child)
    else if Types.isDefined child.typeCode then
      .error (.unexpected "defined SignedTLV child")
    else if unknownChildren = .reject then
      .error (.unexpected "unknown SignedTLV child")
    else
      scanSigned unknownChildren children signedData signature

/--
The origin of a container, with the key behind it if it is anonymous, and the other children.
-/
def takeOrigin (children : List OwnedTlv)
    : Except BundleError (Option OwnedTlv × Option OwnedTlv × List OwnedTlv) :=
  match children with
  | [] => .ok (none, none, [])
  | first :: rest =>
    if first.typeCode ≠ Types.origin then
      .ok (none, none, first :: rest)
    else do
      let address ← addressValue first
      match address.isAnonymous, rest with
      | true, next :: rest =>
        if next.typeCode = Types.publicKey then
          .ok (some first, some next, rest)
        else
          .error (.missing "PublicKey after anonymous Origin")
      | true, [] => .error (.missing "PublicKey after anonymous Origin")
      | false, rest =>
        if rest.head?.any (fun next => next.typeCode = Types.publicKey) then
          .error (.unexpected "PublicKey after non-anonymous Origin")
        else
          .ok (some first, none, rest)

def signedTlvParts (value : OwnedTlv) (unknownChildren : UnknownChildren)
    : Except BundleError SignedTlvParts :=
  if value.typeCode ≠ Types.signedTlv then
    .error (.unexpected "non-SignedTLV")
  else do
    let children ← parseChildren value.value
    let (origin, publicKey, children) ← takeOrigin children
    let (signedData, signature) ← scanSigned unknownChildren children none none
    let signedData ← signedData.okOr (.missing "SignedData")
    let signature ← signature.okOr (.missing "Signature")
    .ok { origin, publicKey, signedData, signature }

/--
The identity whose key a container is verified with: its own origin, or else the inherited one.
-/
def applicableIdentity (parts : SignedTlvParts) (inherited : Option Identity) (resolver : KeyResolver)
    : Except BundleError Identity :=
  match parts.origin with
  | some originTlv => identity originTlv parts.publicKey resolver
  | none => inherited.okOr (.missing "applicable Origin")

def verifySignedTlvWithPolicy (c : Crypto) (value : OwnedTlv) (inherited : Option Identity)
    (resolver : KeyResolver) (unknownChildren : UnknownChildren)
    : Except BundleError VerifiedSignedTlv := do
  let parts ← signedTlvParts value unknownChildren
  let identity ← applicableIdentity parts inherited resolver
  let signature ← signatureValue parts.signature
  let valid ← (c.verifyTlv parts.signedData.value signature identity.publicKey).mapError .crypto
  if ¬valid then
    .error .invalidSignature
  else
    let data ← parseChildren parts.signedData.value
    .ok { encoded := value.encode, identity, data }

def verifySignedTlv (c : Crypto) (value : OwnedTlv) (inherited : Option Identity)
    (resolver : KeyResolver)
    : Except BundleError VerifiedSignedTlv :=
  verifySignedTlvWithPolicy c value inherited resolver .allow

def unauthenticatedSignedData (value : OwnedTlv) : Except BundleError (List OwnedTlv) := do
  let parts ← signedTlvParts value .allow
  parseChildren parts.signedData.value

end Tith
