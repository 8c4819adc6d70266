import Tith.Wire.Bundle
import Tith.Wire.Carrier

/-!
This module contains the building of signed containers and of whole bundles.
-/

namespace Tith

abbrev SecretKey := Vector UInt8 64

/--
The SignTLV signing of the vendored library.
-/
abbrev SignTlv := List UInt8 → SecretKey → Except CryptoError Signature

/--
What is signed with the secret key is verified by the public key.
-/
def KeyPair (c : Crypto) (sign : SignTlv) (secret : SecretKey) (publicKey : PublicKey) : Prop :=
  ∀ message signature, sign message secret = .ok signature →
    c.verifyTlv message signature publicKey = .ok true

-- The source expects both of these to succeed: `assigned` is only used with assigned types, and a
-- value of the type zero cannot be written. It panics where they fail.
def assigned (typeCode : UInt64) (value : List UInt8) : Except BundleError OwnedTlv :=
  (OwnedTlv.new typeCode value).mapError .framing

def encodeValues (values : List OwnedTlv) : Except BundleError (List UInt8) :=
  if values.any (·.typeCode = 0) then .error (.framing .invalidType) else .ok (concatenate values)

/--
The values that name an address, with a key behind it.
-/
def addressed (typeCode : UInt64) (address : Address) (key : Option PublicKey)
    : Except BundleError (List OwnedTlv) := do
  let addressTlv ← assigned typeCode (Bytes.ofString address.display)
  match key with
  | none => .ok [addressTlv]
  | some key =>
    let keyTlv ← assigned Types.publicKey key.toList
    .ok [addressTlv, keyTlv]

-- Only an anonymous address is followed by its key.
def Identity.embeddedKey (identity : Identity) : Option PublicKey :=
  if identity.address.isAnonymous then some identity.publicKey else none

def buildSignedTlv (sign : SignTlv) (data : List OwnedTlv) (origin : Option Identity)
    (secret : SecretKey)
    : Except BundleError OwnedTlv := do
  let dataBytes ← encodeValues data
  let signature ← (sign dataBytes secret).mapError .crypto
  let originValues ←
    match origin with
    | none => .ok []
    | some origin => addressed Types.origin origin.address origin.embeddedKey
  let signedData ← assigned Types.signedData dataBytes
  let signatureTlv ← assigned Types.signature signature.toList
  assigned Types.signedTlv (concatenate (originValues ++ [signedData, signatureTlv]))

def buildPayloads (sign : SignTlv) (secret : SecretKey) (headerHash : TlvHash)
    (payloadGroups : List (List OwnedTlv))
    : Except BundleError (List OwnedTlv) :=
  match payloadGroups with
  | [] => .ok []
  | payload :: payloadGroups => do
    let hashTlv ← assigned Types.tlvHash headerHash.toList
    let first ← buildSignedTlv sign (hashTlv :: payload) none secret
    let rest ← buildPayloads sign secret headerHash payloadGroups
    .ok (first :: rest)

/--
A bundle behind its outer origin: the header is signed and hashed, and every payload is bound to it.
-/
def assemble (c : Crypto) (sign : SignTlv) (secret : SecretKey) (originValues headerData : List OwnedTlv)
    (payloadGroups : List (List OwnedTlv))
    : Except BundleError (List UInt8) := do
  let header ← buildSignedTlv sign headerData none secret
  let headerHash ← (c.hashTlv header.encode).mapError .crypto
  let payloads ← buildPayloads sign secret headerHash payloadGroups
  .ok (concatenate (originValues ++ header :: payloads))

def headerData (destination : Address) (key : Option PublicKey) (timestamp : UInt64)
    : Except BundleError (List OwnedTlv) := do
  let destinationValues ← addressed Types.destination destination key
  let timestampTlv ← assigned Types.timestamp (encodeU64 timestamp)
  .ok (destinationValues ++ [timestampTlv])

def buildBundle (c : Crypto) (sign : SignTlv) (origin : Identity) (originSecret : SecretKey)
    (destination : Identity) (timestamp : UInt64) (payloadGroups : List (List OwnedTlv))
    : Except BundleError (List UInt8) := do
  let top ← addressed Types.origin origin.address origin.embeddedKey
  let header ← headerData destination.address destination.embeddedKey timestamp
  assemble c sign originSecret top header payloadGroups

def buildPublicKeyProbe (c : Crypto) (sign : SignTlv) (origin : Identity) (originSecret : SecretKey)
    (destination : Address) (requestedKey : Option PublicKey) (timestamp requestIdentifier : UInt64)
    : Except BundleError (List UInt8) :=
  if destination.isAnonymous then
    .error (.unexpected "PublicKeyRequest for an anonymous Destination")
  else do
    let top ← addressed Types.origin origin.address origin.embeddedKey
    let header ← headerData destination requestedKey timestamp
    assemble c sign originSecret top header [[publicKeyRequest requestIdentifier]]

-- A reply to a probe always states its signing key, including for a non-anonymous origin.
def buildPublicKeyReply (c : Crypto) (sign : SignTlv) (signingOrigin : Identity)
    (signingSecret : SecretKey) (destination : Identity) (timestamp requestIdentifier : UInt64)
    (responseTo : TlvHash) (currentKey : PublicKey)
    : Except BundleError (List UInt8) := do
  let top ← addressed Types.origin signingOrigin.address (some signingOrigin.publicKey)
  let header ← headerData destination.address destination.embeddedKey timestamp
  assemble c sign signingSecret top header [[acceptedPublicKey requestIdentifier responseTo currentKey]]

def buildPublicKeyUnavailableReply (c : Crypto) (sign : SignTlv) (currentOrigin : Identity)
    (currentSecret : SecretKey) (destination : Identity) (timestamp requestIdentifier : UInt64)
    (responseTo : TlvHash)
    : Except BundleError (List UInt8) := do
  let top ← addressed Types.origin currentOrigin.address (some currentOrigin.publicKey)
  let header ← headerData destination.address destination.embeddedKey timestamp
  let refusal ← rejected requestIdentifier responseTo none .permanent
    "requested predecessor private key is unavailable"
  assemble c sign currentSecret top header [[refusal]]

/--
The identifier of a dedicated probe and the hash of its payload.
-/
def Bundle.publicKeyRequest (c : Crypto) (bundle : Bundle)
    : Except BundleError (Option (UInt64 × TlvHash)) :=
  match bundle.payloads with
  | [payload] =>
    match payload.data with
    | [_, item] =>
      if item.typeCode ≠ Types.publicKeyRequest then
        .ok none
      else do
        let request ← validatePublicKeyRequest item
        let hash ← (c.hashTlv payload.encoded).mapError .crypto
        .ok (some (request.requestIdentifier, hash))
    | _ => .ok none
  | _ => .ok none

end Tith
