import Tith.Wire.Item

/-!
This module contains the bundles of TTS-0005: an origin, a signed header and signed payloads.
-/

namespace Tith

structure Bundle where
  encoded : List UInt8
  origin : Identity
  advertisedOriginKey : Option PublicKey
  destination : Identity
  requestedDestinationKey : Option PublicKey
  timestamp : UInt64
  header : VerifiedSignedTlv
  payloads : List VerifiedSignedTlv
  unknownTopLevel : List OwnedTlv
  deriving DecidableEq

/--
Whether the origin of a bundle may carry a key although it is not anonymous.
-/
inductive NonAnonymousOriginKey where
  | prohibited
  | any
  | exact (expected : PublicKey)

def nextDefined (values : List OwnedTlv) : Option (List OwnedTlv × OwnedTlv × List OwnedTlv) :=
  match values with
  | [] => none
  | value :: values =>
    if Types.isDefined value.typeCode then
      some ([], value, values)
    else
      (nextDefined values).map (fun (skipped, found, rest) => (value :: skipped, found, rest))

def takeDefined (values : List OwnedTlv) (typeCode : UInt64) (name : String)
    : Except BundleError (OwnedTlv × List OwnedTlv) :=
  match nextDefined values with
  | some (_, value, rest) =>
    if value.typeCode = typeCode then .ok (value, rest) else .error (.missing name)
  | none => .error (.missing name)

/--
The destination of a header and the key that is requested from it.
-/
def headerDestination (children : List OwnedTlv) (resolver : KeyResolver)
    : Except BundleError (Identity × Option PublicKey × List OwnedTlv) := do
  let (destinationTlv, rest) ← takeDefined children Types.destination "Destination"
  let address ← addressValue destinationTlv
  match address.isAnonymous, rest with
  | true, value :: rest =>
    if value.typeCode = Types.publicKey then
      let destination ← identity destinationTlv (some value) resolver
      .ok (destination, none, rest)
    else
      .error (.missing "Destination PublicKey")
  | true, [] => .error (.missing "Destination PublicKey")
  | false, [] =>
    let destination ← identity destinationTlv none resolver
    .ok (destination, none, [])
  | false, value :: rest =>
    if value.typeCode = Types.publicKey then
      let key ← publicKeyValue value
      .ok ({ address, publicKey := key }, some key, rest)
    else
      let destination ← identity destinationTlv none resolver
      .ok (destination, none, value :: rest)

def validateHeader (children : List OwnedTlv) (resolver : KeyResolver)
    : Except BundleError (Identity × Option PublicKey × UInt64) := do
  let (destination, requestedDestinationKey, rest) ← headerDestination children resolver
  let (timestampTlv, rest) ← takeDefined rest Types.timestamp "Timestamp after Destination"
  if (nextDefined rest).isSome then
    .error (.unexpected "defined Header value")
  else
    let timestamp ← numberValue timestampTlv
    .ok (destination, requestedDestinationKey, timestamp)

namespace Bundle

/--
The origin at the front of a bundle, the key that it advertises and the values behind both.
-/
def takeOuterOrigin (top : List OwnedTlv) (resolver : KeyResolver)
    (nonAnonymousOriginKey : NonAnonymousOriginKey)
    : Except BundleError (Identity × Option PublicKey × List OwnedTlv) :=
  match top with
  | [] => .error (.missing "Origin")
  | originTlv :: rest =>
    if originTlv.typeCode ≠ Types.origin then
      .error (.missing "initial Origin")
    else do
      let address ← addressValue originTlv
      match address.isAnonymous, rest with
      | true, value :: rest =>
        if value.typeCode ≠ Types.publicKey then
          .error (.missing "Origin PublicKey")
        else
          let origin ← identity originTlv (some value) resolver
          .ok (origin, none, rest)
      | true, [] => .error (.missing "Origin PublicKey")
      | false, [] =>
        let origin ← identity originTlv none resolver
        .ok (origin, none, [])
      | false, value :: rest =>
        if value.typeCode = Types.publicKey then
          let key ← publicKeyValue value
          match nonAnonymousOriginKey with
          | .prohibited => .error (.unexpected "non-anonymous Origin PublicKey")
          | .exact expected =>
            if key ≠ expected then
              .error .invalidSignature
            else
              .ok ({ address, publicKey := key }, some key, rest)
          | .any => .ok ({ address, publicKey := key }, some key, rest)
        else
          let origin ← identity originTlv none resolver
          .ok (origin, none, value :: rest)

def takeHeader (rest : List OwnedTlv)
    : Except BundleError (List OwnedTlv × OwnedTlv × List OwnedTlv) :=
  match nextDefined rest with
  | some (skipped, header, rest) =>
    if header.typeCode = Types.signedTlv then
      .ok (skipped, header, rest)
    else
      .error (.missing "Header SignedTLV")
  | none => .error (.missing "Header SignedTLV")

def checkHeaderHash (payload : VerifiedSignedTlv) (expectedHash : TlvHash)
    : Except BundleError Unit :=
  match payload.data with
  | [] => .error (.missing "payload Header TLVHash")
  | first :: _ =>
    if first.typeCode ≠ Types.tlvHash then
      .error (.missing "initial payload Header TLVHash")
    else do
      let actual ← (fixed 32 first.value).okOr (.wrongLength "TLVHash")
      if actual ≠ expectedHash then .error .incorrectHeaderHash else .ok ()

/--
The payloads among the values behind the header, and the values of unknown types.
-/
def takePayloads (c : Crypto) (origin : Identity) (resolver : KeyResolver) (expectedHash : TlvHash)
    (values : List OwnedTlv)
    : Except BundleError (List VerifiedSignedTlv × List OwnedTlv) :=
  match values with
  | [] => .ok ([], [])
  | value :: values =>
    if value.typeCode = Types.signedTlv then do
      let payload ← verifySignedTlv c value (some origin) resolver
      checkHeaderHash payload expectedHash
      let (payloads, unknown) ← takePayloads c origin resolver expectedHash values
      .ok (payload :: payloads, unknown)
    else if Types.isDefined value.typeCode then
      .error (.unexpected "defined top-level value")
    else do
      let (payloads, unknown) ← takePayloads c origin resolver expectedHash values
      .ok (payloads, value :: unknown)

def isPublicKeyRequest (payloads : List VerifiedSignedTlv) : Bool :=
  match payloads with
  | [payload] =>
    payload.data.length = 2 && payload.data[1]?.any (·.typeCode = Types.publicKeyRequest)
  | _ => false

def containsPublicKeyRequest (payloads : List VerifiedSignedTlv) : Bool :=
  payloads.any (fun payload => payload.data.any (·.typeCode = Types.publicKeyRequest))

def parseInternal (c : Crypto) (encoded : List UInt8) (resolver : KeyResolver)
    (nonAnonymousOriginKey : NonAnonymousOriginKey) (allowHeaderOnly : Bool)
    : Except BundleError Bundle := do
  let top ← parseChildren encoded
  let (origin, advertisedOriginKey, rest) ← takeOuterOrigin top resolver nonAnonymousOriginKey
  let (skipped, headerTlv, rest) ← takeHeader rest
  let header ← verifySignedTlv c headerTlv (some origin) resolver
  let (destination, requestedDestinationKey, timestamp) ← validateHeader header.data resolver
  let expectedHash ← (c.hashTlv header.encoded).mapError .crypto
  let (payloads, unknown) ← takePayloads c origin resolver expectedHash rest
  if (requestedDestinationKey.isSome || containsPublicKeyRequest payloads) &&
      !(allowHeaderOnly && payloads.isEmpty) && !isPublicKeyRequest payloads then
    .error (.unexpected "PublicKeyRequest outside its dedicated Bundle")
  else
    .ok
      { encoded
        origin
        advertisedOriginKey
        destination
        requestedDestinationKey
        timestamp
        header
        payloads
        unknownTopLevel := skipped ++ unknown }

def parse (c : Crypto) (encoded : List UInt8) (resolver : KeyResolver)
    : Except BundleError Bundle :=
  parseInternal c encoded resolver .prohibited false

def parseHeaderPrefix (c : Crypto) (encoded : List UInt8) (resolver : KeyResolver)
    : Except BundleError Bundle :=
  parseInternal c encoded resolver .prohibited true

/--
A reply to a probe: its origin advertises the key that has signed it, and its only payload is an
acceptance that certifies the current key. Without an expected key the two have to be the same.
-/
def parsePublicKeyReply (c : Crypto) (encoded : List UInt8) (resolver : KeyResolver)
    (expected : Option PublicKey)
    : Except BundleError Bundle := do
  let mode := (expected.map NonAnonymousOriginKey.exact).getD .any
  let bundle ← parseInternal c encoded resolver mode false
  match bundle.advertisedOriginKey, bundle.payloads.map VerifiedSignedTlv.data with
  | some advertised, [[_, item]] =>
    if item.typeCode ≠ Types.accepted then
      .error (.unexpected "PublicKeyRequest reply grammar")
    else
      let validated ← validateItem c item resolver
      let accepted ← validated.okOr (.unexpected "PublicKeyRequest Accepted")
      let current ← accepted.responsePublicKey.okOr (.missing "Accepted current PublicKey")
      if expected = none ∧ advertised ≠ current then .error .invalidSignature else .ok bundle
  | _, _ => .error (.unexpected "PublicKeyRequest reply grammar")

end Bundle

end Tith
