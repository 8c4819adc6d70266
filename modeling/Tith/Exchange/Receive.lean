import Tith.Wire.Bundle
import Tith.Wire.Carrier

/-!
This module contains the receive policy of TTS-0006 for the payloads of a bundle.
-/

namespace Tith

inductive ExchangeError where
  | crypto (error : CryptoError)
  | payload (error : PayloadError)
  | bundle (error : BundleError)
  | wrongDestination
  | wrongReplyOrigin
  | wrongReplyDestination
  | unexpectedResponse
  | duplicateResponse
  | duplicateRequestIdentifier
  | invalidRequestIdentifier
  | invalidResponse
  | unauthenticatedResponse
  | unexpectedPayloadValue
  | incompleteResponse (expected received : Nat)
  deriving DecidableEq

inductive ReceivedRequest where
  | valid (item : ValidatedItem)
  | dataError (requestIdentifier : UInt64)
  deriving DecidableEq

structure ReceivedPayload where
  responseTo : TlvHash
  requests : List ReceivedRequest
  responses : List ValidatedItem
  closeAfterReply : Bool
  deriving DecidableEq

/--
The data of a payload, and whether its signature was valid.
-/
def payloadData (c : Crypto) (value : OwnedTlv) (origin : Identity) (resolver : KeyResolver)
    : Except ExchangeError (List OwnedTlv × Bool) :=
  match verifySignedTlv c value (some origin) resolver with
  | .ok payload => .ok (payload.data, true)
  | .error .invalidSignature => do
    let data ← (unauthenticatedSignedData value).mapError .bundle
    .ok (data, false)
  | .error error => .error (.bundle error)

def requestValues (data : List OwnedTlv) : List OwnedTlv :=
  match data with
  | [] => []
  | first :: rest => if first.typeCode = Types.tlvHash then rest else first :: rest

def requestsOf (values : List OwnedTlv) : List OwnedTlv :=
  values.filter (fun item => Types.isRequest item.typeCode)

/--
Every request has an identifier, and no two have the same.
-/
def checkIdentifiers (requests : List OwnedTlv) (identifiers : List UInt64)
    : Except ExchangeError Unit :=
  match requests with
  | [] => .ok ()
  | request :: requests =>
    match requestIdentifier request with
    | none => .error .invalidRequestIdentifier
    | some identifier =>
      if identifiers.contains identifier then
        .error .duplicateRequestIdentifier
      else
        checkIdentifiers requests (identifier :: identifiers)

def isResponse (item : OwnedTlv) : Bool :=
  item.typeCode = Types.accepted || item.typeCode = Types.rejected

/--
All requests as data errors. The identifiers have been checked before, so every request has one.
-/
def dataErrors (requests : List OwnedTlv) : List ReceivedRequest :=
  requests.filterMap (fun request => (requestIdentifier request).map .dataError)

def validateRequest (c : Crypto) (resolver : KeyResolver) (item : OwnedTlv) : List ReceivedRequest :=
  match validateItem c item resolver with
  | .ok validated => validated.toList.map .valid
  | .error _ => dataErrors [item]

def receiveItems (c : Crypto) (resolver : KeyResolver) (items : List OwnedTlv)
    : Except ExchangeError (List ReceivedRequest × List ValidatedItem) :=
  match items with
  | [] => .ok ([], [])
  | item :: items =>
    if Types.isRequest item.typeCode then do
      let (requests, responses) ← receiveItems c resolver items
      .ok (validateRequest c resolver item ++ requests, responses)
    else if isResponse item then do
      let validated ← (validateItem c item resolver).mapError .bundle
      let (requests, responses) ← receiveItems c resolver items
      .ok (requests, validated.toList ++ responses)
    else if Types.isDefined item.typeCode then
      .error .unexpectedPayloadValue
    else
      receiveItems c resolver items

/--
The payload begins with the hash of the header that it belongs to.
-/
def correctHeader (data : List OwnedTlv) (headerHash : TlvHash) : Bool :=
  data.head?.any (fun first => first.typeCode = Types.tlvHash && first.value = headerHash.toList)

def receivePayload (c : Crypto) (value : OwnedTlv) (origin : Identity) (headerHash : TlvHash)
    (resolver : KeyResolver)
    : Except ExchangeError ReceivedPayload := do
  let responseTo ← (c.hashTlv value.encode).mapError .crypto
  let (data, authenticated) ← payloadData c value origin resolver
  let values := requestValues data
  checkIdentifiers (requestsOf values) []
  if ¬authenticated then
    if values.any isResponse then
      .error .unauthenticatedResponse
    else
      .ok
        { responseTo
          requests := dataErrors (requestsOf values)
          responses := []
          closeAfterReply := false }
  else if ¬correctHeader data headerHash then
    .ok
      { responseTo
        requests := dataErrors (requestsOf values)
        responses := []
        closeAfterReply := true }
  else
    let (requests, responses) ← receiveItems c resolver values
    .ok { responseTo, requests, responses, closeAfterReply := false }

end Tith
