import Tith.Wire.Item

/-!
This module contains the values that carry items through an exchange: identifiers that are set anew,
the answers to requests, and the items of a whole payload.
-/

namespace Tith

-- No value in memory is as long as the length field could say, so that the constructor never fails.
def carrierValue (typeCode : UInt64) (value : List UInt8) : OwnedTlv :=
  if h : value.length < 2 ^ 64 then ⟨typeCode, value, h⟩ else ⟨typeCode, [], by decide⟩

def accepted (requestIdentifier : UInt64) (responseTo : TlvHash) : OwnedTlv :=
  carrierValue Types.accepted (concatenate
    [ carrierValue Types.requestIdentifier (encodeU64 requestIdentifier),
      carrierValue Types.tlvHash responseTo.toList ])

def acceptedPublicKey (requestIdentifier : UInt64) (responseTo : TlvHash) (publicKey : PublicKey)
    : OwnedTlv :=
  carrierValue Types.accepted (concatenate
    [ carrierValue Types.requestIdentifier (encodeU64 requestIdentifier),
      carrierValue Types.tlvHash responseTo.toList,
      carrierValue Types.publicKey publicKey.toList ])

def publicKeyRequest (requestIdentifier : UInt64) : OwnedTlv :=
  carrierValue Types.publicKeyRequest
    (carrierValue Types.requestIdentifier (encodeU64 requestIdentifier)).encode

def RejectionReason.code (reason : RejectionReason) : UInt64 :=
  match reason with
  | .permanent => 1
  | .conditionUnmet => 2
  | .temporary => 3

def rejected (requestIdentifier : UInt64) (responseTo : TlvHash) (timestamp : Option UInt64)
    (reason : RejectionReason) (description : String)
    : Except BundleError OwnedTlv :=
  if timestamp.isSome ∧ reason ≠ .temporary then
    .error (.unexpected "Rejected Timestamp for non-temporary reason")
  else
    .ok (carrierValue Types.rejected (concatenate (
      [ carrierValue Types.requestIdentifier (encodeU64 requestIdentifier),
        carrierValue Types.tlvHash responseTo.toList ] ++
      (timestamp.map (fun timestamp => carrierValue Types.timestamp (encodeU64 timestamp))).toList ++
      [carrierValue Types.rejectionReason (encodeU64 reason.code)] ++
      if description = "" then
        []
      else
        [carrierValue Types.rejectionDescription (Bytes.ofString description)])))

def setIdentifier (identifier : UInt64) (child : OwnedTlv) : OwnedTlv :=
  if child.typeCode = Types.requestIdentifier then
    { child with
      value := encodeU64 identifier
      length_lt := Nat.lt_of_le_of_lt (length_encodeU64_le identifier) (by decide) }
  else
    child

def setRequestIdentifier (value : OwnedTlv) (identifier : UInt64) : Except BundleError OwnedTlv := do
  let children ← parseChildren value.value
  let found := children.countP (·.typeCode = Types.requestIdentifier)
  let children := children.map (setIdentifier identifier)
  if found ≠ 1 then
    .error (.missing "exactly one RequestIdentifier")
  else
    (OwnedTlv.new value.typeCode (concatenate children)).mapError .framing

structure PayloadError where
  itemIndex : Nat
  source : BundleError
  deriving DecidableEq

-- The items behind the hash of the header. Only the identifiers of requests have to differ.
def validatePayload (c : Crypto) (payload : VerifiedSignedTlv) (resolver : KeyResolver)
    : Except PayloadError (List ValidatedItem) :=
  go 1 (payload.data.drop 1) []
where
  go (index : Nat) (items : List OwnedTlv) (requestIdentifiers : List UInt64)
      : Except PayloadError (List ValidatedItem) :=
    match items with
    | [] => .ok []
    | item :: items =>
      match validateItem c item resolver with
      | .error source => .error ⟨index, source⟩
      | .ok none => go (index + 1) items requestIdentifiers
      | .ok (some validated) =>
        if Types.isRequest item.typeCode then
          if requestIdentifiers.contains validated.requestIdentifier then
            .error ⟨index, .duplicate "request identifier"⟩
          else do
            let rest ← go (index + 1) items (validated.requestIdentifier :: requestIdentifiers)
            .ok (validated :: rest)
        else do
          let rest ← go (index + 1) items requestIdentifiers
          .ok (validated :: rest)

end Tith
