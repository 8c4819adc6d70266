import Tith.Legacy.Convert

/-!
This module contains the reading of the controls that retain a signature.
-/

namespace Tith

namespace Legacy

structure RetainedSigning where
  signature : Signature
  signedOrigin : Option Address
  signedOriginKey : Option PublicKey
  deriving DecidableEq

def isTithsig (control : Control) : Bool := control.name = "TITHSIG".toList

def isTithsign (control : Control) : Bool := control.name = "TITHSIGN".toList

def areConsecutive (positions : List Nat) : Bool :=
  (positions.zip positions.tail).all fun (first, second) => second == first + 1

def tithsigChunk (control : Control) : Except ConvertError (List Char) := do
  let chunk ← ("1 ".toList.isPrefixOf? control.value).okOr (.unrepresentable "a TITHSIG revision")
  if byteLength chunk ≠ chunkLength then
    .error (.unrepresentable "a TITHSIG chunk")
  else
    .ok chunk

/--
The chunk of a `TITHSIGN` control. All but the last are full and marked as continued.
-/
def retainedChunk (control : Control) (finalChunk : Bool) : Except ConvertError (List Char) := do
  let rest ← ("1 ".toList.isPrefixOf? control.value).okOr (.unrepresentable "a TITHSIGN revision")
  let (marker, chunk) ← (Text.splitOnce ' ' rest).okOr (.unrepresentable "a TITHSIGN chunk")
  if marker ≠ (if finalChunk then ['.'] else ['+']) ∨ chunk = [] ∨ chunkLength < byteLength chunk ∨
      (finalChunk = false ∧ byteLength chunk ≠ chunkLength) then
    .error (.unrepresentable "a TITHSIGN chunk")
  else
    .ok chunk

def retainedSignedOrigin (bytes : List UInt8) : Except ConvertError (Address × Option PublicKey) := do
  let values ← (parseSequence bytes).mapError fun _ => ConvertError.unrepresentable "a TITHSIGN TLV sequence"
  match values with
  | [] => .error (.unrepresentable "a TITHSIGN SignedOrigin")
  | first :: rest =>
    if first.typeCode ≠ Types.signedOrigin then
      .error (.unrepresentable "a TITHSIGN SignedOrigin")
    else do
      let text ← (Bytes.toString? first.value).okOr (.unrepresentable "a TITHSIGN SignedOrigin")
      let address ← (Address.fromStr text).mapError
        fun _ => ConvertError.unrepresentable "a TITHSIGN SignedOrigin"
      if address.isAnonymous then
        match rest with
        | [second] =>
          if second.typeCode ≠ Types.publicKey then
            .error (.unrepresentable "a TITHSIGN PublicKey")
          else do
            let key ← (fixed 32 second.value).okOr (.unrepresentable "a TITHSIGN PublicKey")
            .ok (address, some key)
        | _ => .error (.unrepresentable "a TITHSIGN PublicKey")
      else if rest ≠ [] then
        .error (.unrepresentable "a non-anonymous TITHSIGN value")
      else
        .ok (address, none)

/--
The signature and the signer of a canonical export, if the controls are one. A malformed group is an
error.
-/
def retainedSigning (base64 : Nodelist.Base64) (controls : List Control)
    : Except ConvertError (Option RetainedSigning) :=
  let signing := controls.zipIdx.filter fun (control, _) => isTithsign control || isTithsig control
  let sig := signing.filter fun (control, _) => isTithsig control
  let sign := signing.filter fun (control, _) => isTithsign control
  if signing = [] then
    .ok none
  else if !areConsecutive (signing.map Prod.snd) then
    .error (.unrepresentable "a nonconsecutive TITHSIGN/TITHSIG group")
  else if sig.length ≠ 2 ∨ !areConsecutive (sig.map Prod.snd) then
    .error (.unrepresentable "a malformed TITHSIG group")
  else do
    let chunks ← sig.mapM fun (control, _) => tithsigChunk control
    let bytes ← (base64.decode chunks.flatten).okOr (.unrepresentable "a TITHSIG encoding")
    let signature ← (fixed 64 bytes).okOr (.unrepresentable "a TITHSIG Signature")
    if sign = [] then
      .ok (some { signature, signedOrigin := none, signedOriginKey := none })
    else if sign.getLast?.map (·.2 + 1) ≠ sig.head?.map Prod.snd then
      .error (.unrepresentable "a nonconsecutive TITHSIGN group")
    else do
      let chunks ← sign.zipIdx.mapM fun ((control, _), position) =>
        retainedChunk control (position + 1 = sign.length)
      let bytes ← (base64.decode chunks.flatten).okOr (.unrepresentable "a TITHSIGN encoding")
      let (signedOrigin, signedOriginKey) ← retainedSignedOrigin bytes
      .ok (some { signature, signedOrigin := some signedOrigin, signedOriginKey })

end Legacy

end Tith
