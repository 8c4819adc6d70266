import Tith.Wire.Build

/-!
This module contains the unsigned routing suffix of an item: the vias, the addresses that have seen the
item, and the rebuilding of the suffix when the item is forwarded.
-/

namespace Tith

def viaValue (identity : Identity) (timestamp : UInt64) (software : String)
    : Except BundleError OwnedTlv := do
  let addressValues ← addressed Types.address identity.address identity.embeddedKey
  let timestampTlv ← assigned Types.timestamp (encodeU64 timestamp)
  assigned Types.via (concatenate (addressValues ++ [timestampTlv]) ++ Bytes.ofString software)

/--
The whole collection as one value, or no value if it is empty. This is how a message carries it.
-/
def seenByValue (addresses : List Address) : Except BundleError (List OwnedTlv) :=
  if addresses = [] then
    .ok []
  else do
    let value ← assigned Types.seenBy
      (Bytes.ofString (String.ofList (formatTrimmedCollection addresses)))
    .ok [value]

/--
One value for every address. This is how a file carries them.
-/
def seenByValues (addresses : List Address) : Except BundleError (List OwnedTlv) :=
  addresses.mapM (fun address => assigned Types.seenBy (Bytes.ofString address.display))

def itemVias (item : OwnedTlv) : Except BundleError (List ViaData) := do
  let children ← parseChildren item.value
  (children.filter (·.typeCode = Types.via)).mapM readVia

/--
The children of the old suffix that stay in front of the new via.
-/
def isRetained (child : OwnedTlv) : Bool :=
  child.typeCode = Types.via || !Types.isDefined child.typeCode

def forwardItem (item : OwnedTlv) (receivingIdentity : Identity) (requestIdentifier viaTimestamp : UInt64)
    (software : String) (seenBy : List Address)
    : Except BundleError OwnedTlv :=
  if item.typeCode ≠ Types.message ∧ item.typeCode ≠ Types.file then
    .error (.unexpected "forward item kind")
  else do
    let children ← parseChildren item.value
    let signature ← (children.findIdx? (·.typeCode = Types.signature)).okOr (.missing "Signature")
    let suffix := children.drop (signature + 1)
    let requestTlv ← assigned Types.requestIdentifier (encodeU64 requestIdentifier)
    let via ← viaValue receivingIdentity viaTimestamp software
    let seenBy ← if item.typeCode = Types.message then seenByValue seenBy else seenByValues seenBy
    assigned item.typeCode (concatenate (
      children.take (signature + 1) ++ requestTlv :: suffix.filter isRetained ++ via :: seenBy ++
        suffix.filter (·.typeCode = Types.additionalKludgeLine)))

end Tith
