import Tith.Legacy.Control
import Tith.Wire.Address

/-!
This module contains the legacy forms of an address: 5D, 3D and the fields of a packet header.
-/

namespace Tith

namespace Legacy

inductive AddressError where
  | anonymous
  | outOfRange
  | malformed
  | missingDomain
  | conflict
  deriving DecidableEq, Repr

def AddressError.describe (error : AddressError) : String :=
  match error with
  | .anonymous => "the anonymous address has no legacy representation"
  | .outOfRange => "an address component does not fit its legacy field"
  | .malformed => "not a legacy address"
  | .missingDomain => "a legacy address has no trusted domain context"
  | .conflict => "legacy destination forms disagree"

structure Endpoint where
  zone : UInt16
  net : UInt16
  node : UInt16
  point : UInt16
  deriving DecidableEq, Repr

/--
`u16::try_from` of an `i32`.
-/
def toField (value : Int) : Except AddressError UInt16 :=
  if 0 ≤ value ∧ value < 2 ^ 16 then .ok (UInt16.ofNat value.toNat) else .error .outOfRange

def endpoint (address : Address) : Except AddressError Endpoint :=
  if address.isAnonymous then
    .error .anonymous
  else do
    let zone ← toField address.zone
    let net ← toField address.net
    let node ← toField address.node
    .ok { zone, net, node, point := address.point }

def decimal (n : UInt16) : List Char := Nat.toDigits 10 n.toNat

def threeDimensional (address : Address) : Except AddressError (List Char) := do
  let parts ← endpoint address
  .ok (decimal parts.zone ++ ':' :: decimal parts.net ++ '/' :: decimal parts.node)

def fiveDimensional (address : Address) : Except AddressError (List Char) := do
  let parts ← endpoint address
  let point := if parts.point = 0 then [] else '.' :: decimal parts.point
  .ok (decimal parts.zone ++ ':' :: decimal parts.net ++ '/' :: decimal parts.node ++ point ++
    '@' :: address.domain.toList)

def number (text : List Char) : Except AddressError Int :=
  match Text.digits? text with
  | none => .error .malformed
  | some n => if n ≤ i32Max then .ok n else .error .outOfRange

/--
The node and the point behind it, which may be left out.
-/
def nodeAndPoint (text : List Char) : Except AddressError (List Char × UInt16) :=
  match Text.splitOnce '.' text with
  | none => .ok (text, 0)
  | some (node, point) => do
    let point ← number point
    let point ← toField point
    .ok (node, point)

def withDomain (value : List Char) (domain : String) : Except AddressError Address := do
  let (zone, rest) ← (Text.splitOnce ':' value).okOr .malformed
  let (net, rest) ← (Text.splitOnce '/' rest).okOr .malformed
  let (node, point) ← nodeAndPoint rest
  let zone ← number zone
  let net ← number net
  let node ← number node
  (Address.new domain zone net node point).mapError fun _ => .outOfRange

end Legacy

end Tith
