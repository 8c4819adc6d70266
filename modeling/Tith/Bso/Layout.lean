import Tith.Legacy.Control
import Tith.Lib.Hex
import Tith.Lib.Path

/-!
This module contains the outbound layout of a binkley style mailer: the directories and the names under
which the flow files of a node lie, and the way back from a path to the node.
-/

namespace Tith

namespace Bso

open OsPath

structure NodeAddress where
  domain : Option String
  zone : UInt16
  net : UInt16
  node : UInt16
  point : UInt16
  deriving DecidableEq, Repr

inductive Flavour where
  | immediate
  | continuous
  | direct
  | normal
  | hold
  deriving DecidableEq, Repr

inductive FlowKind where
  | packet
  | reference
  | request
  deriving DecidableEq, Repr

def flowSignature (signature : OsString) : Option FlowKind :=
  if signature = Bytes.ofString "ut" then
    some .packet
  else if signature = Bytes.ofString "lo" then
    some .reference
  else
    none

/--
The flavour of a letter. Two letters serve one kind only.
-/
def flavourOf (letter : UInt8) (kind : FlowKind) : Option Flavour :=
  match letter, kind with
  | 105, _ => some .immediate
  | 99, _ => some .continuous
  | 100, _ => some .direct
  | 104, _ => some .hold
  | 111, .packet => some .normal
  | 102, .reference => some .normal
  | _, _ => none

/--
The kind of a flow file by its extension in either case. There is no result where the slice behind the
first letter would cut a character, which panics.
-/
def classifyExtension (extension : OsString) : Option (Option (Flavour × FlowKind)) :=
  let lower := toAsciiLowercase extension
  if lower.length ≠ 3 then
    some none
  else if lower = Bytes.ofString "req" then
    some (some (.normal, .request))
  else if lower.tail.head?.any fun byte => 0x80 ≤ byte ∧ byte < 0xc0 then
    none
  else
    some do
      let kind ← flowSignature lower.tail
      let letter ← lower.head?
      let flavour ← flavourOf letter kind
      some (flavour, kind)

def IsFlowExtension (extension : OsString) : Prop := ∃ kind, classifyExtension extension = some (some kind)

/--
Where the outbound areas are. A domain without a root of its own is in the default one.
-/
structure Outbound where
  defaultRoot : OsString
  defaultZone : UInt16
  defaultDomain : Option String
  domainRoots : List (String × OsString)

def pntExtension : OsString := [46, 112, 110, 116]

namespace Outbound

def rootFor (outbound : Outbound) (address : NodeAddress) : OsString :=
  (address.domain.bind fun domain => outbound.domainRoots.lookup domain).getD outbound.defaultRoot

def needsZoneSuffix (outbound : Outbound) (address : NodeAddress) : Bool :=
  if address.zone ≠ outbound.defaultZone then
    true
  else
    match address.domain, outbound.defaultDomain with
    | some domain, some default => !Legacy.eqIgnoreAsciiCase domain.toList default.toList
    | _, _ => false

def zoneSuffix (zone : UInt16) : OsString :=
  if zone > 0xfff then Hex.fixed 4 zone.toNat else Hex.fixed 3 zone.toNat

def suffixed (outbound : Outbound) (address : NodeAddress) : OsString :=
  outbound.rootFor address ++ dot :: zoneSuffix address.zone

def bases (outbound : Outbound) (address : NodeAddress) : List OsString :=
  if outbound.needsZoneSuffix address then
    [outbound.suffixed address]
  else
    [outbound.rootFor address, outbound.suffixed address]

def pointDirectory (address : NodeAddress) : OsString :=
  Hex.fixed 4 address.net.toNat ++ Hex.fixed 4 address.node.toNat ++ pntExtension

def directories (outbound : Outbound) (address : NodeAddress) : List OsString :=
  if address.point ≠ 0 then
    (outbound.bases address).map fun base => push base (pointDirectory address)
  else
    outbound.bases address

def stem (address : NodeAddress) : OsString :=
  if address.point = 0 then
    Hex.fixed 4 address.net.toNat ++ Hex.fixed 4 address.node.toNat
  else
    Hex.fixed 8 address.point.toNat

/--
The last name of a path in lower case, if there is one and it is UTF-8.
-/
def lowerName (path : List Component) : Option OsString :=
  ((fileName path).bind toStr).map toAsciiLowercase

/--
`u32::from_str_radix` with base 16.
-/
def parseU32 (text : OsString) : Option Nat := Hex.parse (2 ^ 32) text

/--
`u16::from_str_radix` with base 16.
-/
def parseU16 (text : OsString) : Option UInt16 := (Hex.parse (2 ^ 16) text).map UInt16.ofNat

/--
`u16::try_from` of a 32 bit number.
-/
def tryU16 (n : Nat) : Option UInt16 := if n < 2 ^ 16 then some (UInt16.ofNat n) else none

/--
The zone of a directory name: what is behind the last dot, if that has one to four bytes.
-/
def zoneOf (defaultZone : UInt16) (name : OsString) : Option UInt16 :=
  match rsplitDot name with
  | some (_, suffix) =>
    if suffix ≠ [] ∧ suffix.length ≤ 4 then parseU16 suffix else some defaultZone
  | none => some defaultZone

def split (n : Nat) : UInt16 × UInt16 := (UInt16.ofNat (n / 2 ^ 16), UInt16.ofNat (n % 2 ^ 16))

def addressOf (outbound : Outbound) (path : OsString) (domain : Option String) : Option NodeAddress := do
  let path := components path
  let stem ← (fileStem path).bind toStr
  let parent ← OsPath.parent path
  let parentName ← lowerName parent
  let (directory, point) ←
    match stripSuffix pntExtension parentName with
    | some owner => do
      let owner ← parseU32 owner
      let point ← (parseU32 stem).bind tryU16
      let directory ← OsPath.parent parent
      some (directory, some (owner, point))
    | none => some (parent, none)
  let directoryName ← lowerName directory
  let zone ← zoneOf outbound.defaultZone directoryName
  match point with
  | some (owner, point) =>
    some { domain, zone, net := (split owner).1, node := (split owner).2, point }
  | none => do
    let value ← parseU32 stem
    some { domain, zone, net := (split value).1, node := (split value).2, point := 0 }

end Outbound

end Bso

end Tith
