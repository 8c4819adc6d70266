import Tith.Lib.Except
import Tith.Lib.Text

/-!
This module contains the five dimensional addresses of TTS-0004, their canonical text and the
trimmed lists of addresses.
-/

namespace Tith

inductive AddressError where
  | emptyDomain
  | invalidDomain
  | missingZone
  | invalidNumber
  | outOfRange
  | nonCanonical
  | invalidOrder
  | invalidWildcard
  deriving DecidableEq, Repr

def ttsWhitespace (c : Char) : Bool :=
  (0x0009 ≤ c.toNat && c.toNat ≤ 0x000d) || c.toNat == 0x0020 || c.toNat == 0x0085 ||
    c.toNat == 0x00a0 || c.toNat == 0x1680 || (0x2000 ≤ c.toNat && c.toNat ≤ 0x200a) ||
    c.toNat == 0x2028 || c.toNat == 0x2029 || c.toNat == 0x202f || c.toNat == 0x205f ||
    c.toNat == 0x3000

def validateDomain (domain : String) : Except AddressError Unit :=
  if domain.toList = [] then
    .error .emptyDomain
  else if domain.toList.head?.any ttsWhitespace || domain.toList.getLast?.any ttsWhitespace then
    .error .invalidDomain
  else if domain.toList.any (fun c => Text.isControl c || ['#', '*', ',', '<', '>'].contains c) then
    .error .invalidDomain
  else
    .ok ()

/--
The checks of `Address::new`, which is the only way to build an address.
-/
def validateAddress (domain : String) (zone net node : Int) (point : UInt16)
    : Except AddressError Unit :=
  match validateDomain domain with
  | .error e => .error e
  | .ok () =>
    if domain = "p2p" ∧ zone ≠ -1 then
      .error .invalidDomain
    else if zone ≠ -1 ∧ ¬(1 ≤ zone ∧ zone ≤ 32767) then
      .error .outOfRange
    else if zone = -1 then
      if net ≠ -1 ∨ node ≠ -1 ∨ point ≠ 0 then .error .outOfRange else .ok ()
    else if ¬(1 ≤ net ∧ net ≤ 32767) ∨ ¬(0 ≤ node ∧ node ≤ 32767) then
      .error .outOfRange
    else
      .ok ()

structure Address where
  domain : String
  zone : Int
  net : Int
  node : Int
  point : UInt16
  valid : validateAddress domain zone net node point = .ok ()
  deriving DecidableEq

namespace Address

def new (domain : String) (zone net node : Int) (point : UInt16) : Except AddressError Address :=
  match h : validateAddress domain zone net node point with
  | .error e => .error e
  | .ok () => .ok ⟨domain, zone, net, node, point, h⟩

def isAnonymous (address : Address) : Bool := address.zone == -1

end Address

def i32Max : Nat := 2147483647

def parseNumber (text : List Char) (allowNegativeOne : Bool) : Except AddressError Int :=
  if allowNegativeOne ∧ text = ['-', '1'] then
    .ok (-1)
  else if text.head? = some '0' then
    .error .invalidNumber
  else
    match Text.digits? text with
    | none => .error .invalidNumber
    | some n => if n ≤ i32Max then .ok n else .error .outOfRange

/--
The component in front of the next prefix, and the rest from that prefix on.
-/
def takeComponent (input : List Char) : List Char × List Char :=
  input.span (fun c => !([':', '/', '.'].contains c))

def pointOf (n : Int) : Except AddressError UInt16 :=
  if 0 ≤ n ∧ n ≤ 65535 then .ok (UInt16.ofNat n.toNat) else .error .outOfRange

def defaultNode (zone : Int) : Int := if zone = -1 then -1 else 0

def prefixOrder (c : Char) : Nat := if c = ':' then 1 else if c = '/' then 2 else 3

def Address.fromStr (text : String) : Except AddressError Address :=
  if ¬text.toList.contains '#' then
    .error .missingZone
  else do
    let (domainText, hashRest) := text.toList.span (· ≠ '#')
    let domain := String.ofList domainText
    validateDomain domain
    let (zoneText, rest) := takeComponent hashRest.tail
    let zone ← parseNumber zoneText true
    if zone ≠ -1 ∧ ¬(1 ≤ zone ∧ zone ≤ 32767) then
      .error .outOfRange
    else
      let net := if zone = -1 then -1 else zone
      let (net, node, point) ← go zone rest.length rest net (defaultNode zone) 0 0
      Address.new domain zone net node point
where
  /-- The components behind the zone. Every turn takes at least the prefix. -/
  go (zone : Int) (fuel : Nat) (rest : List Char) (net node : Int) (point : UInt16)
      (lastPrefix : Nat)
      : Except AddressError (Int × Int × UInt16) :=
    match rest, fuel with
    | [], _ => .ok (net, node, point)
    | _ :: _, 0 => .error .invalidOrder
    | c :: rest, fuel + 1 =>
      if prefixOrder c ≤ lastPrefix then
        .error .invalidOrder
      else
        let (value, rest) := takeComponent rest
        if c = ':' then do
          let net ← parseNumber value true
          if net = zone then
            .error .nonCanonical
          else
            go zone fuel rest net node point (prefixOrder c)
        else if c = '/' then do
          let node ← parseNumber value true
          go zone fuel rest net node point (prefixOrder c)
        else do
          let parsed ← parseNumber value false
          let point ← pointOf parsed
          go zone fuel rest net node point (prefixOrder c)

def showInt (n : Int) : List Char :=
  match n with
  | .ofNat n => Nat.toDigits 10 n
  | .negSucc n => '-' :: Nat.toDigits 10 (n + 1)

namespace Address

def displayPoint (address : Address) : List Char :=
  if address.point ≠ 0 then '.' :: Nat.toDigits 10 address.point.toNat else []

def displayNode (address : Address) : List Char :=
  if address.node ≠ defaultNode address.zone then '/' :: showInt address.node else []

def displayNet (address : Address) : List Char :=
  if address.net ≠ address.zone then ':' :: showInt address.net else []

def display (address : Address) : String :=
  String.ofList (address.domain.toList ++ '#' :: showInt address.zone ++ displayNet address ++
    displayNode address ++ displayPoint address)

def cmp (a b : Address) : Ordering :=
  (compare a.domain b.domain).then <|
    (compare a.zone b.zone).then <|
      (compare a.net b.net).then <|
        (compare a.node b.node).then (compare a.point b.point)

end Address

/--
One element of a trimmed list: the change from the previous address.
-/
def formatTrimmedElement (previous : Option Address) (address : Address) : List Char :=
  match previous with
  | none => address.display.toList
  | some prior =>
    if prior.domain ≠ address.domain then
      address.display.toList
    else if prior.zone ≠ address.zone then
      '#' :: showInt address.zone ++ address.displayNet ++ address.displayNode ++
        address.displayPoint
    else if prior.net ≠ address.net then
      ':' :: showInt address.net ++ address.displayNode ++ address.displayPoint
    else if prior.node ≠ address.node then
      '/' :: showInt address.node ++ address.displayPoint
    else if prior.point ≠ address.point then
      '.' :: Nat.toDigits 10 address.point.toNat
    else
      address.display.toList

def formatTrimmedList (addresses : List Address) : List Char :=
  go none addresses []
where
  go (previous : Option Address) (addresses : List Address) (output : List Char) : List Char :=
    match addresses with
    | [] => output
    | address :: rest =>
      let output := if output = [] then output else output ++ [',']
      go (some address) rest (output ++ formatTrimmedElement previous address)

def formatTrimmedCollection (addresses : List Address) : List Char :=
  formatTrimmedList ((addresses.insertionSort (fun a b => (a.cmp b).isLE)).destutter (· ≠ ·))

def parseTrimmedNumber (text : List Char) (allowNegativeOne : Bool) : Except AddressError Int :=
  if text = ['0'] then .ok 0 else parseNumber text allowNegativeOne

def parseTrimmedElement (element : List Char) (previous : Option Address)
    : Except AddressError Address :=
  match element with
  | [] => .error .invalidNumber
  | c :: rest =>
    if ¬['#', ':', '/', '.'].contains c then
      Address.fromStr (String.ofList element)
    else do
      let prior ← previous.okOr .invalidOrder
      let order := if c = '#' then 0 else prefixOrder c
      let (zone, net, node, point) ← go rest.length rest order prior.zone prior.net prior.node 0
      Address.new prior.domain zone net node point
where
  go (fuel : Nat) (rest : List Char) (order : Nat) (zone net node : Int) (point : UInt16)
      : Except AddressError (Int × Int × Int × UInt16) := do
    let (text, rest) := takeComponent rest
    let (zone, net, node, point) ←
      match order with
      | 0 => do
        let zone ← parseTrimmedNumber text true
        .ok (zone, zone, defaultNode zone, point)
      | 1 => do
        let net ← parseTrimmedNumber text true
        .ok (zone, net, defaultNode zone, point)
      | 2 => do
        let node ← parseTrimmedNumber text true
        .ok (zone, net, node, point)
      | _ => do
        let parsed ← parseTrimmedNumber text false
        let point ← pointOf parsed
        .ok (zone, net, node, point)
    match rest, fuel with
    | [], _ => .ok (zone, net, node, point)
    | _ :: _, 0 => .error .invalidOrder
    | c :: rest, fuel + 1 =>
      if prefixOrder c ≤ order then
        .error .invalidOrder
      else
        go fuel rest (prefixOrder c) zone net node point

def expandTrimmed (value : List Char) : Except AddressError (List Address) :=
  if value = [] then .ok [] else go (value.splitOn ',') none
where
  go (elements : List (List Char)) (previous : Option Address)
      : Except AddressError (List Address) :=
    match elements with
    | [] => .ok []
    | element :: rest => do
      let address ← parseTrimmedElement element previous
      let addresses ← go rest (some address)
      .ok (address :: addresses)

def parseTrimmedList (value : List Char) : Except AddressError (List Address) := do
  let addresses ← expandTrimmed value
  if formatTrimmedList addresses ≠ value then .error .nonCanonical else .ok addresses

def parseTrimmedCollection (value : List Char) : Except AddressError (List Address) := do
  let addresses ← expandTrimmed value
  if formatTrimmedCollection addresses ≠ value then .error .nonCanonical else .ok addresses

example : (Address.fromStr "fidonet#1:2/3.4").map Address.display = .ok "fidonet#1:2/3.4" := by decide

end Tith
