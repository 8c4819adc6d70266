import Tith.Crypto.Basic
import Tith.Lib.Except
import Tith.Lib.Text
import Tith.Wire.Address

/-!
This module contains the servers, ports and electronic mail addresses that the flags of a nodelist
name. Each of them has only one spelling.
-/

namespace Tith

namespace Nodelist

inductive NodelistErrorKind where
  | io
  | invalidUtf8
  | missingFinalLineFeed
  | controlCharacter
  | invalidComment
  | wrongFieldCount
  | invalidKeyword
  | invalidNodeNumber
  | invalidHierarchy
  | duplicateAddress
  | invalidPhone
  | privateContact
  | invalidFlag
  | invalidPublicKey
  | invalidEndpoint
  | applicationKeyMismatch
  | address (error : AddressError)
  deriving DecidableEq, Repr

/--
The unpadded alphabet of RFC 4648, as the library that encodes public keys implements it.
-/
structure Base64 where
  encode : List UInt8 → List Char
  decode : List Char → Option (List UInt8)

/-!
The addresses of the Internet protocols, read as `std::net` reads them.
-/

def digitOf (radix : Nat) (c : Char) : Option Nat :=
  let digit :=
    if c.isDigit then
      some (c.toNat - '0'.toNat)
    else if 'a' ≤ c ∧ c ≤ 'f' then
      some (c.toNat - 'a'.toNat + 10)
    else if 'A' ≤ c ∧ c ≤ 'F' then
      some (c.toNat - 'A'.toNat + 10)
    else
      none
  digit.filter (· < radix)

/--
All digits in front of the text. More of them than `maxDigits` is no number.
-/
def readNumber (radix maxDigits : Nat) (allowZeroPrefix : Bool) (bound : Nat) (text : List Char)
    : Option (Nat × List Char) :=
  let (front, rest) := text.span (fun c => (digitOf radix c).isSome)
  let digits := front.filterMap (digitOf radix)
  let value := digits.foldl (fun n digit => n * radix + digit) 0
  if digits = [] ∨ digits.length > maxDigits then
    none
  else if !allowZeroPrefix ∧ front.head? = some '0' ∧ digits.length > 1 then
    none
  else if value < bound then
    some (value, rest)
  else
    none

def readGivenChar (c : Char) (text : List Char) : Option (List Char) :=
  match text with
  | [] => none
  | d :: rest => if d = c then some rest else none

def readSeparator (separator : Char) (index : Nat) (inner : List Char → Option (α × List Char))
    (text : List Char)
    : Option (α × List Char) :=
  if index = 0 then inner text else (readGivenChar separator text).bind inner

def readIpv4Addr (text : List Char) : Option (List Nat × List Char) := do
  let octet := readNumber 10 3 false 256
  let (a, text) ← readSeparator '.' 0 octet text
  let (b, text) ← readSeparator '.' 1 octet text
  let (c, text) ← readSeparator '.' 2 octet text
  let (d, text) ← readSeparator '.' 3 octet text
  some ([a, b, c, d], text)

def parseIpv4 (text : List Char) : Option (List Nat) :=
  match readIpv4Addr text with
  | some (octets, []) => some octets
  | _ => none

/--
At most `limit` groups from the group `index` on, and if the last two are an embedded IPv4 address.
-/
def readGroups (limit index : Nat) (text : List Char) : List Nat × Bool × List Char :=
  match limit with
  | 0 => ([], false, text)
  | limit + 1 =>
    let embedded := if 0 < limit then readSeparator ':' index readIpv4Addr text else none
    match embedded with
    | some ([a, b, c, d], rest) => ([a * 256 + b, c * 256 + d], true, rest)
    | _ =>
      match readSeparator ':' index (readNumber 16 4 true 65536) text with
      | none => ([], false, text)
      | some (group, rest) =>
        let (groups, ipv4, rest) := readGroups limit (index + 1) rest
        (group :: groups, ipv4, rest)

def readIpv6Addr (text : List Char) : Option (List Nat × List Char) :=
  let (head, headIpv4, rest) := readGroups 8 0 text
  if head.length = 8 then
    some (head, rest)
  else if headIpv4 then
    none
  else do
    let rest ← readGivenChar ':' rest
    let rest ← readGivenChar ':' rest
    let (tail, _, rest) := readGroups (8 - (head.length + 1)) 0 rest
    some (head ++ List.replicate (8 - head.length - tail.length) 0 ++ tail, rest)

def parseIpv6 (text : List Char) : Option (List Nat) :=
  match readIpv6Addr text with
  | some (segments, []) => some segments
  | _ => none

/--
The first of the longest runs of zeros, if it has at least two of them: where it starts and its length.
-/
def longestZeros (segments : List Nat) : Option Nat × Nat :=
  go segments.length segments 0 (none, 0)
where
  go (fuel : Nat) (segments : List Nat) (index : Nat) (best : Option Nat × Nat) : Option Nat × Nat :=
    match fuel, segments with
    | 0, _ => best
    | _, [] => best
    | fuel + 1, segment :: rest =>
      if segment ≠ 0 then
        go fuel rest (index + 1) best
      else
        let len := 1 + (rest.takeWhile (· = 0)).length
        let best := if 2 ≤ len ∧ best.2 < len then (some index, len) else best
        go fuel (rest.dropWhile (· = 0)) (index + len) best

def showSegments (segments : List Nat) : List Char :=
  [':'].intercalate (segments.map (Nat.toDigits 16))

-- A colon stands between two groups only, so none is added on either side of the two colons.
def canonicalIpv6 (segments : List Nat) : List Char :=
  match longestZeros segments with
  | (none, _) => showSegments segments
  | (some start, len) =>
    showSegments (segments.take start) ++ "::".toList ++ showSegments (segments.drop (start + len))

def validDnsName (value : List Char) : Bool :=
  !value.isEmpty && decide (value.length ≤ 253) && !value.any Char.isUpper &&
    (value.splitOn '.').all (fun label =>
      decide (1 ≤ label.length ∧ label.length ≤ 63) &&
        label.all (fun c => c.isAlphanum || c == '-') &&
        label.head?.any Char.isAlphanum && label.getLast?.any Char.isAlphanum)

def insideBrackets (value : List Char) : Option (List Char) :=
  match value with
  | '[' :: rest => if rest.getLast? = some ']' then some rest.dropLast else none
  | _ => none

def validServer (value : List Char) : Bool :=
  match insideBrackets value with
  | some inner =>
    match parseIpv6 inner with
    | none => false
    | some segments => '[' :: canonicalIpv6 segments ++ [']'] == value
  | none => (parseIpv4 value).isSome || validDnsName value

structure ServerAddress where
  value : List Char
  valid : validServer value = true
  deriving DecidableEq

def parseServer (value : List Char) : Except NodelistErrorKind ServerAddress :=
  if h : validServer value = true then .ok ⟨value, h⟩ else .error .invalidEndpoint

def parsePort (value : List Char) : Except NodelistErrorKind UInt16 :=
  match Text.parseBelow 65536 value with
  | none => .error .invalidEndpoint
  | some port =>
    if port = 0 ∨ Nat.toDigits 10 port ≠ value then
      .error .invalidEndpoint
    else
      .ok (UInt16.ofNat port)

structure EndpointSpec where
  server : Option ServerAddress
  port : Option UInt16
  nonzero : port ≠ some 0
  deriving DecidableEq

namespace EndpointSpec

def new (server : Option ServerAddress) (port : Option UInt16)
    : Except NodelistErrorKind EndpointSpec :=
  if h : port = some 0 then .error .invalidEndpoint else .ok ⟨server, port, h⟩

def inherited : EndpointSpec := ⟨none, none, nofun⟩

def isInherited (endpoint : EndpointSpec) : Bool := endpoint.server.isNone && endpoint.port.isNone

def display (endpoint : EndpointSpec) : List Char :=
  match endpoint.server, endpoint.port with
  | none, none => []
  | some server, none => server.value
  | none, some port => ':' :: Nat.toDigits 10 port.toNat
  | some server, some port => server.value ++ ':' :: Nat.toDigits 10 port.toNat

end EndpointSpec

def parseEndpoint (value : List Char) : Except NodelistErrorKind EndpointSpec :=
  match value with
  | [] => .ok .inherited
  | ':' :: port => do
    let port ← parsePort port
    EndpointSpec.new none (some port)
  | '[' :: _ =>
    let (front, rest) := value.span (· ≠ ']')
    match rest with
    | [] => .error .invalidEndpoint
    | close :: suffix => do
      let server ← parseServer (front ++ [close])
      match suffix with
      | [] => EndpointSpec.new (some server) none
      | ':' :: port =>
        let port ← parsePort port
        EndpointSpec.new (some server) (some port)
      | _ => .error .invalidEndpoint
  | _ =>
    match Text.rsplitOnce ':' value with
    | some (server, port) => do
      let server ← parseServer server
      let port ← parsePort port
      EndpointSpec.new (some server) (some port)
    | none => do
      let server ← parseServer value
      EndpointSpec.new (some server) none

def validEmailAddress (value : List Char) : Bool :=
  !value.isEmpty && !value.any (fun c => decide (c.toNat ≤ 0x1f) || c.toNat == 0x7f || c == ',')

structure EmailAddress where
  value : List Char
  valid : validEmailAddress value = true
  deriving DecidableEq

def parseEmailAddress (value : List Char) : Except NodelistErrorKind EmailAddress :=
  if h : validEmailAddress value = true then .ok ⟨value, h⟩ else .error .invalidFlag

def parsePublicKey (base64 : Base64) (value : List Char) : Except NodelistErrorKind PublicKey :=
  if value.length ≠ 43 ∨ value.contains '=' then
    .error .invalidPublicKey
  else
    ((base64.decode value).bind (fixed 32)).okOr .invalidPublicKey

example : (parseServer "[2001:db8::1]".toList).isOk = true := by decide
example : (parseServer "[2001:0db8::1]".toList).isOk = false := by decide

end Nodelist

end Tith
