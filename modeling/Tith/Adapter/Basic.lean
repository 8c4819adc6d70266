import Tith.Ledger.Basic
import Tith.Wire.ReadItem

/-!
This module contains what the adapter decides about an inbound item: the policy, the names of the legacy
objects and the outcome of a plan.
-/

namespace Tith

namespace Adapter

inductive Action where
  | deliverWarn
  | orphan
  | deliver
  deriving DecidableEq, Repr

structure Policy where
  unsigned : Action := .deliverWarn
  signedOriginValid : Action := .deliverWarn
  signedOriginInvalid : Action := .orphan
  originInvalid : Action := .orphan
  deriving DecidableEq, Repr

def Policy.action (policy : Policy) (authentication : ItemAuthentication) : Action :=
  match authentication with
  | .unsigned => policy.unsigned
  | .signedOriginValid => policy.signedOriginValid
  | .signedOriginInvalid => policy.signedOriginInvalid
  | .originInvalid => policy.originInvalid
  | .originValid | .transport => .deliver

/--
The diagnostic of TSP-0011 for an item that is not authenticated by its Origin.
-/
def diagnostic (authentication : ItemAuthentication) : Option String :=
  match authentication with
  | .unsigned =>
    some ("NOTICE: This message was not signed by its Origin, or its\n" ++
      "signature was removed before delivery.")
  | .signedOriginValid =>
    some ("NOTICE: This message was not signed by its Origin.  Its\n" ++
      "intermediate gateway signature was valid.")
  | .signedOriginInvalid =>
    some ("ERROR: This message's intermediate gateway signature does not verify\n" ++
      "under the public key selected for that gateway.")
  | .originInvalid =>
    some ("ERROR: This message's signature does not verify under the public key\n" ++
      "selected for its claimed Origin.")
  | .originValid | .transport => none

inductive Refusal where
  | unconvertible (reason : String)
  deriving DecidableEq, Repr

inductive Disposition where
  | reject
  | defer
  deriving DecidableEq, Repr

/--
A legacy link: the peer, the local address it is served as, and the key that an anonymous peer needs.
-/
structure Link where
  peer : Address
  localAddress : Address
  peerKey : Option PublicKey
  password : String

/--
What the adapter knows about a claim. The payload is what the claim's export path holds.
-/
structure Claimed where
  inboundId : String
  payloadHash : Vector UInt8 32
  claimToken : String
  peer : Address
  peerKey : PublicKey
  authentication : ItemAuthentication

/--
What an object is to the legacy side. Nothing in the adapter reads it: a packet and a TIC name the
companions that they need, and a notice is the packet that tells the operator about an item.
-/
inductive Kind where
  | companion
  | packet (companions : List String)
  | tic (companion : String)
  | notice
  deriving DecidableEq, Repr

/--
An object to publish. The name is the generated final one.
-/
structure Publication where
  name : String
  contents : List UInt8
  kind : Kind
  deriving DecidableEq, Repr

inductive Outcome where
  | publish (objects : List Publication) (note : String) (distribution : Option String) (forwardable : Bool)
  | orphan (reason : String) (authentication : String) (payload : List UInt8) (recovery : List Publication)
      (notice : Option Publication)
  | serveRequest (filename : String) (newerThan : Option UInt64)
  | refuse (refusal : Refusal) (disposition : Disposition)

/--
What ends the handling of a claim: the ledger, a payload that is not a usable item, a peer without a
link, or the database, the file system and the daemon with their own texts.
-/
inductive InboundError where
  | ledger (error : Ledger.LedgerError)
  | framing (error : FramingError)
  | item (error : BundleError)
  | payload (reason : String)
  | unknownPeer (peer : Address)
  | io (text : String)

/--
The FNV-1a digest, by which recovery tells its own object from another.
-/
def digest (bytes : List UInt8) : UInt64 :=
  bytes.foldl (fun hash byte => (hash ^^^ byte.toUInt64) * 0x100000001b3) 0xcbf29ce484222325

def isSafe (c : Char) : Bool :=
  c.isAlphanum || c == '-' || c == '_' || c == '$' || c == '~' || c == '!' || c == '#'

def safe (value : List Char) (maximum : Nat) : Bool :=
  1 ≤ value.length && value.length ≤ maximum && value.all isSafe

def isSafeEightThree (name : List Char) : Bool :=
  match name.span (· ≠ '.') with
  | (base, _ :: extension) => safe base 8 && safe extension 3
  | (base, []) => safe base 8

/--
`identity & 0xffff_ffff`.
-/
def truncate (identity : Nat) : Nat := identity % 2 ^ 32

/--
`{:08x}` of a 32 bit number.
-/
def hex8 (n : Nat) : List Char :=
  [7, 6, 5, 4, 3, 2, 1, 0].map fun i => Nat.digitChar (n / 16 ^ i % 16)

def keptExtension (lowered : List Char) : List Char :=
  let extension := (lowered.reverse.takeWhile (· ≠ '.')).reverse
  if '.' ∈ lowered ∧ 1 ≤ extension.length ∧ extension.length ≤ 3 ∧ extension.all Char.isAlphanum then
    extension
  else
    "dat".toList

/--
The name that a companion gets: its own, or one from the identity.
-/
def transferName (filename : String) (identity : Nat) : String :=
  let lowered := filename.toList.map Char.toLower
  if isSafeEightThree lowered then
    String.ofList lowered
  else
    String.ofList (hex8 identity ++ '.' :: keptExtension lowered)

def packetName (identity : Nat) : String := String.ofList (hex8 identity ++ ".pkt".toList)

def ticName (name : String) : String :=
  String.ofList (name.toList.takeWhile (· ≠ '.') ++ ".tic".toList)

end Adapter

end Tith
