import Tith.Lib.Decoder
import Tith.Lib.Table

/-!
This module contains the ledger of the adapter: how far each inbound item has been converted, the legacy
objects it stands for and the items that were put aside for the administrator.
-/

namespace Tith

namespace Ledger

inductive State where
  | staged
  | published
  | acknowledged
  | retired
  deriving DecidableEq, Repr

def State.code (state : State) : UInt8 :=
  match state with
  | .staged => 1
  | .published => 2
  | .acknowledged => 3
  | .retired => 4

def State.fromCode (code : UInt8) : Option State :=
  match code with
  | 1 => some .staged
  | 2 => some .published
  | 3 => some .acknowledged
  | 4 => some .retired
  | _ => none

/--
A legacy object: its final name and the digest of its contents.
-/
structure Object where
  name : String
  digest : UInt64
  deriving DecidableEq, Repr

structure Record where
  inboundId : String
  payloadHash : Vector UInt8 32
  state : State
  objects : List Object
  note : String
  claimToken : String
  distribution : String
  forwardJob : String
  cleanup : List String
  deriving DecidableEq

structure QuarantineObject where
  name : String
  contents : List UInt8
  deriving DecidableEq, Repr

structure Orphan where
  inboundId : String
  authentication : String
  reason : String
  payload : List UInt8
  objects : List QuarantineObject
  notice : Option QuarantineObject
  noticePublished : Bool
  deriving DecidableEq, Repr

inductive LedgerError where
  | corruptRecord
  | quarantineExists (inboundId : String)
  deriving DecidableEq, Repr

end Ledger

end Tith
