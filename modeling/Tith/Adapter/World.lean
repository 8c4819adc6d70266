import Tith.Adapter.Basic
import Tith.Lib.Program
import Tith.Lib.Table

/-!
This module contains the world of the adapter: the legacy directory with the staging files in it, the
ledger, and what has happened to them so far.
-/

namespace Tith

namespace Adapter

open Ledger (Record Orphan QuarantineObject State)

/--
A file under a final name. The number tells it from every other file that ever had the name; a file of
the adapter belongs to the item that it was published for.
-/
structure File where
  number : Nat
  owner : Option String
  contents : List UInt8
  deriving DecidableEq, Repr

/--
An object of an item becomes visible to the tosser as the file with the number, or has been completely
published.
-/
inductive Event where
  | shown (inboundId : String) (object : Publication) (number : Nat)
  | complete (inboundId : String) (name : String)
  deriving DecidableEq, Repr

/--
The `staging` files are the ones named `.tith-staging-` and the name. What follows `identity` is history
that the adapter does not see: the item being handled, the objects shown since, all events with the newest
first, and the files that others have put into the directory and no one has taken.
-/
structure Surface where
  staging : Table String (List UInt8)
  files : Table String File
  nextNumber : Nat
  records : Table String Record
  orphans : Table String Orphan
  identity : Nat
  attempt : Option String
  exposed : List Publication
  events : List Event
  unrelated : Table String (List UInt8)

def Surface.empty : Surface where
  staging := ∅
  files := ∅
  nextNumber := 0
  records := ∅
  orphans := ∅
  identity := 0
  attempt := none
  exposed := []
  events := []
  unrelated := ∅

/--
What a Forward Job came to.
-/
inductive Forwarded where
  | committed (jobId : String)
  | notCommitted (reason : String)
  deriving DecidableEq, Repr

/--
The operations on the file system, on the ledger and on the daemon.
-/
inductive Op where
  | createStaging (name : String)
  | writeStaging (name : String) (contents : List UInt8)
  | syncStaging (name : String)
  | removeStaging (name : String)
  | readStaging (name : String)
  | listStaging
  | hardLink (object : Publication)
  | createFinal (object : Publication)
  | writeFinal (object : Publication) (number : Nat) (contents : List UInt8)
  | syncFinal (name : String)
  | readFinal (name : String)
  | syncDirectory
  | readPayload
  | clock
  | getRecord (inboundId : String)
  | getOrphan (inboundId : String)
  | stage (record : Record)
  | stageOrphan (record : Record) (authentication : String) (payload : List UInt8)
      (objects : List QuarantineObject) (notice : Option QuarantineObject)
  | markOrphanNoticePublished (inboundId : String)
  | advance (inboundId : String) (state : State)
  | recordForward (inboundId : String) (jobId : String)
  | nextIdentity
  | acknowledge
  | defer (description : String)
  | reject (description : String)
  | release
  | forward
  | serveRequest

/--
How an operation that needs a free name ends. Only files under final names are numbered.
-/
inductive Creation where
  | created (number : Nat)
  | alreadyExists
  | failed (text : String)
  deriving DecidableEq, Repr

inductive Removal where
  | removed
  | notFound
  | failed (text : String)
  deriving DecidableEq, Repr

abbrev Op.Reply (op : Op) : Type :=
  match op with
  | .createStaging _ | .hardLink _ | .createFinal _ => Creation
  | .removeStaging _ => Removal
  | .readStaging _ | .readFinal _ => Except String (List UInt8)
  | .listStaging => Except String (List String)
  | .clock => Int
  | .getRecord _ => Except InboundError (Option Record)
  | .getOrphan _ => Except InboundError (Option Orphan)
  | .stageOrphan .. | .markOrphanNoticePublished _ | .advance .. | .recordForward .. => Except InboundError Unit
  | .nextIdentity => Except String Nat
  | .readPayload => Except String Unit
  | .forward => Except String Forwarded
  | .serveRequest => Except String Bool
  | _ => Except String Unit

/--
What is not up to the adapter when it issues an operation: whether it fails, how much of a write is done
before it does, the time, and what the daemon and the request processor answer.
-/
structure Surroundings where
  failure : Option String
  written : Nat
  now : Int
  forwarded : Forwarded
  served : Bool

namespace Surface

/--
A file of the item being handled appears under a final name that is free.
-/
def reveal (s : Surface) (object : Publication) (contents : List UInt8) : Surface :=
  match s.attempt with
  | none => s
  | some id =>
    { s with
      files := s.files.insert object.name ⟨s.nextNumber, some id, contents⟩
      nextNumber := s.nextNumber + 1
      exposed := object :: s.exposed
      events := .shown id object s.nextNumber :: s.events }

def complete (s : Surface) (name : String) : Surface :=
  match s.attempt with
  | none => s
  | some id => { s with events := .complete id name :: s.events }

/--
A write through the handle of a file, which need not be in the directory any more.
-/
def write (s : Surface) (name : String) (number : Nat) (contents : List UInt8) : Surface :=
  match s.files[name]? with
  | none => s
  | some file =>
    if file.number = number then
      { s with files := s.files.insert name { file with contents } }
    else
      s

/--
`amend` and `advance`: a change of an existing record.
-/
def amend (s : Surface) (inboundId : String) (change : Record → Record) : Except InboundError Unit × Surface :=
  match s.records[inboundId]? with
  | none => (.error (.ledger .corruptRecord), s)
  | some record => (.ok (), { s with records := s.records.insert inboundId (change record) })

def stageOrphan (s : Surface) (record : Record) (authentication : String) (payload : List UInt8)
    (objects : List QuarantineObject) (notice : Option QuarantineObject)
    : Except InboundError Unit × Surface :=
  let orphan : Orphan := {
    inboundId := record.inboundId
    authentication
    reason := record.note
    payload
    objects
    notice
    noticePublished := false }
  match s.orphans[record.inboundId]? with
  | some existing =>
    if { existing with noticePublished := false } = orphan then
      (.ok (), s)
    else
      (.error (.ledger (.quarantineExists record.inboundId)), s)
  | none =>
    (.ok (), { s with
      records := s.records.insert record.inboundId record
      orphans := s.orphans.insert record.inboundId orphan })

def markOrphanNoticePublished (s : Surface) (inboundId : String) : Except InboundError Unit × Surface :=
  match s.orphans[inboundId]? with
  | none => (.error (.ledger .corruptRecord), s)
  | some orphan =>
    match orphan.notice with
    | none => (.error (.ledger .corruptRecord), s)
    | some _ =>
      (.ok (), { s with orphans := s.orphans.insert inboundId { orphan with noticePublished := true } })

/--
An operation that fails leaves the world as it is, apart from a write, which may have been done in part.
-/
def fail (s : Surface) (op : Op) (text : String) (around : Surroundings) : op.Reply × Surface :=
  match op with
  | .createStaging _ | .hardLink _ | .createFinal _ => (.failed text, s)
  | .removeStaging _ => (.failed text, s)
  | .readStaging _ | .readFinal _ | .listStaging | .nextIdentity | .readPayload | .forward | .serveRequest
  | .syncStaging _ | .syncFinal _ | .syncDirectory | .stage _ | .acknowledge | .defer _ | .reject _
  | .release => (.error text, s)
  | .writeStaging name contents =>
    (.error text, { s with staging := s.staging.insert name (contents.take around.written) })
  | .writeFinal object number contents => (.error text, s.write object.name number (contents.take around.written))
  | .getRecord _ | .getOrphan _ | .stageOrphan .. | .markOrphanNoticePublished _ | .advance ..
  | .recordForward .. => (.error (.io text), s)
  | .clock => (around.now, s)

def perform (s : Surface) (op : Op) (around : Surroundings) : op.Reply × Surface :=
  match op with
  | .createStaging name =>
    if name ∈ s.staging then
      (.alreadyExists, s)
    else
      (.created 0, { s with staging := s.staging.insert name [] })
  | .writeStaging name contents => (.ok (), { s with staging := s.staging.insert name contents })
  | .removeStaging name =>
    if name ∈ s.staging then
      (.removed, { s with staging := s.staging.erase name })
    else
      (.notFound, s)
  | .readStaging name =>
    match s.staging[name]? with
    | none => (.error "No such file or directory", s)
    | some contents => (.ok contents, s)
  | .listStaging => (.ok s.staging.keys, s)
  | .hardLink object =>
    if object.name ∈ s.files then
      (.alreadyExists, s)
    else
      match s.staging[object.name]? with
      | none => (.failed "No such file or directory", s)
      | some contents => (.created s.nextNumber, (s.reveal object contents).complete object.name)
  | .createFinal object =>
    if object.name ∈ s.files then
      (.alreadyExists, s)
    else
      (.created s.nextNumber, s.reveal object [])
  | .writeFinal object number contents =>
    (.ok (), (s.write object.name number contents).complete object.name)
  | .readFinal name =>
    match s.files[name]? with
    | none => (.error "No such file or directory", s)
    | some file => (.ok file.contents, s)
  | .clock => (around.now, s)
  | .getRecord inboundId => (.ok s.records[inboundId]?, s)
  | .getOrphan inboundId => (.ok s.orphans[inboundId]?, s)
  | .stage record => (.ok (), { s with records := s.records.insert record.inboundId record })
  | .stageOrphan record authentication payload objects notice =>
    s.stageOrphan record authentication payload objects notice
  | .markOrphanNoticePublished inboundId => s.markOrphanNoticePublished inboundId
  | .advance inboundId state => s.amend inboundId fun record => { record with state }
  | .recordForward inboundId jobId => s.amend inboundId fun record => { record with forwardJob := jobId }
  | .nextIdentity => (.ok (s.identity + 1), { s with identity := s.identity + 1 })
  | .forward => (.ok around.forwarded, s)
  | .serveRequest => (.ok around.served, s)
  | .syncStaging _ | .syncFinal _ | .syncDirectory | .readPayload | .acknowledge | .defer _ | .reject _
  | .release => (.ok (), s)

def act (s : Surface) (op : Op) (around : Surroundings) : op.Reply × Surface :=
  match around.failure with
  | some text => s.fail op text around
  | none => s.perform op around

def consume (s : Surface) (name : String) : Surface :=
  { s with files := s.files.erase name, unrelated := s.unrelated.erase name }

/--
Someone else puts a file under a free name.
-/
def put (s : Surface) (name : String) (contents : List UInt8) : Surface :=
  if name ∈ s.files then
    s
  else
    { s with
      files := s.files.insert name ⟨s.nextNumber, none, contents⟩
      nextNumber := s.nextNumber + 1
      unrelated := s.unrelated.insert name contents }

end Surface

end Adapter

end Tith
