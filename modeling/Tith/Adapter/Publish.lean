import Tith.Adapter.World

/-!
This module contains the publication of legacy objects: each is constructed under a private name and
then linked to its final name, which is never taken from another object.
-/

namespace Tith

namespace Adapter

/--
The programs of the adapter.
-/
abbrev Io (ε α : Type) := ExceptT ε (Program Op Op.Reply) α

def issue (op : Op) : Program Op Op.Reply op.Reply := .perform op

/--
The `?` of the source: an error of a part is an error of the whole.
-/
def attempt {ε α : Type} (p : Program Op Op.Reply (Except ε α)) : Io ε α := ExceptT.mk p

def createStaging (name : String) : Io String Unit := do
  match ← issue (.createStaging name) with
  | .created _ => return ()
  | .alreadyExists => throw "File exists"
  | .failed text => throw text

def removeStaging (name : String) : Io String Unit := do
  match ← issue (.removeStaging name) with
  | .removed => return ()
  | .notFound => throw "No such file or directory"
  | .failed text => throw text

def stage (name : String) (contents : List UInt8) : Io String Unit := do
  match ← issue (.createStaging name) with
  | .created _ => pure ()
  | .alreadyExists =>
    removeStaging name
    createStaging name
  | .failed text => throw text
  attempt (issue (.writeStaging name contents))
  attempt (issue (.syncStaging name))

def settleName (name : String) : Io String Bool := do
  removeStaging name
  attempt (issue .syncDirectory)
  return true

/--
Publishes a staged object under its final name, or says that the name is taken. Without hard links the
name is reserved first and the contents follow.
-/
def claimName (object : Publication) : Io String Bool := do
  match ← issue (.hardLink object) with
  | .created _ => settleName object.name
  | .alreadyExists => return false
  | .failed _ =>
    match ← issue (.createFinal object) with
    | .created number =>
      let contents ← attempt (issue (.readStaging object.name))
      attempt (issue (.writeFinal object number contents))
      attempt (issue (.syncFinal object.name))
      settleName object.name
    | .alreadyExists => return false
    | .failed text => throw text

def stageAll (objects : List Publication) : Io String Unit :=
  match objects with
  | [] => return ()
  | object :: rest => do
    stage object.name object.contents
    stageAll rest

def claimAll (objects : List Publication) : Io String (Except String Unit) :=
  match objects with
  | [] => return .ok ()
  | object :: rest => do
    if ← claimName object then
      claimAll rest
    else
      return .error object.name

def publish (objects : List Publication) : Io String (Except String Unit) := do
  stageAll objects
  claimAll objects

def removeAll (names : List String) : Io String Unit :=
  match names with
  | [] => return ()
  | name :: rest => do
    removeStaging name
    removeAll rest

def clearStaging : Io String Unit := do
  let names ← attempt (issue .listStaging)
  removeAll names

end Adapter

end Tith
