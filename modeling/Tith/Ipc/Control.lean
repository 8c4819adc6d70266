import Tith.Ipc.Document
import Tith.Store.Basic

/-!
This module contains the requests that ask for jobs, events and received items: their operations and the
parsers of their documents.
-/

namespace Tith.Ipc

def exact (line : Line) (words : List String) : Option (List Field) :=
  if line.fields.length ≥ words.length ∧
      (line.fields.zip words).all (fun (field, word) => !field.quoted && field.text == word) then
    some (line.fields.drop words.length)
  else
    none

def oneQuoted (line : Line) (name : String) : Option String :=
  match exact line [name] with
  | some [⟨text, true⟩] => some text
  | _ => none

def validId (value : String) (mark : Char) : Bool :=
  value.utf8ByteSize == 33 &&
    match value.toList with
    | [] => false
    | first :: digits =>
      first == mark && digits.all (fun c => isAsciiHexdigit c && !c.isUpper)

def validJobId (value : String) : Bool := validId value 'J'

def validEventId (value : String) : Bool :=
  let (sequence, front) := value.toList.reverse.span (· ≠ ':')
  match front with
  | [] => false
  | _ :: job =>
    let sequence := sequence.reverse
    validJobId (String.ofList job.reverse) && !sequence.isEmpty && sequence.all Char.isDigit &&
      sequence.head? ≠ some '0'

inductive NextHop where
  | route
  | active (text : String)
  | passive (text : String)
  deriving DecidableEq, Repr

inductive FailureOverride where
  | route
  | policy (disposition : FailureDisposition) (notification : FailureNotification)
  deriving DecidableEq, Repr

def dispositionNamed (text : String) : Option FailureDisposition :=
  match text with
  | "Dead-Letter" => some .deadLetter
  | "Discard" => some .discard
  | _ => none

def notificationNamed (text : String) : Option FailureNotification :=
  match text with
  | "None" => some .none
  | "Sender" => some .sender
  | "Origin-Sysop" => some .originSysop
  | "Both" => some .both
  | _ => none

inductive JobRequest where
  | query (jobId : String) (itemAware paths : Bool)
  | cancel (jobId : String)
  | retry (jobId : String)
  | reroute (jobId : String) (nextHop : NextHop) (failurePolicy : Option FailureOverride)
  | events (application : String) (wait : Bool)
  | acknowledge (application eventId : String)
  deriving DecidableEq, Repr

def rerouteNextHop (line : Line) : Except IpcError NextHop :=
  match line.fields with
  | [⟨"Next-Hop", false⟩, ⟨"Route", false⟩] => .ok .route
  | [⟨"Next-Hop", false⟩, ⟨"Active", false⟩, ⟨target, true⟩] =>
    if target ≠ "" then .ok (.active target) else fail 3 "invalid Next-Hop"
  | [⟨"Next-Hop", false⟩, ⟨"Passive", false⟩, ⟨target, true⟩] =>
    if target ≠ "" then .ok (.passive target) else fail 3 "invalid Next-Hop"
  | _ => fail 3 "invalid Next-Hop"

def rerouteFailurePolicy (line : Line) : Except IpcError FailureOverride :=
  match line.fields with
  | [⟨"Failure-Policy", false⟩, ⟨"Route", false⟩] => .ok .route
  | [⟨"Failure-Policy", false⟩, ⟨disposition, false⟩, ⟨"Notify", false⟩, ⟨notification, false⟩] =>
    match dispositionNamed disposition with
    | none => fail 4 "invalid Failure-Policy disposition"
    | some disposition =>
      match notificationNamed notification with
      | none => fail 4 "invalid Failure-Policy notification"
      | some notification => .ok (.policy disposition notification)
  | _ => fail 4 "invalid Failure-Policy"

def parseReroute (jobId : String) (lines : List Line) : Except IpcError JobRequest :=
  match lines with
  | [_, nextHop] => do
    let nextHop ← rerouteNextHop nextHop
    .ok (.reroute jobId nextHop none)
  | [_, nextHop, failurePolicy] => do
    let nextHop ← rerouteNextHop nextHop
    let failurePolicy ← rerouteFailurePolicy failurePolicy
    .ok (.reroute jobId nextHop (some failurePolicy))
  | _ => fail 2 "invalid Reroute operation"

/--
The operation of the first line. `single` tells whether the document has no other line.
-/
def JobRequest.parseOperation (fields : List Field) (single : Bool) (lines : List Line)
    : Except IpcError JobRequest :=
  match fields with
  | [⟨op, false⟩, ⟨id, false⟩] =>
    if (op = "Query" ∨ op = "Query-Job") ∧ validJobId id ∧ single then
      .ok (.query id (op == "Query-Job") false)
    else if (op = "Cancel" ∨ op = "Retry") ∧ validJobId id ∧ single then
      .ok (if op = "Cancel" then .cancel id else .retry id)
    else if op = "Reroute" ∧ validJobId id then
      parseReroute id lines
    else
      fail 2 "not a job query, control, or event operation"
  | [⟨op, false⟩, ⟨id, false⟩, ⟨paths, false⟩] =>
    if (op = "Query" ∨ op = "Query-Job") ∧ validJobId id ∧ paths = "Paths" ∧ single then
      .ok (.query id (op == "Query-Job") true)
    else
      fail 2 "not a job query, control, or event operation"
  | [⟨op, false⟩, ⟨application, true⟩, ⟨mode, false⟩] =>
    if op = "Events" ∧ application ≠ "" ∧ (mode = "Now" ∨ mode = "Wait") ∧ single then
      .ok (.events application (mode == "Wait"))
    else
      fail 2 "not a job query, control, or event operation"
  | [⟨op, false⟩, ⟨application, true⟩, ⟨event, true⟩] =>
    if op = "Acknowledge" ∧ application ≠ "" ∧ validEventId event ∧ single then
      .ok (.acknowledge application event)
    else
      fail 2 "not a job query, control, or event operation"
  | _ => fail 2 "not a job query, control, or event operation"

def JobRequest.parse (input : List UInt8) : Except IpcError JobRequest := do
  let document ← Document.parse input .request
  match document.lines with
  | [] => fail 2 "missing operation"
  | first :: rest => JobRequest.parseOperation first.fields rest.isEmpty document.lines

structure LookupSubmission where
  application : String
  keys : List String
  deriving DecidableEq, Repr

namespace LookupSubmission

def parseKeys (lines : List Line) (number : Nat) (keys : List String) : Except IpcError (List String) :=
  match lines with
  | [] => .ok keys
  | line :: lines =>
    match exact line ["Idempotency-Key"] with
    | some [⟨text, true⟩] =>
      if text ≠ "" ∧ text ∉ keys then
        parseKeys lines (number + 1) (keys ++ [text])
      else
        fail number "invalid or duplicate Idempotency-Key"
    | _ => fail number "invalid or duplicate Idempotency-Key"

def parse (input : List UInt8) : Except IpcError LookupSubmission := do
  let document ← Document.parse input .request
  match document.lines with
  | [] => fail 2 "not a Lookup-Submission operation"
  | first :: rest =>
    match exact first ["Lookup-Submission"] with
    | some [⟨application, true⟩] =>
      if application = "" then
        fail 2 "not a Lookup-Submission operation"
      else do
        let keys ← parseKeys rest 3 []
        if keys = [] then
          fail 3 "Lookup-Submission contains no Idempotency-Key"
        else
          .ok ⟨application, keys⟩
    | _ => fail 2 "not a Lookup-Submission operation"

end LookupSubmission

inductive Presentation where
  | path
  | handle
  deriving DecidableEq, Repr

inductive ConsumeRequest where
  | capabilities
  | claim (application : String) (wait : Bool) (claimKey : String) (presentation : Presentation)
  | renew (inboundId claimToken : String)
  | acknowledge (inboundId claimToken : String)
  | release (inboundId claimToken : String)
  | defer (inboundId claimToken : String) (retryAfter : UInt64) (description : String)
  | reject (inboundId claimToken description : String)
  | query (inboundId : String)
  deriving DecidableEq, Repr

/--
A number without leading zeros. An empty text gets as far as the conversion.
-/
def parseU64 (value : String) : Option UInt64 :=
  if value = "0" ∨ (value.toList.head? ≠ some '0' ∧ value.toList.all Char.isDigit) then
    Text.parseU64 value.toList
  else
    none

def unsignedLine (line : Line) (name : String) (number : Nat) : Except IpcError UInt64 :=
  match exact line [name] with
  | none => fail number "wrong directive"
  | some [⟨text, false⟩] =>
    if text = "0" ∨ (text.toList.head? ≠ some '0' ∧ text.toList.all Char.isDigit) then
      match Text.parseU64 text.toList with
      | some value => .ok value
      | none => fail number "integer overflow"
    else
      fail number "invalid unsigned integer"
  | some _ => fail number "invalid unsigned integer"

def requireLineCount (lines : List Line) (count : Nat) : Except IpcError Unit :=
  if lines.length = count then .ok () else fail (count + 2) "extra or missing operation data"

namespace ConsumeRequest

/--
The item and the claim that an operation on a claim names.
-/
def control (operation : Line) (name : String) : Option (String × String) :=
  match exact operation [name] with
  | some [⟨id, false⟩, ⟨token, false⟩] =>
    if validId id 'I' ∧ validId token 'C' then some (id, token) else none
  | _ => none

def presentationOf (line : Line) : Except IpcError Presentation :=
  match exact line ["Presentation"] with
  | some [⟨"Path", false⟩] => .ok .path
  | some [⟨"Handle", false⟩] => .ok .handle
  | _ => fail 4 "invalid Presentation"

def parseClaim (application mode : String) (lines : List Line) : Except IpcError ConsumeRequest :=
  match lines with
  | [_, key, presentation] =>
    if mode = "Now" ∨ mode = "Wait" then do
      let key ← (oneQuoted key "Claim-Key").okOr ⟨3, "invalid Claim-Key"⟩
      if key = "" then
        fail 3 "empty Claim-Key"
      else
        let presentation ← presentationOf presentation
        .ok (.claim application (mode == "Wait") key presentation)
    else
      fail 2 "invalid Claim-Inbound"
  | _ => fail 2 "invalid Claim-Inbound"

def parseDefer (inboundId claimToken : String) (lines : List Line) : Except IpcError ConsumeRequest :=
  match lines with
  | [_, retryAfter, description] => do
    let retryAfter ← unsignedLine retryAfter "Retry-After" 3
    let description ← (oneQuoted description "Description").okOr ⟨4, "invalid Description"⟩
    .ok (.defer inboundId claimToken retryAfter description)
  | _ => fail 5 "extra or missing operation data"

def parseReject (inboundId claimToken : String) (lines : List Line) : Except IpcError ConsumeRequest :=
  match lines with
  | [_, description] => do
    let description ← (oneQuoted description "Description").okOr ⟨3, "invalid Description"⟩
    .ok (.reject inboundId claimToken description)
  | _ => fail 4 "extra or missing operation data"

def parseQuery (operation : Line) (lines : List Line) : Except IpcError ConsumeRequest :=
  match exact operation ["Query-Inbound"] with
  | some [⟨text, false⟩] =>
    if validId text 'I' then do
      requireLineCount lines 1
      .ok (.query text)
    else
      fail 2 "unknown or malformed operation"
  | _ => fail 2 "unknown or malformed operation"

def parseControl (operation : Line) (lines : List Line) : Except IpcError ConsumeRequest :=
  match control operation "Renew-Inbound" with
  | some (inboundId, claimToken) => do
    requireLineCount lines 1
    .ok (.renew inboundId claimToken)
  | none =>
    match control operation "Acknowledge-Inbound" with
    | some (inboundId, claimToken) => do
      requireLineCount lines 1
      .ok (.acknowledge inboundId claimToken)
    | none =>
      match control operation "Release-Inbound" with
      | some (inboundId, claimToken) => do
        requireLineCount lines 1
        .ok (.release inboundId claimToken)
      | none =>
        match control operation "Defer-Inbound" with
        | some (inboundId, claimToken) => parseDefer inboundId claimToken lines
        | none =>
          match control operation "Reject-Inbound" with
          | some (inboundId, claimToken) => parseReject inboundId claimToken lines
          | none => parseQuery operation lines

def parse (input : List UInt8) : Except IpcError ConsumeRequest := do
  let document ← Document.parse input .request
  match document.lines with
  | [] => fail 2 "missing operation"
  | operation :: rest =>
    if exact operation ["Capabilities"] = some [] ∧ rest = [] then
      .ok .capabilities
    else
      match exact operation ["Claim-Inbound"] with
      | some [⟨application, true⟩, ⟨mode, false⟩] => parseClaim application mode document.lines
      | _ => parseControl operation document.lines

end ConsumeRequest

end Tith.Ipc
