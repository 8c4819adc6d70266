import Tith.Ipc.Control
import Tith.Lib.StateExcept

/-!
This module contains the submission requests: a cursor over the lines of a job, the directives that it reads
and the parser of a whole batch.
-/

namespace Tith.Ipc

inductive SubmitOperation where
  | submit
  | submitItems
  deriving DecidableEq, Repr

inductive MessageKind where
  | netMail
  | echoMail
  deriving DecidableEq, Repr

structure MessageVia where
  address : String
  publicKey : Option String
  timestamp : UInt64
  software : String
  deriving DecidableEq, Repr

inductive Source where
  | path (text : String)
  | handle (number : UInt64)
  deriving DecidableEq, Repr

inductive Ingestion where
  | copy
  | move
  deriving DecidableEq, Repr

inductive WireFilename where
  | generate
  | name (text : String)
  deriving DecidableEq, Repr

structure SourceSubmission where
  source : Source
  ingestion : Ingestion
  disposition : SourceDisposition
  wireFilename : WireFilename
  timestamp : Option UInt64
  expectedSize : Option UInt64
  expectedHash : Option String
  deriving DecidableEq, Repr

structure MessageSubmission where
  kind : MessageKind
  origin : String
  localIdentity : Option String
  signedOrigin : Option String
  signedOriginPublicKey : Option String
  destinationOrArea : String
  toUser : String
  fromUser : String
  timestamp : Option UInt64
  subject : String
  messageText : String
  legacyAttributes : Option UInt64
  timestampOffset : Option Int
  tearLine : Option String
  originLine : Option String
  messageId : Option String
  replyTo : Option (String × String)
  signature : Option String
  vias : List MessageVia
  seenBy : List String
  additionalKludgeLines : List String
  deliveryClass : Option String
  nextHop : Option NextHop
  failurePolicy : Option FailureOverride
  attachments : List SourceSubmission
  deriving DecidableEq, Repr

structure PeerDelivery where
  destination : String
  deliveryClass : Option String
  mode : Option DeliveryMode
  failurePolicy : Option FailureOverride
  deriving DecidableEq, Repr

inductive FileTarget where
  | area (text : String)
  | peer (delivery : PeerDelivery)
  deriving DecidableEq, Repr

structure FileSubmission where
  origin : String
  signedOrigin : Option String
  target : FileTarget
  source : SourceSubmission
  shortDescription : Option String
  longDescriptionLines : List String
  tearLine : Option String
  magicWord : Option String
  replaces : Option String
  deriving DecidableEq, Repr

structure FileRequestSubmission where
  origin : String
  delivery : PeerDelivery
  filename : String
  newerThan : Option UInt64
  deriving DecidableEq, Repr

inductive SubmissionBody where
  | message (message : MessageSubmission)
  | file (file : FileSubmission)
  | fileRequest (request : FileRequestSubmission)
  | forward (inboundId claimToken : String)
  deriving DecidableEq, Repr

structure SubmissionJob where
  application : String
  idempotencyKey : String
  canonical : List UInt8
  body : SubmissionBody
  deriving DecidableEq, Repr

structure SubmissionRequest where
  operation : SubmitOperation
  jobs : List SubmissionJob
  deriving DecidableEq, Repr

/--
A negative number keeps its sign in front of the magnitude.
-/
def parseI64 (value : String) : Option Int :=
  let (negative, magnitude) :=
    match value.toList with
    | '-' :: magnitude => (true, magnitude)
    | magnitude => (false, magnitude)
  if value = "0" ∨ (magnitude ≠ [] ∧ magnitude.head? ≠ some '0' ∧ magnitude.all Char.isDigit) then
    match Text.digits? magnitude with
    | none => none
    | some n =>
      if negative then
        if n ≤ 2 ^ 63 then some (-(n : Int)) else none
      else
        if n < 2 ^ 63 then some (n : Int) else none
  else
    none

/--
The lines that are still to be read, and the number of the first of them.
-/
structure Cursor where
  lines : List Line
  number : Nat

abbrev CursorM := StateT Cursor (Except IpcError)

namespace Cursor

def error (message : String) : CursorM α := do
  let cursor ← get
  throw ⟨cursor.number, message⟩

/--
The fields behind the name of the directive, if the current line is one of that name.
-/
def current (name : String) : CursorM (Option (List Field)) := do
  let cursor ← get
  match cursor.lines with
  | [] => pure none
  | line :: _ => pure (exact line [name])

def advance : CursorM Unit := modify (fun cursor => ⟨cursor.lines.tail, cursor.number + 1⟩)

def requiredFields (name : String) : CursorM (List Field) := do
  match ← current name with
  | none => error "missing or out-of-order directive"
  | some fields => do
    advance
    pure fields

def requiredQuoted (name : String) : CursorM String := do
  match ← requiredFields name with
  | [⟨text, true⟩] => pure text
  | _ => error "invalid quoted directive"

/--
The value of the current line, if it is one of that name.
-/
def peek (name : String) (read : List Field → Except String α) : CursorM (Option α) := do
  match ← current name with
  | none => pure none
  | some fields =>
    match read fields with
    | .error message => error message
    | .ok value => pure (some value)

/--
A directive that may be missing. Its fields are read before the cursor moves on, so an error names its line.
-/
def optional (name : String) (read : List Field → Except String α) : CursorM (Option α) := do
  match ← peek name read with
  | none => pure none
  | some value => do
    advance
    pure (some value)

def optionalQuoted (name : String) : CursorM (Option String) :=
  optional name fun fields =>
    match fields with
    | [⟨text, true⟩] => .ok text
    | _ => .error "invalid quoted directive"

def optionalTwoQuoted (name : String) : CursorM (Option (String × String)) :=
  optional name fun fields =>
    match fields with
    | [⟨first, true⟩, ⟨second, true⟩] => .ok (first, second)
    | _ => .error "invalid quoted directive"

def optionalVia : CursorM (Option MessageVia) :=
  optional "Via" fun fields => do
    let (address, publicKey, timestamp, software) ←
      match fields with
      | [⟨address, true⟩, ⟨timestamp, false⟩, ⟨software, true⟩] =>
        Except.ok (address, none, timestamp, software)
      | [⟨address, true⟩, ⟨publicKey, true⟩, ⟨timestamp, false⟩, ⟨software, true⟩] =>
        .ok (address, some publicKey, timestamp, software)
      | _ => .error "invalid Via"
    let timestamp ← (parseU64 timestamp).okOr "invalid Via Timestamp"
    .ok ⟨address, publicKey, timestamp, software⟩

def optionalUnquoted (name : String) : CursorM (Option String) :=
  optional name fun fields =>
    match fields with
    | [⟨text, false⟩] => .ok text
    | _ => .error "invalid unquoted directive"

def optionalOne (name : String) : CursorM (Option Field) :=
  optional name fun fields =>
    match fields with
    | [field] => .ok field
    | _ => .error "invalid directive"

/--
A number behind the unquoted value of a directive, which the cursor has left already.
-/
def optionalNumber (name : String) (parse : String → Option α) (message : String) : CursorM (Option α) := do
  match ← optionalUnquoted name with
  | none => pure none
  | some value =>
    match parse value with
    | none => error message
    | some number => pure (some number)

def optionalU64 (name : String) : CursorM (Option UInt64) :=
  optionalNumber name parseU64 "invalid unsigned integer"

def optionalI64 (name : String) : CursorM (Option Int) :=
  optionalNumber name parseI64 "invalid signed integer"

def optionalAutoU64 (name : String) : CursorM (Option UInt64) := do
  let value ← optionalNumber name
    (fun value => if value = "Auto" then some none else (parseU64 value).map some) "invalid timestamp"
  pure value.join

def optionalNextHop : CursorM (Option NextHop) :=
  optional "Next-Hop" fun fields =>
    match fields with
    | [⟨"Route", false⟩] => .ok .route
    | [⟨"Active", false⟩, ⟨text, true⟩] => .ok (.active text)
    | [⟨"Passive", false⟩, ⟨text, true⟩] => .ok (.passive text)
    | _ => .error "invalid Next-Hop"

def optionalDeliveryMode : CursorM (Option DeliveryMode) :=
  optional "Next-Hop" fun fields =>
    match fields with
    | [⟨"Active", false⟩] => .ok .active
    | [⟨"Passive", false⟩] => .ok .passive
    | [⟨_, false⟩] => .error "invalid Next-Hop mode"
    | _ => .error "Next-Hop for this Kind names no identity"

def optionalFailurePolicy : CursorM (Option FailureOverride) :=
  optional "Failure-Policy" fun fields =>
    match fields with
    | [⟨"Route", false⟩] => .ok .route
    | [⟨disposition, false⟩, ⟨"Notify", false⟩, ⟨notification, false⟩] => do
      let disposition ← (dispositionNamed disposition).okOr "invalid Failure-Policy disposition"
      let notification ← (notificationNamed notification).okOr "invalid Failure-Policy notification"
      .ok (.policy disposition notification)
    | _ => .error "invalid Failure-Policy"

def peekExact (name : String) : CursorM Bool := do
  let fields ← current name
  pure (fields = some [])

def requiredEnd : CursorM Unit := do
  if !(← peekExact "End") then
    error "missing nested End"
  else
    advance

def finish : CursorM Unit := do
  let cursor ← get
  if cursor.lines = [] then pure () else error "unknown or out-of-order directive"

/--
A directive as often as it stands. Each time takes a line, so no more often than there are lines.
-/
def repeated (next : CursorM (Option α)) : CursorM (List α) := do
  let cursor ← get
  go cursor.lines.length
where
  go (fuel : Nat) : CursorM (List α) :=
    match fuel with
    | 0 => pure []
    | fuel + 1 => do
      match ← next with
      | none => pure []
      | some value => do
        let values ← go fuel
        pure (value :: values)

end Cursor

open Cursor

def sourcePath (fields : List Field) : Except String Source :=
  match fields with
  | [⟨text, true⟩] => .ok (.path text)
  | _ => .error "invalid Source-Path"

def sourceHandle (fields : List Field) : Except String Source :=
  match fields with
  | [⟨text, false⟩] => do
    let number ← (parseU64 text).okOr "invalid Source-Handle"
    .ok (.handle number)
  | _ => .error "invalid Source-Handle"

def parseSourceName : CursorM Source := do
  match ← peek "Source-Path" sourcePath with
  | some source => pure source
  | none =>
    match ← peek "Source-Handle" sourceHandle with
    | some source => pure source
    | none => error "missing Source"

def parseIngestion : CursorM Ingestion := do
  match ← optionalUnquoted "Ingestion" with
  | none => pure .copy
  | some "Copy" => pure .copy
  | some "Move" => pure .move
  | some _ => error "invalid Ingestion"

def parseDisposition : CursorM SourceDisposition := do
  match ← optionalUnquoted "Source-Disposition" with
  | none => pure .keep
  | some "Keep" => pure .keep
  | some "Delete" => pure .delete
  | some "Truncate" => pure .truncate
  | some _ => error "invalid Source-Disposition"

def parseWireFilename (attachment : Bool) : CursorM WireFilename := do
  match ← optionalOne "Wire-Filename" with
  | none => if attachment then pure .generate else error "standalone File requires Wire-Filename"
  | some ⟨text, false⟩ =>
    if text = "Generate" ∧ attachment then pure .generate else error "invalid Wire-Filename"
  | some ⟨text, true⟩ => pure (.name text)

/--
The size and the hash stand here for an attachment only.
-/
def parseExpected (attachment : Bool) : CursorM (Option UInt64 × Option String) :=
  if attachment then do
    let size ← optionalU64 "Expected-Size"
    let hash ← optionalQuoted "Expected-Hash"
    pure (size, hash)
  else
    pure (none, none)

def parseSource (attachment : Bool) : CursorM SourceSubmission := do
  let source ← parseSourceName
  advance
  let ingestion ← parseIngestion
  let disposition ← parseDisposition
  let wireFilename ← parseWireFilename attachment
  let timestamp ← optionalAutoU64 "File-Timestamp"
  let (expectedSize, expectedHash) ← parseExpected attachment
  pure ⟨source, ingestion, disposition, wireFilename, timestamp, expectedSize, expectedHash⟩

def parseAttachment : CursorM (Option SourceSubmission) := do
  if !(← peekExact "Attachment") then
    pure none
  else
    advance
    let source ← parseSource true
    requiredEnd
    pure (some source)

/--
How a message is delivered: these lines belong to NetMail only.
-/
def parseMessageDelivery (kind : MessageKind)
    : CursorM (Option String × Option NextHop × Option FailureOverride) :=
  match kind with
  | .netMail => do
    let deliveryClass ← optionalQuoted "Class"
    let nextHop ← optionalNextHop
    let failurePolicy ← optionalFailurePolicy
    pure (deliveryClass, nextHop, failurePolicy)
  | .echoMail => pure (none, none, none)

def parseMessage (kind : MessageKind) : CursorM MessageSubmission := do
  let origin ← requiredQuoted "Origin"
  let localIdentity ← optionalQuoted "Local-Identity"
  let signedOrigin ← optionalQuoted "Signed-Origin"
  let signedOriginPublicKey ← optionalQuoted "Signed-Origin-Public-Key"
  let destinationOrArea ← requiredQuoted
    (match kind with
      | .netMail => "Destination"
      | .echoMail => "Area")
  let toUser ← requiredQuoted "To-User"
  let fromUser ← requiredQuoted "From-User"
  let timestamp ← optionalAutoU64 "Timestamp"
  let subject ← optionalQuoted "Subject"
  let messageText ← optionalQuoted "Message-Text"
  let legacyAttributes ← optionalU64 "Legacy-Attributes"
  let timestampOffset ← optionalI64 "Timestamp-Offset"
  let tearLine ← optionalQuoted "Tear-Line"
  let originLine ← optionalQuoted "Origin-Line"
  let messageId ← optionalQuoted "Message-ID"
  let replyTo ← optionalTwoQuoted "Reply-To"
  let signature ← optionalQuoted "Signature"
  let vias ← repeated optionalVia
  let seenBy ← repeated (optionalQuoted "Seen-By")
  let additionalKludgeLines ← repeated (optionalQuoted "Additional-Kludge-Line")
  let (deliveryClass, nextHop, failurePolicy) ← parseMessageDelivery kind
  let attachments ← repeated parseAttachment
  finish
  pure
    { kind
      origin
      localIdentity
      signedOrigin
      signedOriginPublicKey
      destinationOrArea
      toUser
      fromUser
      timestamp
      subject := subject.getD ""
      messageText := messageText.getD ""
      legacyAttributes
      timestampOffset
      tearLine
      originLine
      messageId
      replyTo
      signature
      vias
      seenBy
      additionalKludgeLines
      deliveryClass
      nextHop
      failurePolicy
      attachments }

def parsePeerDelivery (destination : String) : CursorM PeerDelivery := do
  let deliveryClass ← optionalQuoted "Class"
  let mode ← optionalDeliveryMode
  let failurePolicy ← optionalFailurePolicy
  pure ⟨destination, deliveryClass, mode, failurePolicy⟩

def parseFileRequest : CursorM FileRequestSubmission := do
  let origin ← requiredQuoted "Origin"
  let destination ← requiredQuoted "Destination"
  let filename ← requiredQuoted "Filename"
  let newerThan ← optionalU64 "Newer-Than"
  let delivery ← parsePeerDelivery destination
  finish
  pure ⟨origin, delivery, filename, newerThan⟩

def parseFileTarget (peer : Bool) : CursorM FileTarget :=
  if peer then do
    let destination ← requiredQuoted "Destination"
    let delivery ← parsePeerDelivery destination
    pure (.peer delivery)
  else do
    let area ← requiredQuoted "Area"
    pure (.area area)

def openFileBlock : CursorM Unit := do
  if !(← peekExact "File") then
    error "missing File block"
  else
    advance

def parseFile (peer : Bool) : CursorM FileSubmission := do
  let origin ← requiredQuoted "Origin"
  let signedOrigin ← optionalQuoted "Signed-Origin"
  let target ← parseFileTarget peer
  openFileBlock
  let source ← parseSource false
  let shortDescription ← optionalQuoted "Short-Description"
  let longDescriptionLines ← repeated (optionalQuoted "Long-Description-Line")
  let tearLine ← optionalQuoted "Tear-Line"
  let magicWord ← optionalQuoted "Magic-Word"
  let replaces ← optionalQuoted "Replaces"
  let expectedSize ← optionalU64 "Expected-Size"
  let expectedHash ← optionalQuoted "Expected-Hash"
  let source :=
    if expectedSize.isSome ∨ expectedHash.isSome then
      { source with
        expectedSize := expectedSize
        expectedHash := expectedHash }
    else
      source
  requiredEnd
  finish
  pure
    { origin
      signedOrigin
      target
      source
      shortDescription
      longDescriptionLines
      tearLine
      magicWord
      replaces }

def parseForward : CursorM SubmissionBody := do
  match ← requiredFields "Inbound" with
  | [⟨id, false⟩, ⟨token, false⟩] => do
    finish
    pure (.forward id token)
  | _ => error "invalid Inbound"

inductive ParsedJobKind where
  | netMail
  | echoMail
  | file
  | peerFile
  | fileRequest
  | forward
  deriving DecidableEq, Repr

def jobKindNamed (text : String) : Option ParsedJobKind :=
  match text with
  | "NetMail" => some .netMail
  | "EchoMail" => some .echoMail
  | "File" => some .file
  | "Peer-File" => some .peerFile
  | "FileRequest" => some .fileRequest
  | "Forward" => some .forward
  | _ => none

def jobKind (operation : SubmitOperation) (opening : List Field) (number : Nat)
    : Except IpcError ParsedJobKind :=
  match operation, opening with
  | .submit, [⟨"Job", false⟩] => .ok .netMail
  | .submitItems, [⟨"Job", false⟩, ⟨text, false⟩] => (jobKindNamed text).okOr ⟨number, "invalid Job kind"⟩
  | _, _ => fail number "invalid Job opening"

def parseBody (kind : ParsedJobKind) : CursorM SubmissionBody :=
  match kind with
  | .forward => parseForward
  | .file => SubmissionBody.file <$> parseFile false
  | .peerFile => SubmissionBody.file <$> parseFile true
  | .fileRequest => SubmissionBody.fileRequest <$> parseFileRequest
  | .netMail => SubmissionBody.message <$> parseMessage .netMail
  | .echoMail => SubmissionBody.message <$> parseMessage .echoMail

def parseJobBody (kind : ParsedJobKind) : CursorM (String × String × SubmissionBody) := do
  let application ← requiredQuoted "Application"
  let idempotencyKey ← requiredQuoted "Idempotency-Key"
  let body ← parseBody kind
  pure (application, idempotencyKey, body)

/--
A job from its opening to its `End`.
-/
def parseJob (operation : SubmitOperation) (lines : List Line) (number : Nat) : Except IpcError SubmissionJob :=
  match lines with
  | [] => fail number "invalid Job opening"
  | opening :: rest => do
    let kind ← jobKind operation opening.fields number
    let ((application, idempotencyKey, body), _) ← parseJobBody kind ⟨rest.dropLast, number + 1⟩
    .ok ⟨application, idempotencyKey, lines.flatMap (fun line => Bytes.ofString (String.ofList line.encode)), body⟩

def isExactly (name : String) (line : Line) : Bool := exact line [name] = some []

/--
The lines up to the `End` that closes the job, and those behind it.
-/
def splitJob (depth : Nat) (lines : List Line) : Option (List Line × List Line) :=
  match lines with
  | [] => none
  | line :: lines =>
    if isExactly "Attachment" line ∨ isExactly "File" line then
      (splitJob (depth + 1) lines).map (fun (job, rest) => (line :: job, rest))
    else if isExactly "End" line then
      if depth = 1 then
        some ([line], lines)
      else
        (splitJob (depth - 1) lines).map (fun (job, rest) => (line :: job, rest))
    else
      (splitJob depth lines).map (fun (job, rest) => (line :: job, rest))

def jobEnd (opening : Line) (rest : List Line) (number : Nat) : Except IpcError (List Line × List Line) :=
  if opening.fields.head?.all (fun field => field.quoted || field.text ≠ "Job") then
    fail number "expected Job"
  else
    match splitJob 1 rest with
    | none => fail number "unterminated Job"
    | some (job, rest) => .ok (opening :: job, rest)

/--
The jobs one after the other. Every turn takes at least one line.
-/
def parseJobs (operation : SubmitOperation) (fuel : Nat) (lines : List Line) (number : Nat)
    : Except IpcError (List SubmissionJob) :=
  match lines, fuel with
  | [], _ => .ok []
  | _ :: _, 0 => fail number "missing Job"
  | opening :: rest, fuel + 1 => do
    let (job, rest) ← jobEnd opening rest number
    let first ← parseJob operation job number
    let jobs ← parseJobs operation fuel rest (number + job.length)
    .ok (first :: jobs)

namespace SubmissionRequest

def submitOperation (line : Line) : Option SubmitOperation :=
  if isExactly "Submit" line then
    some .submit
  else if isExactly "Submit-Items" line then
    some .submitItems
  else
    none

def parse (input : List UInt8) : Except IpcError SubmissionRequest := do
  let document ← Document.parse input .request
  match document.lines with
  | [] => fail 2 "not a submission operation"
  | first :: rest => do
    let operation ← (submitOperation first).okOr ⟨2, "not a submission operation"⟩
    let jobs ← parseJobs operation rest.length rest 3
    if jobs = [] then fail 3 "submission contains no Job" else .ok ⟨operation, jobs⟩

end SubmissionRequest

end Tith.Ipc
