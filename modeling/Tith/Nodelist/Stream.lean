import Tith.Lib.Bytes
import Tith.Lib.Machine
import Tith.Nodelist.Document

/-!
This module contains the streaming reader and writer of nodelists. They share the validator.
-/

namespace Tith

namespace Nodelist

inductive Scope where
  | segment (context : SegmentContext)
  | distribution (domain : String)

def Scope.validator (scope : Scope) : Except Fault Validator :=
  match scope with
  | .segment context => .ok (Validator.new context true)
  | .distribution domain => do
    let context ← SegmentContext.validated domain .zone
    .ok (Validator.new context false)

structure NodelistReader where
  rest : List UInt8
  validator : Validator
  line : Nat
  done : Bool

def lineFeed : UInt8 := 10

namespace NodelistReader

def ofScope (scope : Scope) (bytes : List UInt8) : Except Fault NodelistReader := do
  let validator ← scope.validator
  .ok ⟨bytes, validator, 0, false⟩

/--
`read_until` takes the bytes up to the next line feed and the line feed itself.
-/
def next (base64 : Base64) (reader : NodelistReader)
    : Option (Except Fault Record) × NodelistReader :=
  if reader.done then
    (none, reader)
  else
    let (buffer, rest) := reader.rest.span (· ≠ lineFeed)
    match buffer, rest with
    | [], [] =>
      let reader := { reader with done := true }
      if reader.validator.requiresData && reader.validator.firstData then
        (some (.error (.error (reader.line + 1) .invalidHierarchy)), reader)
      else
        (none, reader)
    | _, [] =>
      let reader := { reader with line := reader.line + 1, rest := [], done := true }
      (some (.error (.error reader.line .missingFinalLineFeed)), reader)
    | _, _ :: rest =>
      let reader := { reader with line := reader.line + 1, rest := rest }
      match Bytes.toString? buffer with
      | none => (some (.error (.error reader.line .invalidUtf8)), { reader with done := true })
      | some line =>
        match reader.validator.parseLine base64 line.toList with
        | (.ok record, validator) => (some (.ok record), { reader with validator := validator })
        | (.error kind, validator) =>
          (some (.error (fault reader.line kind)), { reader with validator := validator, done := true })

/--
The items of the iterator. Every one of them takes a byte or is the last.
-/
def items (base64 : Base64) (reader : NodelistReader) : List (Except Fault Record) :=
  go (reader.rest.length + 2) reader
where
  go (fuel : Nat) (reader : NodelistReader) : List (Except Fault Record) :=
    match fuel with
    | 0 => []
    | fuel + 1 =>
      match reader.next base64 with
      | (none, _) => []
      | (some item, reader) => item :: go fuel reader

end NodelistReader

structure EntryInput where
  keyword : Keyword
  number : UInt16
  nodeName : List Char
  location : List Char
  sysopName : List Char
  phone : List Char
  systemFlags : SystemFlags
  pstnIsdnFlags : PstnIsdnFlags
  internetFlags : InternetFlags
  emailFlags : EmailFlags
  otherFlags : OtherFlags

inductive PublicationSource where
  | ordinary
  | firstPublicationFromAnonymousApplication (key : PublicKey)
  deriving DecidableEq

/--
What the destination of the writer does with the bytes of a line: it takes all of them, or it fails
after some of them.
-/
inductive WriteOutcome where
  | written
  | failed (bytes : Nat)
  deriving DecidableEq, Repr

structure NodelistWriter where
  output : List UInt8
  validator : Validator
  line : Nat

def entryLine (base64 : Base64) (input : EntryInput) : List Char :=
  ['\t'].intercalate
    [ (keywordText input.keyword).toList,
      Nat.toDigits 10 input.number.toNat,
      input.nodeName,
      input.location,
      input.sysopName,
      input.phone,
      listText SystemFlag.display input.systemFlags,
      listText PstnIsdnFlag.display input.pstnIsdnFlags,
      listText (InternetFlag.display base64) input.internetFlags,
      listText EmailFlag.display input.emailFlags,
      listText OtherFlag.display input.otherFlags ]

def validComment (comment : Comment) : Bool :=
  comment.interests.all Char.isAlpha && !comment.text.head?.any Char.isAlpha

def commentLine (comment : Comment) : List Char := ';' :: comment.interests ++ comment.text

def validPublicationSource (entry : Entry) (source : PublicationSource) : Bool :=
  match source with
  | .ordinary => true
  | .firstPublicationFromAnonymousApplication key => entry.tith.map (·.publicKey) = some key

def lineBytes (line : List Char) : List UInt8 := Bytes.ofString (String.ofList (line ++ ['\n']))

namespace NodelistWriter

def ofScope (scope : Scope) : Except Fault NodelistWriter := do
  let validator ← scope.validator
  .ok ⟨[], validator, 0⟩

def writeAll (writer : NodelistWriter) (line : List Char) (outcome : WriteOutcome) (result : α)
    : Except Fault α × NodelistWriter :=
  match outcome with
  | .written => (.ok result, { writer with output := writer.output ++ lineBytes line })
  | .failed bytes =>
    (.error (.error writer.line .io),
      { writer with output := writer.output ++ (lineBytes line).take bytes })

def writeComment (base64 : Base64) (writer : NodelistWriter) (comment : Comment)
    (outcome : WriteOutcome)
    : Except Fault Unit × NodelistWriter :=
  if !validComment comment then
    (.error (.error (writer.line + 1) .invalidComment), writer)
  else
    let writer := { writer with line := writer.line + 1 }
    match writer.validator.parseLine base64 (commentLine comment) with
    | (.error kind, validator) => (.error (fault writer.line kind), { writer with validator := validator })
    | (.ok _, validator) =>
      writeAll { writer with validator := validator } (commentLine comment) outcome ()

def writeEntry (base64 : Base64) (writer : NodelistWriter) (input : EntryInput)
    (source : PublicationSource) (outcome : WriteOutcome)
    : Except Fault Entry × NodelistWriter :=
  let writer := { writer with line := writer.line + 1 }
  match writer.validator.parseDataLine base64 (entryLine base64 input) with
  | (.error kind, validator) => (.error (fault writer.line kind), { writer with validator := validator })
  | (.ok entry, validator) =>
    let writer := { writer with validator := validator }
    if !validPublicationSource entry source then
      (.error (.error writer.line .applicationKeyMismatch), writer)
    else
      writeAll writer (entryLine base64 input) outcome entry

def finish (writer : NodelistWriter) (flushed : Bool) : Except Fault (List UInt8) :=
  if writer.validator.requiresData && writer.validator.firstData then
    .error (.error (writer.line + 1) .invalidHierarchy)
  else if !flushed then
    .error (.error writer.line .io)
  else
    .ok writer.output

end NodelistWriter

inductive WriteCall where
  | comment (comment : Comment) (outcome : WriteOutcome)
  | entry (input : EntryInput) (source : PublicationSource) (outcome : WriteOutcome)

/--
One call on the writer. The record of a call that succeeds is the comment it was given or the entry
it returns.
-/
def writeStep (base64 : Base64) (writer : NodelistWriter) (call : WriteCall)
    : Except Fault Record × NodelistWriter :=
  match call with
  | .comment comment outcome =>
    let (result, writer) := writer.writeComment base64 comment outcome
    (result.map (fun _ => .comment comment), writer)
  | .entry input source outcome =>
    let (result, writer) := writer.writeEntry base64 input source outcome
    (result.map .entry, writer)

def writerMachine (base64 : Base64) (writer : NodelistWriter)
    : Machine NodelistWriter WriteCall (Except Fault Record) where
  init := writer
  step := writeStep base64

def succeeded (results : List (Except Fault Record)) : List Record :=
  results.filterMap Except.toOption

end Nodelist

end Tith
