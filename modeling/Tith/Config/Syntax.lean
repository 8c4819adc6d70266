import Tith.Config.Pattern

/-!
This module contains the lines of a configuration file, their fields and what the directives of the four
files are made of.
-/

namespace Tith

def AddressError.text (error : AddressError) : String :=
  match error with
  | .emptyDomain => "address domain is empty"
  | .invalidDomain => "address domain contains a prohibited value"
  | .missingZone => "address zone is missing"
  | .invalidNumber => "address component is not a canonical decimal number"
  | .outOfRange => "address component is out of range"
  | .nonCanonical => "address contains an explicitly encoded default component"
  | .invalidOrder => "address components are out of order or repeated"
  | .invalidWildcard => "invalid address wildcard"

namespace Config

/--
How a file is refused for what it says by itself. A slice of a text that does not end between two
characters panics.
-/
inductive SyntaxFailure where
  | error (file : String) (line : Nat) (message : String)
  | panic
  deriving DecidableEq, Repr

structure Line where
  number : Nat
  text : List Char
  deriving DecidableEq, Repr

def isSeparator (c : Char) : Bool := c = ' ' || c = '\t'

def trimSeparators (text : List Char) : List Char :=
  ((text.dropWhile isSeparator).reverse.dropWhile isSeparator).reverse

/--
`split_terminator`: a line feed at the end does not begin another line.
-/
def splitTerminator (input : List Char) : List (List Char) :=
  let pieces := input.splitOn '\n'
  if pieces.getLast? = some [] then pieces.dropLast else pieces

def prohibited (c : Char) : Bool := (Text.isControl c && c ≠ '\t') || c.toNat = 0x7f

def lines (file : String) (input : String) : Except SyntaxFailure (List Line) :=
  let text := input.toList
  if text ≠ [] ∧ text.getLast? ≠ some '\n' then
    .error (.error file (text.count '\n' + 1) "missing final LF")
  else do
    let output ← (splitTerminator text).zipIdx.mapM (fun (raw, index) =>
      if raw.any prohibited then
        .error (.error file (index + 1) "prohibited control character")
      else
        .ok ({ number := index + 1, text := trimSeparators raw } : Line))
    .ok (output.filter (fun line => line.text ≠ [] ∧ line.text.head? ≠ some ';'))

def Line.fields (line : Line) : List String :=
  ((line.text.splitOnP isSeparator).filter (· ≠ [])).map String.ofList

def validName (value : String) : Bool :=
  value.toList ≠ [] && !value.toList.any (fun c => c = ' ' || c = '\t' || c = '@' || Text.isControl c)

def peerRef (file : String) (line : Nat) (value : String) : Except SyntaxFailure String :=
  match value.toList with
  | '@' :: name =>
    if validName (String.ofList name) then
      .ok (String.ofList name)
    else
      .error (.error file line "invalid peer reference")
  | _ => .error (.error file line "expected peer reference")

def identity (file : String) (line : Nat) (value : String) : Except SyntaxFailure IdentityRef :=
  if value.toList.head? = some '@' then do
    let name ← peerRef file line value
    .ok (.peer name)
  else
    match Address.fromStr value with
    | .error error => .error (.error file line error.text)
    | .ok address =>
      if address.isAnonymous then
        .error (.error file line "anonymous local identity must be a peer reference")
      else
        .ok (.address address)

def branchKind (text : String) : Option BranchKind :=
  match text with
  | "Zone" => some .zone
  | "Region" => some .region
  | "Host" => some .host
  | "Hub" => some .hub
  | _ => none

def independentKind (text : String) : Option IndependentKind :=
  match text with
  | "Zone" => some .zone
  | "Region" => some .region
  | _ => none

def rootAddress (text : String) : Option Address :=
  match Address.fromStr text with
  | .ok address => if address.isAnonymous then none else some address
  | .error _ => none

def selector (file : String) (line : Nat) (values : List String) : Except SyntaxFailure (Selector × Nat) :=
  let bad := SyntaxFailure.error file line "invalid selector"
  match values with
  | "All" :: _ => .ok (.all, 1)
  | "Address" :: value :: _ =>
    match Address.fromStr value with
    | .ok address => .ok (.address address, 2)
    | .error _ =>
      match AddressPattern.fromStr value with
      | .ok pattern => .ok (.addressPattern pattern, 2)
      | .error _ => .error bad
  | "Peer" :: value :: _ => do
    let name ← peerRef file line value
    .ok (.peer name, 2)
  | "Branch" :: kind :: address :: _ => do
    let kind ← (branchKind kind).okOr bad
    let address ← (rootAddress address).okOr bad
    .ok (.branch kind address, 3)
  | "Independent" :: kind :: address :: _ => do
    let kind ← (independentKind kind).okOr bad
    let address ← (rootAddress address).okOr bad
    .ok (.independent kind address, 3)
  | _ => .error bad

def disposition (text : String) : Option FailureDisposition :=
  match text with
  | "Dead-Letter" => some .deadLetter
  | "Discard" => some .discard
  | _ => none

def notification (text : String) : Option FailureNotification :=
  match text with
  | "None" => some .none
  | "Sender" => some .sender
  | "Origin-Sysop" => some .originSysop
  | "Both" => some .both
  | _ => none

def policy (file : String) (line : Nat) (values : List String) : Except SyntaxFailure FailurePolicy :=
  match values with
  | [disposed, "Notify", notified] => do
    let disposed ← (disposition disposed).okOr (.error file line "invalid disposition")
    let notified ← (notification notified).okOr (.error file line "invalid notification")
    .ok ⟨disposed, notified⟩
  | _ => .error (.error file line "invalid failure policy")

def methodList (file : String) (line : Nat) (values : List String) (methods : List RouteMethod)
    : Except SyntaxFailure (List RouteMethod) :=
  let push (method : RouteMethod) : Except SyntaxFailure (List RouteMethod) :=
    if methods.contains method then
      .error (.error file line "duplicate route method")
    else
      .ok (methods ++ [method])
  match values with
  | [] => .ok methods
  | "Via" :: value :: rest => do
    let name ← peerRef file line value
    let methods ← push (.via name)
    methodList file line rest methods
  | ["Via"] => .error (.error file line "missing Via peer")
  | value :: rest => do
    let method ←
      match value with
      | "Direct" => .ok RouteMethod.direct
      | "Boss" => .ok .boss
      | "Hub" => .ok .hub
      | "Host" => .ok .host
      | "Region" => .ok .region
      | "Zone" => .ok .zone
      | "Hold" => .ok .hold
      | _ => .error (.error file line "invalid route method")
    let methods ← push method
    methodList file line rest methods

def parseMethods (file : String) (line : Nat) (values : List String)
    : Except SyntaxFailure (List RouteMethod × Option FailurePolicy) := do
  let (methodValues, failureValues) :=
    match values.findIdx? (· = "On-Failure") with
    | some index => (values.take index, some (values.drop (index + 1)))
    | none => (values, none)
  let methods ← methodList file line methodValues []
  -- Nothing is tried behind a hold.
  if methods = [] ∨ (methods.findIdx? (· = .hold)).any (· + 1 ≠ methods.length) then
    .error (.error file line "invalid method list")
  else
    match failureValues with
    | none => .ok (methods, none)
    | some values => do
      let policy ← policy file line values
      .ok (methods, some policy)

/-!
Times.
-/

/--
Digits without a leading zero. The empty text passes, and is no number afterwards.
-/
def isDecimal (text : List Char) : Bool :=
  text = ['0'] || (text.head? ≠ some '0' && text.all Char.isDigit)

def duration (file : String) (line : Nat) (value : String) : Except SyntaxFailure UInt64 :=
  let text := value.toList
  let invalid := SyntaxFailure.error file line "invalid duration"
  let overflow := SyntaxFailure.error file line "duration overflow"
  if text.contains ':' then
    let (hours, rest) := text.span (· ≠ ':')
    let minutes := rest.tail
    if !isDecimal hours || minutes.length ≠ 2 || !minutes.all Char.isDigit then
      .error invalid
    else do
      let minutes ← (Text.parseU64 minutes).okOr invalid
      if minutes > 59 then
        .error invalid
      else
        match Text.parseU64 hours with
        | none => .error overflow
        | some hours =>
          if hours.toNat * 60 + minutes.toNat < 2 ^ 64 then
            .ok (hours * 60 + minutes)
          else
            .error overflow
  else if isDecimal text then
    (Text.parseU64 text).okOr overflow
  else
    .error invalid

/--
A text cut behind a number of bytes, if a character ends there.
-/
def cutBytes (text : List Char) (bytes : Nat) : Option (List Char × List Char) :=
  match text with
  | [] => if bytes = 0 then some ([], []) else none
  | c :: rest =>
    if bytes = 0 then
      some ([], c :: rest)
    else if c.utf8Size ≤ bytes then
      (cutBytes rest (bytes - c.utf8Size)).map (fun (front, back) => (c :: front, back))
    else
      none

def startTime (file : String) (line : Nat) (value : String) : Except SyntaxFailure UInt16 :=
  let invalid := SyntaxFailure.error file line "invalid Start"
  if value.utf8ByteSize ≠ 5 then
    .error invalid
  else do
    let (hour, rest) ← (cutBytes value.toList 2).okOr .panic
    let (colon, minute) ← (cutBytes rest 1).okOr .panic
    if colon ≠ [':'] then
      .error invalid
    else do
      let hour ← (Text.parseBelow 65536 hour).okOr invalid
      let minute ← (Text.parseBelow 65536 minute).okOr invalid
      if hour > 23 ∨ minute > 59 then
        .error invalid
      else
        .ok (UInt16.ofNat (hour * 60 + minute))

end Config

end Tith
