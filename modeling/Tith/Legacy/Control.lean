import Tith.Lib.Except
import Tith.Lib.List
import Tith.Lib.Text

/-!
This module contains the control paragraphs and the body of a legacy message.
-/

namespace Tith

namespace Legacy

inductive ExportError where
  | tooLong (field : String) (maximum actual : Nat)
  | unrepresentable (what : String)
  | timestampOutOfRange
  | malformedDateTime
  | endpointMismatch
  deriving DecidableEq, Repr

def ExportError.describe (error : ExportError) : String :=
  match error with
  | .tooLong field maximum actual =>
    field ++ " needs " ++ toString actual ++ " bytes including its NUL but the legacy field holds " ++ toString maximum
  | .unrepresentable what => what ++ " is not representable in the legacy format"
  | .timestampOutOfRange => "timestamp is outside the 1970-2069 interval a two-digit year can express"
  | .malformedDateTime => "DateTime is not \"DD Mon YY  HH:MM:SS\""
  | .endpointMismatch => "packed message zone or point disagrees with its packet header"

def controlA : Char := '\x01'

/--
A control paragraph. The name ends at the first space or colon, and `raw` is the whole payload.
-/
structure Control where
  name : List Char
  value : List Char
  raw : List Char
  deriving DecidableEq, Repr

def isSeparator (c : Char) : Bool := c == ' ' || c == ':'

def Control.ofPayload (payload : List Char) : Control :=
  let (name, rest) := payload.span (fun c => !isSeparator c)
  { name, value := (rest.dropWhile (· = ':')).dropWhile (· = ' '), raw := payload }

/--
Splits the leading control paragraphs from a body. Every turn takes at least the Control-A.
-/
def splitControls (text : List Char) : List Control × List Char :=
  go text.length text
where
  go (fuel : Nat) (rest : List Char) : List Control × List Char :=
    match fuel, rest with
    | fuel + 1, '\x01' :: after =>
      let (payload, remainder) := after.span (· ≠ '\r')
      let (controls, text) := go fuel remainder.tail
      (.ofPayload payload :: controls, text)
    | _, rest => ([], rest)

def eqIgnoreAsciiCase (a b : List Char) : Bool := a.map Char.toLower = b.map Char.toLower

def findControl (controls : List Control) (name : String) : Option Control :=
  controls.find? fun control => eqIgnoreAsciiCase control.name name.toList

def control (payload : List Char) : Except ExportError (List Char) :=
  if payload.any (fun c => c = '\x00' ∨ c = '\r' ∨ c = '\n' ∨ c = controlA) then
    .error (.unrepresentable "control paragraph payload")
  else
    .ok (controlA :: payload ++ ['\r'])

def foldBreaks (text : List Char) : List Char :=
  match text with
  | [] => []
  | '\r' :: '\n' :: rest => '\r' :: foldBreaks rest
  | '\n' :: rest => '\r' :: foldBreaks rest
  | c :: rest => c :: foldBreaks rest

def terminated (terminator : Char) (text : List Char) : List Char :=
  if text ≠ [] ∧ text.getLast? ≠ some terminator then text ++ [terminator] else text

def encodeBody (text : List Char) : Except ExportError (List Char) :=
  if text.contains '\x00' then
    .error (.unrepresentable "U+0000 in MessageText")
  else
    .ok (terminated '\r' (foldBreaks text))

def decodeBody (body : List Char) : List Char :=
  if body = [] then
    []
  else
    let text := (body.filter (· ≠ '\n')).map fun c => if c = '\r' then '\n' else c
    if text.getLast? ≠ some '\n' then text ++ ['\n'] else text

def isBase64 (c : Char) : Bool := c.isAlphanum || c == '+' || c == '/'

/--
Base 64 characters in one `TITHSIGN` chunk and in each half of a `TITHSIG`.
-/
def chunkLength : Nat := 43

def tithsignControls (encoded : List Char) : Except ExportError (List (List Char)) :=
  if encoded = [] then
    .error (.unrepresentable "empty TITHSIGN sequence")
  else if !encoded.all isBase64 then
    .error (.unrepresentable "TITHSIGN encoding")
  else
    let chunks := encoded.toChunks chunkLength
    chunks.zipIdx.mapM fun (chunk, index) =>
      let marker := if index + 1 = chunks.length then '.' else '+'
      control ("TITHSIGN: 1 ".toList ++ marker :: ' ' :: chunk)

def tithsigControls (signature : List Char) : Except ExportError (List (List Char)) :=
  if signature.length ≠ chunkLength * 2 ∨ !signature.all isBase64 then
    .error (.unrepresentable "TITHSIG Signature encoding")
  else do
    let first ← control ("TITHSIG: 1 ".toList ++ signature.take chunkLength)
    let second ← control ("TITHSIG: 1 ".toList ++ signature.drop chunkLength)
    .ok [first, second]

end Legacy

end Tith
