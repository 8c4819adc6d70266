import Tith.Lib.Bytes
import Tith.Lib.Except
import Tith.Lib.Text

/-!
This module contains the documents of the inter process protocol of TSP-0004: lines of quoted and
unquoted fields inside of an envelope.
-/

namespace Tith.Ipc

structure IpcError where
  line : Nat
  message : String
  deriving DecidableEq, Repr

structure Field where
  text : String
  quoted : Bool
  deriving DecidableEq, Repr

structure Line where
  fields : List Field
  deriving DecidableEq, Repr

inductive EnvelopeKind where
  | request
  | result
  deriving DecidableEq, Repr

structure Document where
  kind : EnvelopeKind
  lines : List Line
  deriving DecidableEq, Repr

def fail (line : Nat) (message : String) : Except IpcError α := .error ⟨line, message⟩

def hexDigit (n : Nat) : Char := (Nat.digitChar n).toUpper

/--
The characters that `quote` writes for one character.
-/
def escape (c : Char) : List Char :=
  if c = '"' then
    ['\\', '"']
  else if c = '\\' then
    ['\\', '\\']
  else if c = '\x00' then
    ['\\', '0']
  else if c = '\t' then
    ['\\', 't']
  else if c = '\n' then
    ['\\', 'n']
  else if c = '\r' then
    ['\\', 'r']
  else if c.toNat ≤ 0x1f ∨ c.toNat = 0x7f then
    ['\\', 'x', hexDigit (c.toNat / 16), hexDigit (c.toNat % 16)]
  else
    [c]

def quote (value : List Char) : List Char := '"' :: (value.flatMap escape ++ ['"'])

def isAsciiHexdigit (c : Char) : Bool :=
  c.isDigit || ('A' ≤ c && c ≤ 'F') || ('a' ≤ c && c ≤ 'f')

def hex (value : Char) : Except IpcError Nat :=
  if '0' ≤ value ∧ value ≤ '9' then
    .ok (value.toNat - '0'.toNat)
  else if 'A' ≤ value ∧ value ≤ 'F' then
    .ok (value.toNat - 'A'.toNat + 10)
  else
    fail 0 "invalid hexadecimal digit"

def namedEscape (escape : Char) : Option Char :=
  if escape = '"' then
    some '"'
  else if escape = '\\' then
    some '\\'
  else if escape = '0' then
    some '\x00'
  else if escape = 't' then
    some '\t'
  else if escape = 'n' then
    some '\n'
  else if escape = 'r' then
    some '\r'
  else
    none

def hexEscape (line : Nat) (high low : Char) : Except IpcError Char :=
  if ¬[high, low].all (fun v => isAsciiHexdigit v && !v.isLower) then
    fail line "noncanonical hexadecimal escape"
  else do
    let high ← hex high
    let low ← hex low
    let value := high * 16 + low
    if 0x7f < value ∨ [0, 9, 10, 13, '"'.toNat, '\\'.toNat].contains value then
      fail line "invalid hexadecimal escape"
    else
      .ok (Char.ofNat value)

/--
The text of a quoted field and what is behind its closing quotation mark, from behind the opening
one. The source collects bytes, always those of whole characters, so that its two errors for values
that are not UTF-8 do not occur.
-/
def parseQuoted (line : Nat) (input output : List Char) : Except IpcError (List Char × List Char) :=
  match input with
  | [] => fail line "unterminated quoted string"
  | c :: rest =>
    if c = '"' then
      .ok (output, rest)
    else if c = '\\' then
      match rest with
      | [] => fail line "unterminated escape"
      | escape :: rest =>
        match namedEscape escape with
        | some c => parseQuoted line rest (output ++ [c])
        | none =>
          if escape = 'x' then
            match rest with
            | high :: low :: rest =>
              match hexEscape line high low with
              | .error e => .error e
              | .ok c => parseQuoted line rest (output ++ [c])
            | [c] =>
              -- The digits are two bytes, which one character beyond ASCII has.
              if c.toNat < 0x80 then
                fail line "short hexadecimal escape"
              else
                fail line "noncanonical hexadecimal escape"
            | [] => fail line "short hexadecimal escape"
          else
            fail line "unknown escape"
    else if c.toNat < 0x20 ∨ c.toNat = 0x7f then
      fail line "unescaped control character"
    else
      parseQuoted line rest (output ++ [c])

def parseField (number : Nat) (input : List Char) : Except IpcError (Field × List Char) :=
  match input with
  | '"' :: rest => do
    let (text, rest) ← parseQuoted number rest []
    .ok (⟨String.ofList text, true⟩, rest)
  | input =>
    let (text, rest) := input.span (· ≠ ' ')
    if text = [] ∨ ¬text.all (fun c => c.toNat < 0x80) ∨ text.any (fun c => c = '"' || c = '\\') then
      fail number "invalid unquoted field"
    else
      .ok (⟨String.ofList text, false⟩, rest)

/--
The fields of a line. Every turn takes at least one character.
-/
def parseFields (number fuel : Nat) (input : List Char) : Except IpcError (List Field) :=
  match input, fuel with
  | [], _ => .ok []
  | _ :: _, 0 => fail number "missing field separator"
  | c :: rest, fuel + 1 => do
    let (field, rest) ← parseField number (c :: rest)
    match rest with
    | [] => .ok [field]
    | separator :: rest =>
      if separator ≠ ' ' then
        fail number "missing field separator"
      else
        let fields ← parseFields number fuel rest
        .ok (field :: fields)

def parseLine (input : List Char) (number : Nat) : Except IpcError Line :=
  if input = [] ∨ input.head? = some ' ' ∨ input.getLast? = some ' ' ∨ '\t' ∈ input ∨
      [' ', ' '] <:+: input then
    fail number "noncanonical separators"
  else if input.any (fun c => Text.isControl c || c = '\x7f') then
    fail number "prohibited control character"
  else do
    let fields ← parseFields number input.length input
    .ok ⟨fields⟩

def Field.encode (field : Field) : List Char :=
  if field.quoted then quote field.text.toList else field.text.toList

def Line.encode (line : Line) : List Char :=
  [' '].intercalate (line.fields.map Field.encode) ++ ['\n']

def EnvelopeKind.header (kind : EnvelopeKind) : List Char :=
  match kind with
  | .request => "TITH-IPC 1".toList
  | .result => "TITH-IPC-Result 1".toList

/--
`split_terminator`: the pieces between the separators, without an empty one at the end.
-/
def splitTerminator (text : List Char) (separator : Char) : List (List Char) :=
  let pieces := text.splitOn separator
  if pieces.getLast? = some [] then pieces.dropLast else pieces

namespace Document

/--
The lines of a document with their numbers, which start behind the header.
-/
def parseLines (raw : List (List Char)) (number : Nat) : Except IpcError (List Line) :=
  match raw with
  | [] => .ok []
  | value :: raw => do
    let line ← parseLine value number
    let lines ← parseLines raw (number + 1)
    .ok (line :: lines)

def parseText (text : List Char) (kind : EnvelopeKind) : Except IpcError Document :=
  if text.getLast? ≠ some '\n' then
    fail (text.count '\n' + 1) "missing final LF"
  else
    let raw := splitTerminator text '\n'
    if raw.length < 3 then
      fail 1 "incomplete envelope"
    else if raw.head? ≠ some kind.header then
      fail 1 "invalid envelope header"
    else if raw.getLast? ≠ some "End".toList then
      fail raw.length "missing final End"
    else do
      let lines ← parseLines raw.tail.dropLast 2
      .ok ⟨kind, lines⟩

def parse (input : List UInt8) (kind : EnvelopeKind) : Except IpcError Document :=
  match Bytes.toString? input with
  | none => fail 1 "invalid UTF-8"
  | some text => parseText text.toList kind

def encodeText (document : Document) : List Char :=
  document.kind.header ++ '\n' :: (document.lines.flatMap Line.encode ++ "End\n".toList)

def encode (document : Document) : List UInt8 := Bytes.ofString (String.ofList document.encodeText)

end Document

end Tith.Ipc
