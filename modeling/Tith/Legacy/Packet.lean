import Tith.Legacy.Address
import Tith.Legacy.Calendar
import Tith.Lib.Bytes

/-!
This module contains Type-2+ packets and the packed messages inside them.
-/

namespace Tith

namespace Legacy

inductive PacketError where
  | shortHeader
  | notTypeTwo
  | notTypePlus
  | missingAuxiliaryNet
  | malformedRecord
  | missingTerminator
  | shortMessage
  | missingFieldTerminator
  deriving DecidableEq, Repr

def packetHeaderBytes : Nat := 58
def packedHeaderBytes : Nat := 34
def nameBytes : Nat := 36
def subjectBytes : Nat := 72
def dateTimeBytes : Nat := 20
def passwordBytes : Nat := 8

/--
A packed message. The text has neither the leading controls nor the area line.
-/
structure PackedMessage where
  origin : Endpoint
  destination : Endpoint
  attributes : UInt16
  dateTime : List Char
  toUser : List Char
  fromUser : List Char
  subject : List Char
  controls : List Control
  text : List Char
  area : Option (List Char)
  deriving DecidableEq, Repr

structure Packet where
  origin : Endpoint
  destination : Endpoint
  messages : List PackedMessage
  deriving DecidableEq, Repr

def utf8 (text : List Char) : List UInt8 := Bytes.ofString (String.ofList text)

def u16At (bytes : List UInt8) (offset : Nat) : UInt16 :=
  (bytes.getD offset 0).toUInt16 ||| (bytes.getD (offset + 1) 0).toUInt16 <<< 8

def ofU16 (n : UInt16) : List UInt8 := [n.toUInt8, (n >>> 8).toUInt8]

def padTo (width : Nat) (bytes : List UInt8) : List UInt8 := bytes ++ List.replicate (width - bytes.length) 0

def validArea (name : List Char) : Bool :=
  let bytes := utf8 name
  1 ≤ bytes.length && bytes.length ≤ 60 && bytes.head? ≠ some 43 && bytes.head? ≠ some 45 &&
    bytes.all fun byte => (33 ≤ byte && byte ≤ 96) || (123 ≤ byte && byte ≤ 126)

def splitArea (body : List Char) : Option (List Char) × List Char :=
  match "AREA:".toList.isPrefixOf? body with
  | none => (none, body)
  | some rest =>
    let (name, remainder) := rest.span (fun c => c ≠ '\r' ∧ c ≠ '\n')
    if validArea name then (some name, remainder.tail) else (none, body)

def bounded (input : List UInt8) (maximum : Nat) : Except PacketError (List Char × List UInt8) :=
  match (input.take maximum).span (· ≠ 0) with
  | (_, []) => .error .missingFieldTerminator
  | (field, _ :: _) => do
    let value ← (Bytes.toString? field).okOr .missingFieldTerminator
    .ok (value.toList, input.drop (field.length + 1))

def unbounded (input : List UInt8) : Except PacketError (List Char × List UInt8) :=
  bounded input input.length

structure PacketHeader where
  origin : Endpoint
  destination : Endpoint

def parsePacked (input : List UInt8) (header : PacketHeader)
    : Except PacketError (PackedMessage × List UInt8) :=
  if input.length < packedHeaderBytes then
    .error .shortMessage
  else do
    let origin : Endpoint := {
      zone := header.origin.zone
      net := u16At input 6
      node := u16At input 2
      point := header.origin.point }
    let destination : Endpoint := {
      zone := header.destination.zone
      net := u16At input 8
      node := u16At input 4
      point := header.destination.point }
    let attributes := u16At input 10
    let (dateTime, rest) ← bounded (input.drop 14) dateTimeBytes
    let (toUser, rest) ← bounded rest nameBytes
    let (fromUser, rest) ← bounded rest nameBytes
    let (subject, rest) ← bounded rest subjectBytes
    let (body, rest) ← unbounded rest
    let (area, remainder) := splitArea body
    let (controls, text) := splitControls remainder
    .ok ({ origin, destination, attributes, dateTime, toUser, fromUser, subject, controls, text, area }, rest)

def parseHeader (input : List UInt8) : Except PacketError PacketHeader :=
  let capability := u16At input 44
  let originPoint := u16At input 50
  let originNetField := u16At input 20
  let auxiliaryNet := u16At input 38
  if input.length < packetHeaderBytes then
    .error .shortHeader
  else if u16At input 18 ≠ 2 then
    .error .notTypeTwo
  else if u16At input 40 ≠ (capability <<< 8 ||| capability >>> 8) ∨ capability &&& 1 = 0 then
    .error .notTypePlus
  else if originPoint ≠ 0 ∧ originNetField = 0xffff ∧ auxiliaryNet = 0 then
    .error .missingAuxiliaryNet
  else
    .ok {
      origin := {
        zone := u16At input 46
        net := if originPoint ≠ 0 ∧ originNetField = 0xffff then auxiliaryNet else originNetField
        node := u16At input 0
        point := originPoint }
      destination := {
        zone := u16At input 48
        net := u16At input 22
        node := u16At input 2
        point := u16At input 52 } }

def parse (input : List UInt8) : Except PacketError Packet := do
  let header ← parseHeader input
  let messages ← go header input.length (input.drop packetHeaderBytes)
  .ok { origin := header.origin, destination := header.destination, messages }
where
  /-- The records. Every one takes at least its header. -/
  go (header : PacketHeader) (fuel : Nat) (rest : List UInt8) : Except PacketError (List PackedMessage) :=
    if rest.length < 2 then
      .error .missingTerminator
    else if u16At rest 0 = 0 then
      .ok []
    else if u16At rest 0 = 2 then
      match fuel with
      | 0 => .error .missingTerminator
      | fuel + 1 => do
        let (message, remainder) ← parsePacked rest header
        let messages ← go header fuel remainder
        .ok (message :: messages)
    else
      .error .malformedRecord

def pushBounded (field : String) (value : List Char) (maximum : Nat) : Except ExportError (List UInt8) :=
  if value.contains '\x00' then
    .error (.unrepresentable field)
  else if maximum < (utf8 value).length + 1 then
    .error (.tooLong field maximum ((utf8 value).length + 1))
  else
    .ok (utf8 value ++ [0])

def areaLine (area : Option (List Char)) : Except ExportError (List Char) :=
  match area with
  | none => .ok []
  | some area =>
    if validArea area then .ok ("AREA:".toList ++ area ++ ['\r']) else .error (.unrepresentable "AREA name")

def PackedMessage.body (message : PackedMessage) : Except ExportError (List Char) := do
  let area ← areaLine message.area
  let controls ← message.controls.mapM fun value => control value.raw
  .ok (area ++ controls.flatten ++ message.text)

def PackedMessage.encode (message : PackedMessage) : Except ExportError (List UInt8) :=
  if dateTimeBytes ≤ (utf8 message.dateTime).length then
    .error (.tooLong "DateTime" dateTimeBytes ((utf8 message.dateTime).length + 1))
  else do
    let _ ← parseDateTime message.dateTime
    let toUser ← pushBounded "ToUserName" message.toUser nameBytes
    let fromUser ← pushBounded "FromUserName" message.fromUser nameBytes
    let subject ← pushBounded "Subject" message.subject subjectBytes
    let body ← message.body
    if body.contains '\x00' then
      .error (.unrepresentable "U+0000 in MessageText")
    else
      .ok (ofU16 2 ++ ofU16 message.origin.node ++ ofU16 message.destination.node ++ ofU16 message.origin.net ++
        ofU16 message.destination.net ++ ofU16 message.attributes ++ ofU16 0 ++
        padTo dateTimeBytes (utf8 message.dateTime) ++ toUser ++ fromUser ++ subject ++ utf8 body ++ [0])

structure PacketOptions where
  created : Int
  productCode : UInt16
  revisionMajor : UInt8
  revisionMinor : UInt8
  password : List Char
  productData : UInt32

def Packet.header (packet : Packet) (options : PacketOptions) : Except ExportError (List UInt8) :=
  let password := utf8 options.password
  let created := civilFromLocal options.created
  let (net, auxiliaryNet) :=
    if packet.origin.point = 0 then (packet.origin.net, 0) else (0xffff, packet.origin.net)
  if passwordBytes < password.length then
    .error (.tooLong "packet password" passwordBytes password.length)
  else if options.password.contains '\x00' then
    .error (.unrepresentable "packet password")
  else if ¬(0 ≤ created.year ∧ created.year < 2 ^ 16) then
    .error .timestampOutOfRange
  else
    .ok (ofU16 packet.origin.node ++ ofU16 packet.destination.node ++ ofU16 (UInt16.ofNat created.year.toNat) ++
      ofU16 (UInt16.ofNat (created.month - 1)) ++ ofU16 (UInt16.ofNat created.day) ++
      ofU16 (UInt16.ofNat created.hour) ++ ofU16 (UInt16.ofNat created.minute) ++
      ofU16 (UInt16.ofNat created.second) ++ ofU16 0 ++ ofU16 2 ++ ofU16 net ++ ofU16 packet.destination.net ++
      [options.productCode.toUInt8, options.revisionMajor] ++
      padTo passwordBytes password ++
      ofU16 packet.origin.zone ++ ofU16 packet.destination.zone ++ ofU16 auxiliaryNet ++ ofU16 0x0100 ++
      [(options.productCode >>> 8).toUInt8, options.revisionMinor] ++ ofU16 0x0001 ++
      ofU16 packet.origin.zone ++ ofU16 packet.destination.zone ++ ofU16 packet.origin.point ++
      ofU16 packet.destination.point ++ Bytes.ofLittleWord32 options.productData)

/--
A packet header has the zones and points of all its messages.
-/
def Packet.encodeMessage (packet : Packet) (message : PackedMessage) : Except ExportError (List UInt8) :=
  if message.origin.zone ≠ packet.origin.zone ∨ message.origin.point ≠ packet.origin.point ∨
      message.destination.zone ≠ packet.destination.zone ∨ message.destination.point ≠ packet.destination.point then
    .error .endpointMismatch
  else
    message.encode

def Packet.encode (packet : Packet) (options : PacketOptions) : Except ExportError (List UInt8) := do
  let header ← packet.header options
  let messages ← packet.messages.mapM packet.encodeMessage
  .ok (header ++ messages.flatten ++ ofU16 0)

def attributeFileAttached : UInt16 := (1 : UInt16) <<< 4

def PackedMessage.hasFileAttached (message : PackedMessage) : Bool :=
  message.attributes &&& attributeFileAttached ≠ 0

inductive Disposition where
  | keep
  | delete
  | truncate
  deriving DecidableEq, Repr

structure Attachment where
  name : List Char
  disposition : Disposition
  deriving DecidableEq, Repr

end Legacy

end Tith
