import Tith.Adapter.Inbound
import Tith.Adapter.Tic

/-!
This module contains the conversions that the adapter plans with: a Message becomes a packet, a File gets a
TIC, and a notice is a packet to the operator.
-/

namespace Tith

namespace Adapter

open Legacy (Context ConvertError DomainCase Endpoint ExportError Packet PackedMessage PacketOptions)

/--
The part of the configuration that the conversions read.
-/
structure Settings where
  domain : String
  domainCase : DomainCase
  product : String
  version : String
  areaTags : Table String String

def Settings.context (settings : Settings) (link : Link) : Context where
  packetOrigin := link.peer
  packetDestination := link.localAddress
  domain := settings.domain
  domainCase := settings.domainCase
  product := settings.product
  version := settings.version
  areaTags := settings.areaTags

def endpointOf (address : Address) : Endpoint :=
  match Legacy.endpoint address with
  | .ok endpoint => endpoint
  | .error _ => ⟨0, 0, 0, 0⟩

def packetOptions (created : Int) (password : String) : PacketOptions where
  created
  productCode := 0
  revisionMajor := 0
  revisionMinor := 1
  password := password.toList
  productData := 0

def encodePacket (context : Context) (message : PackedMessage) (password : String) (now : Int)
    : Except ExportError (List UInt8) :=
  let packet : Packet := {
    origin := endpointOf context.packetOrigin
    destination := endpointOf context.packetDestination
    messages := [message] }
  packet.encode (packetOptions now password)

def noticeMessage (endpoint : Endpoint) (recipient subject : String) (text dateTime : List Char) : PackedMessage where
  origin := endpoint
  destination := endpoint
  attributes := 1
  dateTime
  toUser := recipient.toList
  fromUser := "TITH".toList
  subject := subject.toList
  controls := []
  text
  area := none

def encodeNotice (context : Context) (recipient subject text : String) (now : Int)
    : Except ExportError (List UInt8) := do
  let text ← Legacy.encodeBody text.toList
  let endpoint := endpointOf context.packetDestination
  let dateTime ← Legacy.formatDateTime now
  let packet : Packet := {
    origin := endpoint
    destination := endpoint
    messages := [noticeMessage endpoint recipient subject text dateTime] }
  packet.encode (packetOptions now "")

section

variable (c : Crypto) (base64 : Nodelist.Base64) (settings : Settings) (resolver : KeyResolver)

def convertedMessage (link : Link) (read : ReadMessage) (authentication : ItemAuthentication) (warning : Option String)
    : Except ConvertError Legacy.Converted :=
  Legacy.toLegacy c base64 read (settings.context link) authentication warning resolver

def messagePacket (link : Link) (read : ReadMessage) (authentication : ItemAuthentication) (warning : Option String)
    (now : Int)
    : Except ConvertError (List UInt8) := do
  let converted ← convertedMessage c base64 settings resolver link read authentication warning
  (encodePacket (settings.context link) converted.message link.password now).mapError .legacy

def summary (converted : Legacy.Converted) : Converted where
  area := converted.message.area.map String.ofList
  canonical := converted.fidelity = .canonical
  diagnostic := converted.diagnostic

def conversion : Conversion where
  toLegacy link read authentication warning :=
    let converted := convertedMessage c base64 settings resolver link read authentication warning
    (converted.map summary).mapError ConvertError.describe
  packet link read authentication warning now :=
    (messagePacket c base64 settings resolver link read authentication warning now).mapError ConvertError.describe
  toTic link read name :=
    ((toTic read (settings.context link) ⟨name, none, none⟩).map Legacy.utf8).mapError ConvertError.describe
  areaTag name := (settings.areaTags[name]?).okOr (ConvertError.describe (.missing "legacy tag for this AreaName"))
  notice link recipient subject text now :=
    (encodeNotice (settings.context link) recipient subject text now).mapError ExportError.describe

end

end Adapter

end Tith
