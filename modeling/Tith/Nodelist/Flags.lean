import Tith.Nodelist.Server

/-!
This module contains the five lists of flags of a nodelist record, their texts and their parsers.
-/

namespace Tith

namespace Nodelist

inductive FileRequestFlag where
  | xa
  | xb
  | xc
  | xp
  | xr
  | xw
  | xx
  deriving DecidableEq, Repr

namespace FileRequestFlag

def name (flag : FileRequestFlag) : String :=
  match flag with
  | .xa => "XA"
  | .xb => "XB"
  | .xc => "XC"
  | .xp => "XP"
  | .xr => "XR"
  | .xw => "XW"
  | .xx => "XX"

def index (flag : FileRequestFlag) : Nat :=
  match flag with
  | .xa => 0
  | .xb => 1
  | .xc => 2
  | .xp => 3
  | .xr => 4
  | .xw => 5
  | .xx => 6

end FileRequestFlag

structure MailPeriod where
  bell212a : Bool
  hour : Fin 24
  deriving DecidableEq, Repr

abbrev HalfHour := Fin 48

structure OnlinePeriod where
  start : HalfHour
  stop : HalfHour
  deriving DecidableEq, Repr

inductive SystemFlag where
  | continuousMail
  | listedOnly
  | manualPackets
  | internetContinuousMail
  | fileRequest (flag : FileRequestFlag)
  | mailPeriod (period : MailPeriod)
  | onlinePeriod (period : OnlinePeriod)
  deriving DecidableEq, Repr

def halfHourText (value : HalfHour) : Char :=
  let hour := value.val / 2
  if value.val % 2 = 0 then Char.ofNat ('A'.toNat + hour) else Char.ofNat ('a'.toNat + hour)

def parseHalfHour (value : Char) : Option HalfHour :=
  if 'A' ≤ value ∧ value ≤ 'X' then
    some (Fin.ofNat 48 ((value.toNat - 'A'.toNat) * 2))
  else if 'a' ≤ value ∧ value ≤ 'x' then
    some (Fin.ofNat 48 ((value.toNat - 'a'.toNat) * 2 + 1))
  else
    none

namespace SystemFlag

def order (flag : SystemFlag) : Nat :=
  match flag with
  | .continuousMail => 0
  | .listedOnly => 1
  | .manualPackets => 2
  | .internetContinuousMail => 3
  | .fileRequest flag => 10 + flag.index
  | .mailPeriod period => 100 + period.hour.val * 2 + (if period.bell212a then 0 else 1)
  | .onlinePeriod period => 1000 + period.start.val * 48 + period.stop.val

def twoDigits (n : Nat) : List Char :=
  if n < 10 then '0' :: Nat.toDigits 10 n else Nat.toDigits 10 n

def display (flag : SystemFlag) : List Char :=
  match flag with
  | .continuousMail => "CM".toList
  | .listedOnly => "LO".toList
  | .manualPackets => "MN".toList
  | .internetContinuousMail => "ICM".toList
  | .fileRequest flag => flag.name.toList
  | .mailPeriod period => (if period.bell212a then '#' else '!') :: twoDigits period.hour.val
  | .onlinePeriod period => ['T', halfHourText period.start, halfHourText period.stop]

end SystemFlag

inductive PstnIsdnFlag where
  | v22
  | v29
  | v32
  | v32Bis
  | v34
  | v90Client
  | v90Server
  | v32Terbo
  | vFastClass
  | hst
  | h14
  | h16
  | x2Client
  | x2Server
  | zyxel168
  | zyxel192
  | hayesV9600
  | pep
  | csp
  | mnp
  | v42
  | v42Bis
  | v110Low
  | v110High
  | v120Low
  | v120High
  | x75
  | isdn
  deriving DecidableEq, Repr

namespace PstnIsdnFlag

/--
The registry. Its order is the order in which a list has its flags.
-/
def registry : List (PstnIsdnFlag × String) :=
  [ (v22, "V22"), (v29, "V29"), (v32, "V32"), (v32Bis, "V32b"), (v34, "V34"), (v90Client, "V90C"),
    (v90Server, "V90S"), (v32Terbo, "V32T"), (vFastClass, "VFC"), (hst, "HST"), (h14, "H14"),
    (h16, "H16"), (x2Client, "X2C"), (x2Server, "X2S"), (zyxel168, "ZYX"), (zyxel192, "Z19"),
    (hayesV9600, "H96"), (pep, "PEP"), (csp, "CSP"), (mnp, "MNP"), (v42, "V42"), (v42Bis, "V42b"),
    (v110Low, "V110L"), (v110High, "V110H"), (v120Low, "V120L"), (v120High, "V120H"), (x75, "X75"),
    (isdn, "ISDN") ]

def order (flag : PstnIsdnFlag) : Nat := registry.findIdx (fun entry => entry.1 = flag)

def display (flag : PstnIsdnFlag) : List Char := ((registry.map Prod.snd).getD flag.order "").toList

end PstnIsdnFlag

inductive InternetFlag where
  | defaultServer (server : ServerAddress)
  | tith (endpoint : EndpointSpec) (publicKey : PublicKey)
  | binkp (endpoint : EndpointSpec)
  | ifcico (endpoint : EndpointSpec)
  | ftp (endpoint : EndpointSpec)
  | telnet (endpoint : EndpointSpec)
  | vmodem (endpoint : EndpointSpec)
  | unspecified (endpoint : EndpointSpec)
  | noIncomingIpv4
  deriving DecidableEq

def displayProtocol (name : String) (endpoint : EndpointSpec) : List Char :=
  if endpoint.isInherited then name.toList else name.toList ++ ':' :: endpoint.display

namespace InternetFlag

def order (flag : InternetFlag) : Nat :=
  match flag with
  | .defaultServer _ => 0
  | .tith _ _ => 1
  | .binkp _ => 2
  | .ifcico _ => 3
  | .ftp _ => 4
  | .telnet _ => 5
  | .vmodem _ => 6
  | .unspecified _ => 7
  | .noIncomingIpv4 => 8

def display (base64 : Base64) (flag : InternetFlag) : List Char :=
  match flag with
  | .defaultServer server => "INA:".toList ++ server.value
  | .tith endpoint publicKey =>
    let key := base64.encode publicKey.toList
    if endpoint.isInherited then
      "IIH:".toList ++ key
    else
      "IIH:".toList ++ endpoint.display ++ ':' :: key
  | .binkp endpoint => displayProtocol "IBN" endpoint
  | .ifcico endpoint => displayProtocol "IFC" endpoint
  | .ftp endpoint => displayProtocol "IFT" endpoint
  | .telnet endpoint => displayProtocol "ITN" endpoint
  | .vmodem endpoint => displayProtocol "IVM" endpoint
  | .unspecified endpoint => displayProtocol "IP" endpoint
  | .noIncomingIpv4 => "INO4".toList

end InternetFlag

inductive EmailMethod where
  | unspecified
  | transx
  | uuencode
  | mime
  | seat
  | voyager
  | other
  deriving DecidableEq, Repr

/--
The seven flags of electronic mail differ in the method only. The flag of the unspecified method is
the default of the others.
-/
structure EmailFlag where
  method : EmailMethod
  address : Option EmailAddress
  deriving DecidableEq

namespace EmailMethod

def registry : List (String × EmailMethod) :=
  [ ("IEM", unspecified), ("ITX", transx), ("IUC", uuencode), ("IMI", mime), ("ISE", seat),
    ("EVY", voyager), ("EMA", other) ]

def order (method : EmailMethod) : Nat := registry.findIdx (fun entry => entry.2 = method)

def name (method : EmailMethod) : String := (registry.map Prod.fst).getD method.order ""

end EmailMethod

def EmailFlag.display (flag : EmailFlag) : List Char :=
  match flag.address with
  | none => flag.method.name.toList
  | some address => flag.method.name.toList ++ ':' :: address.value

/-!
The other flags: the assigned ones in the order of their registry, then the extensions by name.
-/

inductive AssignedFlag where
  | mailOnly
  | emailGateway
  | ping
  | trace
  | zoneEchomailCoordinator
  | regionalEchomailCoordinator
  | networkEchomailCoordinator
  | networkCoordinator
  | softwareDistributionSystem
  | secureMailHub
  | regionalPointlistKeeper
  | netPointlistKeeper
  | encryptedMail
  | cdPoint
  deriving DecidableEq, Repr

namespace AssignedFlag

def registry : List (AssignedFlag × String) :=
  [ (mailOnly, "MO"), (emailGateway, "GUUCP"), (ping, "PING"), (trace, "TRACE"),
    (zoneEchomailCoordinator, "ZEC"), (regionalEchomailCoordinator, "REC"),
    (networkEchomailCoordinator, "NEC"), (networkCoordinator, "NC"),
    (softwareDistributionSystem, "SDS"), (secureMailHub, "SMH"), (regionalPointlistKeeper, "RPK"),
    (netPointlistKeeper, "NPK"), (encryptedMail, "ENC"), (cdPoint, "CDP") ]

def order (flag : AssignedFlag) : Nat := registry.findIdx (fun entry => entry.1 = flag)

def name (flag : AssignedFlag) : String := (registry.map Prod.snd).getD flag.order ""

end AssignedFlag

/--
Names that a flag of one of the five lists already has.
-/
def assignedName (text : List Char) : Bool :=
  (["CM", "LO", "MN", "ICM", "XA", "XB", "XC", "XP", "XR", "XW", "XX", "INA", "IIH", "IBN", "IFC",
      "IFT", "ITN", "IVM", "IP", "INO4", "IEM", "ITX", "IUC", "IMI", "ISE", "EVY", "EMA"].map
        String.toList).contains text ||
    (PstnIsdnFlag.registry.map (fun entry => entry.2.toList)).contains text ||
    (AssignedFlag.registry.map (fun entry => entry.2.toList)).contains text ||
    match text with
    | ['T', start, stop] => (parseHalfHour start).isSome && (parseHalfHour stop).isSome
    | _ => false

def validExtension (value : List Char) : Bool :=
  decide (1 ≤ value.length ∧ value.length ≤ 32) && value.all Char.isAlphanum && !assignedName value

structure ExtensionFlag where
  value : List Char
  valid : validExtension value = true
  deriving DecidableEq

inductive OtherFlag where
  | assigned (flag : AssignedFlag)
  | extension (flag : ExtensionFlag)
  deriving DecidableEq

def OtherFlag.display (flag : OtherFlag) : List Char :=
  match flag with
  | .assigned flag => flag.name.toList
  | .extension flag => flag.value

abbrev SystemFlags := List SystemFlag
abbrev PstnIsdnFlags := List PstnIsdnFlag
abbrev InternetFlags := List InternetFlag
abbrev EmailFlags := List EmailFlag
abbrev OtherFlags := List OtherFlag

def listText (display : α → List Char) (values : List α) : List Char :=
  [','].intercalate (values.map display)

def splitFlags (value : List Char) : Except NodelistErrorKind (List (List Char)) :=
  if value = [] then
    .ok []
  else
    let flags := value.splitOn ','
    if flags.any List.isEmpty then .error .invalidFlag else .ok flags

/--
No flag has a smaller order than the one in front of it, and no text stands twice.
-/
def checkOrder (display : α → List Char) (order : α → Nat) (flags : List α)
    : Except NodelistErrorKind Unit :=
  go flags none []
where
  go (flags : List α) (previous : Option Nat) (seen : List (List Char))
      : Except NodelistErrorKind Unit :=
    match flags with
    | [] => .ok ()
    | flag :: rest =>
      if previous.any (order flag < ·) ∨ seen.contains (display flag) then
        .error .invalidFlag
      else
        go rest (some (order flag)) (display flag :: seen)

def fileRequestFlags : List FileRequestFlag := [.xa, .xb, .xc, .xp, .xr, .xw, .xx]

def namedSystemFlags : List SystemFlag :=
  [.continuousMail, .listedOnly, .manualPackets, .internetContinuousMail] ++
    fileRequestFlags.map .fileRequest

def parseMailPeriod (bell212a : Bool) (text : List Char) : Except NodelistErrorKind MailPeriod :=
  match Text.parseBelow 256 text with
  | none => .error .invalidFlag
  | some hour => if h : hour < 24 then .ok ⟨bell212a, ⟨hour, h⟩⟩ else .error .invalidFlag

def parseSystemFlag (text : List Char) : Except NodelistErrorKind SystemFlag :=
  match namedSystemFlags.find? (fun flag => flag.display = text) with
  | some flag => .ok flag
  | none =>
    match text with
    | ['#', a, b] => do
      let period ← parseMailPeriod true [a, b]
      .ok (.mailPeriod period)
    | ['!', a, b] => do
      let period ← parseMailPeriod false [a, b]
      .ok (.mailPeriod period)
    | ['T', a, b] => do
      let start ← (parseHalfHour a).okOr .invalidFlag
      let stop ← (parseHalfHour b).okOr .invalidFlag
      .ok (.onlinePeriod ⟨start, stop⟩)
    | _ => .error .invalidFlag

def parseSystem (value : List Char) : Except NodelistErrorKind SystemFlags := do
  let texts ← splitFlags value
  let flags ← go texts []
  checkOrder SystemFlag.display SystemFlag.order flags
  .ok flags
where
  /-- The hours of the mail periods so far: each may stand once, with either mark. -/
  go (texts : List (List Char)) (periods : List (Fin 24)) : Except NodelistErrorKind SystemFlags :=
    match texts with
    | [] => .ok []
    | text :: rest => do
      let flag ← parseSystemFlag text
      match flag with
      | .mailPeriod period =>
        if periods.contains period.hour then
          .error .invalidFlag
        else
          let flags ← go rest (period.hour :: periods)
          .ok (flag :: flags)
      | _ =>
        let flags ← go rest periods
        .ok (flag :: flags)

def parsePstnIsdnFlag (text : List Char) : Except NodelistErrorKind PstnIsdnFlag :=
  match PstnIsdnFlag.registry.find? (fun entry => entry.2.toList = text) with
  | some entry => .ok entry.1
  | none => .error .invalidFlag

def parsePstnIsdn (value : List Char) : Except NodelistErrorKind PstnIsdnFlags := do
  let texts ← splitFlags value
  let flags ← texts.mapM parsePstnIsdnFlag
  checkOrder PstnIsdnFlag.display PstnIsdnFlag.order flags
  .ok flags

def stripName (name : String) (text : List Char) : Option (List Char) :=
  List.isPrefixOf? name.toList text

def parseProtocol (text : List Char) (name : String)
    : Except NodelistErrorKind (Option EndpointSpec) :=
  match stripName name text with
  | none => .ok none
  | some [] => do
    let endpoint ← parseEndpoint []
    .ok (some endpoint)
  | some (':' :: value) => do
    let endpoint ← parseEndpoint value
    .ok (some endpoint)
  | some _ => .error .invalidFlag

def parseIih (base64 : Base64) (value : List Char) : Except NodelistErrorKind InternetFlag := do
  let (endpoint, key) := (Text.rsplitOnce ':' value).getD ([], value)
  let endpoint ← parseEndpoint endpoint
  let publicKey ← parsePublicKey base64 key
  .ok (.tith endpoint publicKey)

/--
The protocols that have a server and a port only, in the order in which their names are tried.
-/
def protocols : List (String × (EndpointSpec → InternetFlag)) :=
  [ ("IBN", .binkp), ("IFC", .ifcico), ("IFT", .ftp), ("ITN", .telnet), ("IVM", .vmodem),
    ("IP", .unspecified) ]

def parseProtocols (text : List Char) (protocols : List (String × (EndpointSpec → InternetFlag)))
    : Except NodelistErrorKind InternetFlag :=
  match protocols with
  | [] => if text = "INO4".toList then .ok .noIncomingIpv4 else .error .invalidFlag
  | (name, construct) :: rest => do
    match ← parseProtocol text name with
    | some endpoint => .ok (construct endpoint)
    | none => parseProtocols text rest

def parseInternetFlag (base64 : Base64) (text : List Char) : Except NodelistErrorKind InternetFlag := do
  let flag ←
    match stripName "INA:" text with
    | some server => do
      let server ← parseServer server
      .ok (.defaultServer server)
    | none =>
      match stripName "IIH:" text with
      | some value => parseIih base64 value
      | none => parseProtocols text protocols
  if flag.display base64 ≠ text then .error .invalidFlag else .ok flag

/--
All the flags that have a key have the same one.
-/
def checkKeys (flags : InternetFlags) (key : Option PublicKey) : Except NodelistErrorKind Unit :=
  match flags with
  | [] => .ok ()
  | .tith _ publicKey :: rest =>
    if key.any (· ≠ publicKey) then .error .invalidPublicKey else checkKeys rest (some publicKey)
  | _ :: rest => checkKeys rest key

def parseInternet (base64 : Base64) (value : List Char) : Except NodelistErrorKind InternetFlags := do
  let texts ← splitFlags value
  let flags ← texts.mapM (parseInternetFlag base64)
  checkOrder (InternetFlag.display base64) InternetFlag.order flags
  checkKeys flags none
  .ok flags

def parseEmailFlag (text : List Char) (registry : List (String × EmailMethod))
    : Except NodelistErrorKind EmailFlag :=
  match registry with
  | [] => .error .invalidFlag
  | (name, method) :: rest =>
    match stripName name text with
    | none => parseEmailFlag text rest
    | some [] => .ok ⟨method, none⟩
    | some (':' :: address) => do
      let address ← parseEmailAddress address
      .ok ⟨method, some address⟩
    | some _ => .error .invalidFlag

def parseEmail (value : List Char) : Except NodelistErrorKind EmailFlags := do
  let texts ← splitFlags value
  let flags ← texts.mapM (fun text => parseEmailFlag text EmailMethod.registry)
  checkOrder EmailFlag.display (fun flag => flag.method.order) flags
  .ok flags

def parseOtherFlag (text : List Char) : Except NodelistErrorKind OtherFlag :=
  match AssignedFlag.registry.find? (fun entry => entry.2.toList = text) with
  | some entry => .ok (.assigned entry.1)
  | none =>
    if h : validExtension text = true then
      .ok (.extension ⟨text, h⟩)
    else
      .error .invalidFlag

def checkOtherOrder (flags : OtherFlags) (previousAssigned : Option Nat)
    (previousExtension : Option (List Char))
    : Except NodelistErrorKind Unit :=
  match flags with
  | [] => .ok ()
  | .assigned flag :: rest =>
    if previousExtension.isSome ∨ previousAssigned.any (flag.order ≤ ·) then
      .error .invalidFlag
    else
      checkOtherOrder rest (some flag.order) previousExtension
  | .extension flag :: rest =>
    if previousExtension.any (fun previous => decide (flag.value ≤ previous)) then
      .error .invalidFlag
    else
      checkOtherOrder rest previousAssigned (some flag.value)

def parseOther (value : List Char) : Except NodelistErrorKind OtherFlags := do
  let texts ← splitFlags value
  let flags ← texts.mapM parseOtherFlag
  checkOtherOrder flags none none
  .ok flags

/-!
What the flags of a record offer.
-/

inductive InternetProtocol where
  | tith
  | binkp
  | ifcico
  | ftp
  | telnet
  | vmodem
  | unspecified
  deriving DecidableEq, Repr

structure ResolvedInternetEndpoint where
  server : Option ServerAddress
  port : Option UInt16
  deriving DecidableEq

def ResolvedInternetEndpoint.isUsable (endpoint : ResolvedInternetEndpoint) : Bool :=
  endpoint.server.isSome && endpoint.port.isSome

structure ResolvedInternetService where
  protocol : InternetProtocol
  publicKey : Option PublicKey
  endpoints : List ResolvedInternetEndpoint
  deriving DecidableEq

def resolvedEndpoints (endpoint : EndpointSpec) (defaults : List ServerAddress)
    (defaultPort : Option UInt16)
    : List ResolvedInternetEndpoint :=
  let port := endpoint.port.or defaultPort
  match endpoint.server with
  | some server => [⟨some server, port⟩]
  | none => if defaults = [] then [⟨none, port⟩] else defaults.map (fun server => ⟨some server, port⟩)

namespace InternetFlag

def defaultServer? (flag : InternetFlag) : Option ServerAddress :=
  match flag with
  | .defaultServer server => some server
  | _ => none

def resolvedService (defaults : List ServerAddress) (flag : InternetFlag)
    : Option ResolvedInternetService :=
  match flag with
  | .defaultServer _ => none
  | .noIncomingIpv4 => none
  | .tith endpoint publicKey => some ⟨.tith, some publicKey, resolvedEndpoints endpoint defaults none⟩
  | .binkp endpoint => some ⟨.binkp, none, resolvedEndpoints endpoint defaults (some 24554)⟩
  | .ifcico endpoint => some ⟨.ifcico, none, resolvedEndpoints endpoint defaults (some 60179)⟩
  | .ftp endpoint => some ⟨.ftp, none, resolvedEndpoints endpoint defaults (some 21)⟩
  | .telnet endpoint => some ⟨.telnet, none, resolvedEndpoints endpoint defaults (some 23)⟩
  | .vmodem endpoint => some ⟨.vmodem, none, resolvedEndpoints endpoint defaults (some 3141)⟩
  | .unspecified endpoint => some ⟨.unspecified, none, resolvedEndpoints endpoint defaults none⟩

end InternetFlag

def resolvedServices (flags : InternetFlags) : List ResolvedInternetService :=
  flags.filterMap (InternetFlag.resolvedService (flags.filterMap InternetFlag.defaultServer?))

end Nodelist

end Tith
