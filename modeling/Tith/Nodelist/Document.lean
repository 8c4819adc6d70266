import Tith.Nodelist.Flags

/-!
This module contains the records of a nodelist and the validator that checks one line after the other.
A line that is refused may have changed the validator before the check that refuses it.
-/

namespace Tith

namespace Nodelist

inductive Keyword where
  | normal
  | privateNode
  | hold
  | down
  | zone
  | region
  | host
  | hub
  deriving DecidableEq, Repr

inductive EndpointPort where
  | registeredDefault
  | explicit (port : UInt16)
  deriving DecidableEq, Repr

structure Endpoint where
  server : Option (List Char)
  port : EndpointPort
  deriving DecidableEq

def registeredTithPort : Option UInt16 := none

namespace Endpoint

def resolvedPort (endpoint : Endpoint) : Option UInt16 :=
  match endpoint.port with
  | .registeredDefault => registeredTithPort
  | .explicit port => some port

def isUsable (endpoint : Endpoint) : Bool := endpoint.server.isSome && endpoint.resolvedPort.isSome

end Endpoint

structure TithService where
  endpoints : List Endpoint
  publicKey : PublicKey
  deriving DecidableEq

structure Branch where
  zone : Address
  region : Option Address
  host : Option Address
  hub : Option Address
  deriving DecidableEq

structure Entry where
  keyword : Keyword
  address : Address
  nodeName : List Char
  location : List Char
  sysopName : List Char
  phone : List Char
  systemFlags : SystemFlags
  pstnIsdnFlags : PstnIsdnFlags
  internetFlags : InternetFlags
  emailFlags : EmailFlags
  otherFlags : OtherFlags
  tith : Option TithService
  branch : Branch
  deriving DecidableEq

structure Comment where
  interests : List Char
  text : List Char
  deriving DecidableEq

inductive Record where
  | comment (comment : Comment)
  | entry (entry : Entry)
  deriving DecidableEq

/--
How a call ends without a result: an error that the caller gets, or an `expect` that does not hold.
-/
inductive Fault where
  | error (line : Nat) (kind : NodelistErrorKind)
  | panic
  deriving DecidableEq, Repr

/-!
What a segment leaves out: the hierarchy in which its first record stands.
-/

inductive InitialContext where
  | zone
  | withinZone (zone : Int)
  | withinLocalNet (zone net : Int)
  deriving DecidableEq, Repr

def InitialContext.numbers (initial : InitialContext) : Int × Int :=
  match initial with
  | .zone => (1, 1)
  | .withinZone z => (z, z)
  | .withinLocalNet z net => (z, net)

structure SegmentContext where
  domain : String
  initial : InitialContext
  valid : validateAddress domain initial.numbers.1 initial.numbers.2 0 0 = .ok ()
  deriving DecidableEq

def SegmentContext.validated (domain : String) (initial : InitialContext)
    : Except Fault SegmentContext :=
  match h : validateAddress domain initial.numbers.1 initial.numbers.2 0 0 with
  | .error error => .error (.error 0 (.address error))
  | .ok () => .ok ⟨domain, initial, h⟩

structure Hierarchy where
  zone : Option Int
  region : Option Address
  host : Option Address
  hub : Option Address
  deriving DecidableEq

/--
The exclusive coordinator flags that have been given, by the zone, region or net they are given in.
-/
structure Coordinators where
  zonesWithZec : Finset Int
  regionsWithRec : Finset (Int × Int)
  regionsWithRpk : Finset (Int × Int)
  echomailCoordinatorNets : Finset (Int × Int)
  pointlistKeeperNets : Finset (Int × Int)
  coordinatorOverrideNets : Finset (Int × Int)
  deriving DecidableEq

structure Validator where
  domain : String
  initial : InitialContext
  requiresData : Bool
  firstData : Bool
  hierarchy : Hierarchy
  addresses : Finset Address
  coordinators : Coordinators
  deriving DecidableEq

def initialHierarchy (context : SegmentContext) : Hierarchy :=
  match context with
  | ⟨_, .zone, _⟩ => ⟨none, none, none, none⟩
  | ⟨_, .withinZone zone, _⟩ => ⟨some zone, none, none, none⟩
  | ⟨domain, .withinLocalNet zone net, valid⟩ =>
    ⟨some zone, none, some ⟨domain, zone, net, 0, 0, valid⟩, none⟩

def Validator.new (context : SegmentContext) (requiresData : Bool) : Validator :=
  { domain := context.domain
    initial := context.initial
    requiresData := requiresData
    firstData := true
    hierarchy := initialHierarchy context
    addresses := ∅
    coordinators := ⟨∅, ∅, ∅, ∅, ∅, ∅⟩ }

/-!
The checks of a line.
-/

def keywordText (keyword : Keyword) : String :=
  match keyword with
  | .normal => ""
  | .privateNode => "Pvt"
  | .hold => "Hold"
  | .down => "Down"
  | .zone => "Zone"
  | .region => "Region"
  | .host => "Host"
  | .hub => "Hub"

def keywords : List Keyword := [.normal, .privateNode, .hold, .down, .zone, .region, .host, .hub]

def parseKeyword (value : List Char) : Option Keyword :=
  keywords.find? (fun keyword => (keywordText keyword).toList = value)

def parseNodeNumber (value : List Char) : Option Int :=
  if value.head? = some '0' then
    none
  else
    match Text.digits? value with
    | none => none
    | some number => if 1 ≤ number ∧ number ≤ 32767 then some number else none

def validatePhone (phone : List Char) : Bool :=
  if phone = [] then
    true
  else
    let pieces := phone.splitOn '-'
    decide (3 ≤ phone.length ∧ phone.length ≤ 29) && decide (2 ≤ pieces.length) &&
      pieces.all (fun piece => !piece.isEmpty && piece.all Char.isDigit)

def prohibitedCharacter (c : Char) : Bool := Text.isControl c

structure Fields where
  keyword : List Char
  number : List Char
  nodeName : List Char
  location : List Char
  sysopName : List Char
  phone : List Char
  systemFlags : List Char
  pstnIsdnFlags : List Char
  internetFlags : List Char
  emailFlags : List Char
  otherFlags : List Char
  deriving DecidableEq

def splitFields (rawLine : List Char) : Option Fields :=
  match rawLine.splitOn '\t' with
  | [keyword, number, nodeName, location, sysopName, phone, systemFlags, pstnIsdnFlags, internetFlags,
      emailFlags, otherFlags] =>
    some ⟨keyword, number, nodeName, location, sysopName, phone, systemFlags, pstnIsdnFlags,
      internetFlags, emailFlags, otherFlags⟩
  | _ => none

def InitialContext.admits (initial : InitialContext) (keyword : Keyword) : Bool :=
  match initial with
  | .zone => keyword = .zone
  | .withinZone _ => keyword = .region ∨ keyword = .host
  | .withinLocalNet _ _ => keyword = .hub

def Keyword.isMember (keyword : Keyword) : Bool :=
  keyword = .normal ∨ keyword = .privateNode ∨ keyword = .hold ∨ keyword = .down

/--
The checks up to the first change of the validator.
-/
def Validator.readHead (validator : Validator) (rawLine : List Char)
    : Except NodelistErrorKind (Keyword × Fields) :=
  if rawLine.any (fun c => prohibitedCharacter c && c ≠ '\t') then
    .error .controlCharacter
  else
    match splitFields rawLine with
    | none => .error .wrongFieldCount
    | some fields =>
      match parseKeyword fields.keyword with
      | none => .error .invalidKeyword
      | some keyword =>
        if validator.firstData && !validator.initial.admits keyword then
          .error .invalidHierarchy
        else
          .ok (keyword, fields)

/--
The values of an `expect`: it fails with the panic, which is no error of the input.
-/
def expectAddress (domain : String) (zone net node : Int) : Except (Option NodelistErrorKind) Address :=
  (Address.new domain zone net node 0).mapError (fun _ => none)

def expectZone (hierarchy : Hierarchy) : Except (Option NodelistErrorKind) Int :=
  hierarchy.zone.okOr none

/--
The address of a record and the hierarchy below it. A failure without an error is a panic.
-/
def addressFor (domain : String) (hierarchy : Hierarchy) (keyword : Keyword) (number : Int)
    : Except (Option NodelistErrorKind) (Address × Hierarchy) :=
  match keyword with
  | .zone => do
    let address ← expectAddress domain number number 0
    .ok (address, ⟨some number, none, none, none⟩)
  | .region => do
    let zone ← expectZone hierarchy
    let address ← expectAddress domain zone number 0
    .ok (address, { hierarchy with host := none, hub := none, region := some address })
  | .host => do
    let zone ← expectZone hierarchy
    let address ← expectAddress domain zone number 0
    .ok (address, { hierarchy with hub := none, host := some address })
  | .hub => do
    let host ← hierarchy.host.okOr (some .invalidHierarchy)
    let address ← expectAddress domain host.zone host.net number
    .ok (address, { hierarchy with hub := some address })
  | .normal | .privateNode | .hold | .down => do
    let zone ← expectZone hierarchy
    let net := ((hierarchy.host.or hierarchy.region).map Address.net).getD zone
    let address ← expectAddress domain zone net number
    .ok (address, hierarchy)

structure RecordFlags where
  systemFlags : SystemFlags
  pstnIsdnFlags : PstnIsdnFlags
  internetFlags : InternetFlags
  emailFlags : EmailFlags
  otherFlags : OtherFlags
  deriving DecidableEq

def parseFlags (base64 : Base64) (fields : Fields) : Except NodelistErrorKind RecordFlags := do
  let systemFlags ← parseSystem fields.systemFlags
  let pstnIsdnFlags ← parsePstnIsdn fields.pstnIsdnFlags
  let internetFlags ← parseInternet base64 fields.internetFlags
  let emailFlags ← parseEmail fields.emailFlags
  let otherFlags ← parseOther fields.otherFlags
  .ok ⟨systemFlags, pstnIsdnFlags, internetFlags, emailFlags, otherFlags⟩

def usableContact (phone : List Char) (flags : RecordFlags) : Bool :=
  !phone.isEmpty ||
    ((resolvedServices flags.internetFlags).flatMap (·.endpoints)).any
      ResolvedInternetEndpoint.isUsable ||
    flags.emailFlags.any (fun flag => flag.address.isSome)

/--
The checks between the change of the addresses and the changes of the coordinators.
-/
def readBody (base64 : Base64) (keyword : Keyword) (fields : Fields) (hierarchy : Hierarchy)
    : Except NodelistErrorKind RecordFlags :=
  if keyword = .privateNode ∧ hierarchy.host.isNone then
    .error .invalidHierarchy
  else if !validatePhone fields.phone then
    .error .invalidPhone
  else do
    let flags ← parseFlags base64 fields
    if (keyword = .normal ∨ keyword = .privateNode) ∧
        decide (keyword = .privateNode) = usableContact fields.phone flags then
      .error .privateContact
    else
      .ok flags

def validSystemFlags (flags : SystemFlags) : Bool :=
  let fileRequests := flags.countP (fun flag => flag matches .fileRequest _)
  let exclusive := flags.any (fun flag =>
    flag matches .internetContinuousMail | .mailPeriod _ | .onlinePeriod _)
  fileRequests ≤ 1 && !(flags.contains .continuousMail && exclusive)

/--
The scope of one record in which the coordinator flags are exclusive.
-/
structure CoordinatorScope where
  keyword : Keyword
  zone : Int
  region : Option Int
  net : Int
  hasHost : Bool

/--
`insert` of a set: whether the element is new, and the set with it.
-/
def insertNew [DecidableEq α] (a : α) (s : Finset α) : Option (Finset α) :=
  if a ∈ s then none else some (insert a s)

/--
One flag: the coordinators with it, if the flag is valid in its scope.
-/
def admitFlag (scope : CoordinatorScope) (coordinators : Coordinators) (flag : OtherFlag)
    : Option Coordinators :=
  match flag with
  | .assigned .zoneEchomailCoordinator => do
    let zones ← insertNew scope.zone coordinators.zonesWithZec
    some { coordinators with zonesWithZec := zones }
  | .assigned .regionalEchomailCoordinator => do
    let region ← scope.region
    let regions ← insertNew (scope.zone, region) coordinators.regionsWithRec
    some { coordinators with regionsWithRec := regions }
  | .assigned .regionalPointlistKeeper => do
    let region ← scope.region
    let regions ← insertNew (scope.zone, region) coordinators.regionsWithRpk
    some { coordinators with regionsWithRpk := regions }
  | .assigned .networkEchomailCoordinator => do
    let nets ← insertNew (scope.zone, scope.net) coordinators.echomailCoordinatorNets
    some { coordinators with echomailCoordinatorNets := nets }
  | .assigned .netPointlistKeeper => do
    let nets ← insertNew (scope.zone, scope.net) coordinators.pointlistKeeperNets
    some { coordinators with pointlistKeeperNets := nets }
  | .assigned .networkCoordinator =>
    if scope.hasHost && scope.keyword.isMember then do
      let nets ← insertNew (scope.zone, scope.net) coordinators.coordinatorOverrideNets
      some { coordinators with coordinatorOverrideNets := nets }
    else
      none
  | _ => some coordinators

/--
The flags in their order. Those in front of an invalid one stay recorded.
-/
def admitFlags (scope : CoordinatorScope) (coordinators : Coordinators) (flags : OtherFlags)
    : Bool × Coordinators :=
  match flags with
  | [] => (true, coordinators)
  | flag :: rest =>
    match admitFlag scope coordinators flag with
    | none => (false, coordinators)
    | some coordinators => admitFlags scope coordinators rest

def coordinatorScope (keyword : Keyword) (address : Address) (zone : Int) (hierarchy : Hierarchy)
    : CoordinatorScope :=
  { keyword := keyword
    zone := zone
    region := hierarchy.region.map Address.net
    net := address.net
    hasHost := hierarchy.host.isSome }

def validateFlags (validator : Validator) (keyword : Keyword) (address : Address) (flags : RecordFlags)
    : Except (Option NodelistErrorKind) Unit × Validator :=
  if !validSystemFlags flags.systemFlags then
    (.error (some .invalidFlag), validator)
  else
    match validator.hierarchy.zone with
    | none => (.error none, validator)
    | some zone =>
      let scope := coordinatorScope keyword address zone validator.hierarchy
      let (valid, coordinators) := admitFlags scope validator.coordinators flags.otherFlags
      let validator := { validator with coordinators := coordinators }
      if valid then (.ok (), validator) else (.error (some .invalidFlag), validator)

def tithService (flags : InternetFlags) : Except (Option NodelistErrorKind) (Option TithService) :=
  let services := (resolvedServices flags).filter (fun service => service.protocol = .tith)
  match services with
  | [] => .ok none
  | service :: _ => do
    let publicKey ← service.publicKey.okOr none
    let endpoints := (services.flatMap (·.endpoints)).map (fun endpoint =>
      { server := endpoint.server.map ServerAddress.value
        port := (endpoint.port.map .explicit).getD .registeredDefault : Endpoint })
    .ok (some ⟨endpoints, publicKey⟩)

def buildEntry (validator : Validator) (keyword : Keyword) (fields : Fields) (address : Address)
    (flags : RecordFlags)
    : Except (Option NodelistErrorKind) Entry := do
  let tith ← tithService flags.internetFlags
  let zone ← expectZone validator.hierarchy
  let zoneAddress ← expectAddress validator.domain zone zone 0
  .ok
    { keyword := keyword
      address := address
      nodeName := fields.nodeName
      location := fields.location
      sysopName := fields.sysopName
      phone := fields.phone
      systemFlags := flags.systemFlags
      pstnIsdnFlags := flags.pstnIsdnFlags
      internetFlags := flags.internetFlags
      emailFlags := flags.emailFlags
      otherFlags := flags.otherFlags
      tith := tith
      branch :=
        { zone := zoneAddress
          region := validator.hierarchy.region
          host := validator.hierarchy.host
          hub := validator.hierarchy.hub } }

/--
`parse_data_line`, with the validator as every way out of it leaves it.
-/
def Validator.parseDataLine (base64 : Base64) (validator : Validator) (rawLine : List Char)
    : Except (Option NodelistErrorKind) Entry × Validator :=
  match validator.readHead rawLine with
  | .error kind => (.error (some kind), validator)
  | .ok (keyword, fields) =>
    let validator := { validator with firstData := false }
    match parseNodeNumber fields.number with
    | none => (.error (some .invalidNodeNumber), validator)
    | some number =>
      match addressFor validator.domain validator.hierarchy keyword number with
      | .error fault => (.error fault, validator)
      | .ok (address, hierarchy) =>
        let validator := { validator with hierarchy := hierarchy }
        if address ∈ validator.addresses then
          (.error (some .duplicateAddress), validator)
        else
          let validator := { validator with addresses := insert address validator.addresses }
          match readBody base64 keyword fields validator.hierarchy with
          | .error kind => (.error (some kind), validator)
          | .ok flags =>
            match validateFlags validator keyword address flags with
            | (.error fault, validator) => (.error fault, validator)
            | (.ok (), validator) => (buildEntry validator keyword fields address flags, validator)

def fault (line : Nat) (kind : Option NodelistErrorKind) : Fault :=
  match kind with
  | none => .panic
  | some kind => .error line kind

def splitComment (remainder : List Char) : Comment :=
  let (interests, text) := remainder.span Char.isAlpha
  ⟨interests, text⟩

def Validator.parseLine (base64 : Base64) (validator : Validator) (rawLine : List Char)
    : Except (Option NodelistErrorKind) Record × Validator :=
  match rawLine with
  | ';' :: remainder =>
    if rawLine.any prohibitedCharacter then
      (.error (some .controlCharacter), validator)
    else
      (.ok (.comment (splitComment remainder)), validator)
  | _ =>
    let (result, validator) := validator.parseDataLine base64 rawLine
    (result.map .entry, validator)

end Nodelist

end Tith
