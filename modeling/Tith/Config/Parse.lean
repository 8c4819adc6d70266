import Tith.Config.Syntax
import Tith.Nodelist.Server

/-!
This module contains the parsers of the four files. A file is a list of blocks, and its lines are read one
after the other with the block that is open.
-/

namespace Tith

namespace Config

/--
The number of the last line, which an unterminated block is reported at.
-/
def lastNumber (input : List Line) : Nat := (input.getLast?.map Line.number).getD 1

/-!
Peers.
-/

structure PeerBlock where
  name : String
  address : Option Address
  publicKey : Option PublicKey
  endpoints : List Endpoint
  trustOnFirstUse : Bool
  boss : Option String
  hub : Option String

structure PeersState where
  peers : Table String Peer
  identities : List (Address × Option PublicKey)
  block : Option PeerBlock

def peerStart (state : PeersState) (line : Line) : Except SyntaxFailure PeersState :=
  match line.fields with
  | ["Peer", name] =>
    if !validName name then
      .error (.error "peers" line.number "expected Peer <name>")
    else if state.peers[name]?.isSome then
      .error (.error "peers" line.number "duplicate peer name")
    else
      .ok { state with block := some ⟨name, none, none, [], false, none, none⟩ }
  | _ => .error (.error "peers" line.number "expected Peer <name>")

def publicKey (base64 : Nodelist.Base64) (line : Line) (value : String) : Except SyntaxFailure PublicKey :=
  let invalid := SyntaxFailure.error "peers" line.number "invalid public key"
  if value.utf8ByteSize ≠ 43 ∨ value.toList.contains '=' then
    .error invalid
  else do
    let bytes ← (base64.decode value.toList).okOr invalid
    if h : bytes.length = 32 then .ok ⟨bytes.toArray, by simp [h]⟩ else .error invalid

def endpoint (line : Line) (server portText : String) : Except SyntaxFailure Endpoint := do
  let port ← (Text.parseBelow 65536 portText.toList).okOr
    (.error "peers" line.number "invalid endpoint port")
  if port = 0 ∨ Nat.toDigits 10 port ≠ portText.toList ∨ server.toList.any Text.isControl then
    .error (.error "peers" line.number "invalid endpoint")
  else
    .ok ⟨server, UInt16.ofNat port⟩

def peerDirective (base64 : Nodelist.Base64) (block : PeerBlock) (line : Line)
    : Except SyntaxFailure PeerBlock :=
  let malformed :=
    SyntaxFailure.error "peers" line.number "unknown, duplicate, or malformed Peer directive"
  match line.fields with
  | ["Address", value] =>
    if block.address.isSome then
      .error malformed
    else
      match Address.fromStr value with
      | .error error => .error (.error "peers" line.number error.text)
      | .ok address => .ok { block with address := some address }
  | ["Public-Key", value] =>
    if block.publicKey.isSome then
      .error malformed
    else do
      let key ← publicKey base64 line value
      .ok { block with publicKey := some key }
  | ["Endpoint", server, port] => do
    let endpoint ← endpoint line server port
    if block.endpoints.contains endpoint then
      .error (.error "peers" line.number "duplicate Endpoint")
    else
      .ok { block with endpoints := block.endpoints ++ [endpoint] }
  | ["Trust-On-First-Use"] =>
    if block.trustOnFirstUse then .error malformed else .ok { block with trustOnFirstUse := true }
  | ["Boss", value] =>
    if block.boss.isSome then
      .error malformed
    else do
      let name ← peerRef "peers" line.number value
      .ok { block with boss := some name }
  | ["Hub", value] =>
    if block.hub.isSome then
      .error malformed
    else do
      let name ← peerRef "peers" line.number value
      .ok { block with hub := some name }
  | _ => .error malformed

def peerEnd (state : PeersState) (block : PeerBlock) (line : Line) : Except SyntaxFailure PeersState := do
  let address ← block.address.okOr (.error "peers" line.number "missing Address")
  if address.isAnonymous ≠ block.publicKey.isSome then
    .error (.error "peers" line.number "Public-Key must occur exactly for an anonymous address")
  else if !address.isAnonymous ∧ (block.boss.isSome ∨ block.hub.isSome) then
    .error (.error "peers" line.number "Boss and Hub require an anonymous peer")
  else if block.trustOnFirstUse ∧ (address.isAnonymous ∨ block.endpoints = []) then
    .error (.error "peers" line.number
      "Trust-On-First-Use requires a non-anonymous address and an Endpoint")
  else if state.identities.contains (address, block.publicKey) then
    .error (.error "peers" line.number "duplicate exact identity")
  else
    let peer : Peer :=
      { name := block.name
        address := address
        publicKey := block.publicKey
        endpoints := block.endpoints
        trustOnFirstUse := block.trustOnFirstUse
        boss := block.boss
        hub := block.hub }
    .ok
      { peers := state.peers.insert block.name peer
        identities := state.identities ++ [(address, block.publicKey)]
        block := none }

def peersLine (base64 : Nodelist.Base64) (state : PeersState) (line : Line)
    : Except SyntaxFailure PeersState :=
  match state.block with
  | none => peerStart state line
  | some block =>
    if line.fields = ["End"] then
      peerEnd state block line
    else do
      let block ← peerDirective base64 block line
      .ok { state with block := some block }

/--
`parse_peers` up to its checks of the relations between the peers.
-/
def peerBlocks (base64 : Nodelist.Base64) (input : String)
    : Except SyntaxFailure (Table String Peer) := do
  let input ← lines "peers" input
  let state ← input.foldlM (peersLine base64) ⟨∅, [], none⟩
  if state.block.isSome then
    .error (.error "peers" (lastNumber input) "unterminated Peer block")
  else
    .ok state.peers

/-!
Routes.
-/

structure RoutesBlock where
  localRef : IdentityRef
  routes : List RouteRule
  relay : List RelayRule
  failures : List FailureRule
  failureDefault : Option FailurePolicy

structure RoutesState where
  output : List Routes
  block : Option RoutesBlock

def routesStart (state : RoutesState) (line : Line) : Except SyntaxFailure RoutesState :=
  match line.fields with
  | ["Routes", value] => do
    let localRef ← identity "routes" line.number value
    if (state.output.map Routes.localRef).contains localRef then
      .error (.error "routes" line.number "duplicate Routes identity")
    else
      .ok { state with block := some ⟨localRef, [], [], [], none⟩ }
  | _ => .error (.error "routes" line.number "expected Routes <local-identity>")

/--
A selector behind a keyword, and the fields behind the selector.
-/
def keywordSelector (line : Line) (keyword : String) (values : List String)
    : Except SyntaxFailure (Selector × List String) :=
  match values with
  | [] => .error (.error "routes" line.number ("missing " ++ keyword))
  | first :: rest =>
    if first ≠ keyword then
      .error (.error "routes" line.number ("missing " ++ keyword))
    else do
      let (value, used) ← selector "routes" line.number rest
      .ok (value, rest.drop used)

def routeDirective (block : RoutesBlock) (line : Line) (values : List String)
    : Except SyntaxFailure RoutesBlock := do
  let (destination, used) ← selector "routes" line.number values
  match values.drop used with
  | "Using" :: rest => do
    let (methods, onFailure) ← parseMethods "routes" line.number rest
    let rule : RouteRule := ⟨destination, methods, onFailure⟩
    if block.routes.contains rule then
      .error (.error "routes" line.number "duplicate Route")
    else
      .ok { block with routes := block.routes ++ [rule] }
  | _ => .error (.error "routes" line.number "missing Using")

def relayDirective (block : RoutesBlock) (line : Line) (allow : Bool) (values : List String)
    : Except SyntaxFailure RoutesBlock := do
  let (fromPeer, rest) ← keywordSelector line "From" values
  let (origin, rest) ← keywordSelector line "Origin" rest
  let (destination, tail) ← keywordSelector line "Destination" rest
  let onFailure ←
    match tail with
    | [] => .ok none
    | "On-Failure" :: rest => do
      let policy ← policy "routes" line.number rest
      .ok (some policy)
    | _ => .error (.error "routes" line.number "invalid relay tail")
  let action ←
    if allow then
      .ok (RelayAction.allow onFailure)
    else if onFailure.isNone then
      .ok RelayAction.deny
    else
      .error (.error "routes" line.number "Deny-Relay cannot carry On-Failure")
  let rule : RelayRule := ⟨action, fromPeer, origin, destination⟩
  if block.relay.contains rule then
    .error (.error "routes" line.number "duplicate relay rule")
  else
    .ok { block with relay := block.relay ++ [rule] }

def failureKind (text : Option String) : Option FailureKind :=
  match text with
  | some "Any" => some .any
  | some "Relay-Denied" => some .relayDenied
  | some "Rejected" => some .rejected
  | _ => none

def failureDirective (block : RoutesBlock) (line : Line) (values : List String)
    : Except SyntaxFailure RoutesBlock := do
  let kind ← (failureKind values.head?).okOr (.error "routes" line.number "invalid failure kind")
  let (origin, rest) ← keywordSelector line "Origin" values.tail
  let (destination, rest) ← keywordSelector line "Destination" rest
  let policy ← policy "routes" line.number rest
  let rule : FailureRule := ⟨kind, origin, destination, policy⟩
  if block.failures.contains rule then
    .error (.error "routes" line.number "duplicate Failure")
  else
    .ok { block with failures := block.failures ++ [rule] }

def routesDirective (block : RoutesBlock) (line : Line) : Except SyntaxFailure RoutesBlock :=
  match line.fields with
  | "Route" :: values => routeDirective block line values
  | "Allow-Relay" :: values => relayDirective block line true values
  | "Deny-Relay" :: values => relayDirective block line false values
  | "Failure" :: values => failureDirective block line values
  | "Failure-Default" :: values =>
    if block.failureDefault.isSome then
      .error (.error "routes" line.number "unknown or malformed Routes directive")
    else do
      let policy ← policy "routes" line.number values
      .ok { block with failureDefault := some policy }
  | _ => .error (.error "routes" line.number "unknown or malformed Routes directive")

def routesEnd (state : RoutesState) (block : RoutesBlock) : RoutesState :=
  let routes : Routes :=
    { localRef := block.localRef
      routes := block.routes
      relay := block.relay
      failures := block.failures
      failureDefault := block.failureDefault.getD ⟨.deadLetter, .none⟩ }
  { output := state.output ++ [routes], block := none }

def routesLine (state : RoutesState) (line : Line) : Except SyntaxFailure RoutesState :=
  match state.block with
  | none => routesStart state line
  | some block =>
    if line.fields = ["End"] then
      .ok (routesEnd state block)
    else do
      let block ← routesDirective block line
      .ok { state with block := some block }

def parseRoutes (input : String) : Except SyntaxFailure (List Routes) := do
  let input ← lines "routes" input
  let state ← input.foldlM routesLine ⟨[], none⟩
  if state.block.isSome then
    .error (.error "routes" (lastNumber input) "unterminated Routes block")
  else if state.output = [] then
    .error (.error "routes" 0 "at least one Routes block is required")
  else
    .ok state.output

/-!
Areas. An area is a block within the block of its identity.
-/

structure AreasState where
  output : List Areas
  block : Option Areas
  area : Option Area

def areasStart (state : AreasState) (line : Line) : Except SyntaxFailure AreasState :=
  match line.fields with
  | ["Areas", value] => do
    let localRef ← identity "areas" line.number value
    if (state.output.map Areas.localRef).contains localRef then
      .error (.error "areas" line.number "duplicate Areas identity")
    else
      .ok { state with block := some ⟨localRef, []⟩ }
  | _ => .error (.error "areas" line.number "expected Areas <local-identity>")

def areaStart (block : Areas) (line : Line) : Except SyntaxFailure Area :=
  let (directive, rest) := line.text.span (fun c => !isSeparator c)
  if rest = [] then
    .error (.error "areas" line.number "expected area name")
  else
    let name := String.ofList (trimSeparators rest.tail)
    let fileArea? :=
      if directive = "EchoArea".toList then
        some false
      else if directive = "FileArea".toList then
        some true
      else
        none
    match fileArea? with
    | none => .error (.error "areas" line.number "expected EchoArea, FileArea, or End")
    | some fileArea =>
      if name = "" ∨ block.areas.any (fun area => area.fileArea = fileArea ∧ area.name = name) then
        .error (.error "areas" line.number "empty or duplicate area")
      else
        .ok ⟨fileArea, name, [], []⟩

def sendTo (area : Area) (line : Line) (value deliveryClass : String) : Except SyntaxFailure Area := do
  let peer ← peerRef "areas" line.number value
  if area.sendTo.any (fun link => link.peer = peer) then
    .error (.error "areas" line.number "duplicate Send-To")
  else if !validName deliveryClass then
    .error (.error "areas" line.number "invalid class")
  else
    .ok { area with sendTo := area.sendTo ++ [⟨peer, deliveryClass⟩] }

def areaDirective (area : Area) (line : Line) : Except SyntaxFailure Area :=
  match line.fields with
  | ["Receive-From", value] => do
    let peer ← peerRef "areas" line.number value
    if area.receiveFrom.contains peer then
      .error (.error "areas" line.number "duplicate Receive-From")
    else
      .ok { area with receiveFrom := area.receiveFrom ++ [peer] }
  | ["Send-To", value] => sendTo area line value "Normal"
  | ["Send-To", value, "Class", deliveryClass] => sendTo area line value deliveryClass
  | _ => .error (.error "areas" line.number "unknown or malformed area directive")

def areasLine (state : AreasState) (line : Line) : Except SyntaxFailure AreasState :=
  match state.block, state.area with
  | none, _ => areasStart state line
  | some block, none =>
    if line.text = "End".toList then
      .ok { state with output := state.output ++ [block], block := none }
    else do
      let area ← areaStart block line
      .ok { state with area := some area }
  | some block, some area =>
    if line.fields = ["End"] then
      .ok { state with block := some { block with areas := block.areas ++ [area] }, area := none }
    else do
      let area ← areaDirective area line
      .ok { state with area := some area }

def parseAreas (input : String) : Except SyntaxFailure (List Areas) := do
  let input ← lines "areas" input
  let state ← input.foldlM areasLine ⟨[], none, none⟩
  if state.area.isSome then
    .error (.error "areas" (lastNumber input) "unterminated area block")
  else if state.block.isSome then
    .error (.error "areas" (lastNumber input) "unterminated Areas block")
  else
    .ok state.output

/-!
Schedules.
-/

structure ScheduleBlock where
  name : String
  origin : Option IdentityRef
  classes : List String
  nextHops : List Selector
  polls : List String
  start : Option (Bool × UInt16)
  durationMinutes : Option UInt64
  repeatAfterMinutes : Option UInt64

structure SchedulesState where
  output : List Schedule
  block : Option ScheduleBlock

def scheduleStart (state : SchedulesState) (line : Line) : Except SyntaxFailure SchedulesState :=
  match line.fields with
  | ["Schedule", name] =>
    if !validName name || (state.output.map Schedule.name).contains name then
      .error (.error "schedules" line.number "invalid or duplicate Schedule name")
    else
      .ok { state with block := some ⟨name, none, [], [], [], none, none, none⟩ }
  | _ => .error (.error "schedules" line.number "invalid or duplicate Schedule name")

def nextHop (block : ScheduleBlock) (line : Line) (values : List String)
    : Except SyntaxFailure ScheduleBlock := do
  let (value, used) ← selector "schedules" line.number values
  if used ≠ values.length ∨ block.nextHops.contains value then
    .error (.error "schedules" line.number "invalid or duplicate Next-Hop")
  else
    .ok { block with nextHops := block.nextHops ++ [value] }

def start (block : ScheduleBlock) (line : Line) (values : List String)
    : Except SyntaxFailure ScheduleBlock := do
  let (isLocal, value) ←
    match values with
    | [value] => .ok (false, value)
    | ["Local", value] => .ok (true, value)
    | _ => .error (.error "schedules" line.number "invalid Start")
  let minutes ← startTime "schedules" line.number value
  .ok { block with start := some (isLocal, minutes) }

def scheduleDirective (block : ScheduleBlock) (line : Line) : Except SyntaxFailure ScheduleBlock :=
  let malformed :=
    SyntaxFailure.error "schedules" line.number "unknown, duplicate, or malformed Schedule directive"
  match line.fields with
  | ["Origin", value] =>
    if block.origin.isSome then
      .error malformed
    else do
      let origin ← identity "schedules" line.number value
      .ok { block with origin := some origin }
  | ["Class", value] =>
    if !validName value then
      .error malformed
    else if block.classes.contains value then
      .error (.error "schedules" line.number "duplicate Class")
    else
      .ok { block with classes := block.classes ++ [value] }
  | "Next-Hop" :: values => nextHop block line values
  | ["Poll", value] => do
    let name ← peerRef "schedules" line.number value
    if block.polls.contains name then
      .error (.error "schedules" line.number "duplicate Poll")
    else
      .ok { block with polls := block.polls ++ [name] }
  | "Start" :: values => if block.start.isSome then .error malformed else start block line values
  | ["Duration", value] =>
    if block.durationMinutes.isSome then
      .error malformed
    else do
      let minutes ← duration "schedules" line.number value
      .ok { block with durationMinutes := some minutes }
  | ["Repeat-After", value] =>
    if block.repeatAfterMinutes.isSome then
      .error malformed
    else do
      let minutes ← duration "schedules" line.number value
      if minutes = 0 then
        .error (.error "schedules" line.number "Repeat-After must be positive")
      else
        .ok { block with repeatAfterMinutes := some minutes }
  | _ => .error malformed

def scheduleEnd (state : SchedulesState) (block : ScheduleBlock) (line : Line)
    : Except SyntaxFailure SchedulesState := do
  let origin ← block.origin.okOr (.error "schedules" line.number "missing Origin")
  let (startLocal, startMinutes) := block.start.getD (false, 0)
  let schedule : Schedule :=
    { name := block.name
      origin := origin
      classes := if block.classes = [] then ["Normal"] else block.classes
      nextHops := if block.nextHops = [] then [.all] else block.nextHops
      polls := block.polls
      startLocal := startLocal
      startMinutes := startMinutes
      durationMinutes := block.durationMinutes.getD 0
      repeatAfterMinutes := block.repeatAfterMinutes.getD 1 }
  .ok { output := state.output ++ [schedule], block := none }

def schedulesLine (state : SchedulesState) (line : Line) : Except SyntaxFailure SchedulesState :=
  match state.block with
  | none => scheduleStart state line
  | some block =>
    if line.fields = ["End"] then
      scheduleEnd state block line
    else do
      let block ← scheduleDirective block line
      .ok { state with block := some block }

def parseSchedules (input : String) : Except SyntaxFailure (List Schedule) := do
  let input ← lines "schedules" input
  let state ← input.foldlM schedulesLine ⟨[], none⟩
  if state.block.isSome then
    .error (.error "schedules" (lastNumber input) "unterminated Schedule block")
  else
    .ok state.output

end Config

end Tith
