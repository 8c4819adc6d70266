import Tith.Adapter.Publish

/-!
This module contains the conversion of a claimed inbound item: what the adapter plans, how it commits the
plan, and how it handles one claim after the other.
-/

namespace Tith

namespace Adapter

/--
The part of the configuration that the inbound side reads. `linkFor` takes the first of the links.
-/
structure Configuration where
  links : List Link
  policy : Policy
  unconvertible : Disposition
  orphanNotice : Option String
  requestProcessor : Bool
  resolver : KeyResolver

def Configuration.linkFor (configuration : Configuration) (peer : Address) (peerKey : PublicKey) : Option Link :=
  configuration.links.find? fun link =>
    link.peer = peer ∧ (link.peerKey.isNone ∨ link.peerKey = some peerKey)

def Configuration.disposition (configuration : Configuration) (refusal : Refusal) : Disposition :=
  match refusal with
  | .unconvertible _ => configuration.unconvertible

structure Converted where
  area : Option String
  canonical : Bool
  diagnostic : Option String

/--
The conversions of an item into legacy bytes. What holds of the publication holds for all of them.
-/
structure Conversion where
  toLegacy : Link → ReadMessage → ItemAuthentication → Option String → Except String Converted
  packet : Link → ReadMessage → ItemAuthentication → Option String → Int → Except String (List UInt8)
  toTic : Link → ReadFile → String → Except String (List UInt8)
  areaTag : String → Except String String
  notice : Link → String → String → String → Int → Except String (List UInt8)

def isForwardable (authentication : ItemAuthentication) : Bool :=
  authentication = .originValid || authentication = .signedOriginValid

def authenticationName (authentication : ItemAuthentication) : String :=
  match authentication with
  | .unsigned => "Unsigned"
  | .signedOriginInvalid => "SignedOrigin-Invalid"
  | .signedOriginValid => "SignedOrigin-Valid"
  | .originInvalid => "Origin-Invalid"
  | .originValid => "Origin-Valid"
  | .transport => "Transport"

/--
`{:?}` of an authentication.
-/
def debugName (authentication : ItemAuthentication) : String :=
  match authentication with
  | .unsigned => "Unsigned"
  | .signedOriginInvalid => "SignedOriginInvalid"
  | .signedOriginValid => "SignedOriginValid"
  | .originInvalid => "OriginInvalid"
  | .originValid => "OriginValid"
  | .transport => "Transport"

def orphanPrefix : String := "orphan: "

section

variable (configuration : Configuration) (conversion : Conversion) (claim : Claimed)

def nextIdentity : Io InboundError Nat := (attempt (issue .nextIdentity)).adapt InboundError.io

def converted (result : Except String α) : Io InboundError α :=
  attempt (.done (result.mapError .payload))

def refuse (reason : String) : Outcome :=
  .refuse (.unconvertible reason) (configuration.disposition (.unconvertible reason))

def orphaned (payload : List UInt8) (reason : String) (recovery : List Publication)
    (notice : Option Publication) : Outcome :=
  .orphan reason (authenticationName claim.authentication) payload recovery notice

def noticeText (kind label : String) : String :=
  let label := String.ofList (label.toList.map fun c => if c = '\x00' ∨ c = '\r' ∨ c = '\n' then ' ' else c)
  (diagnostic claim.authentication).getD "no authentication diagnostic" ++ "\n\nAffected " ++ kind ++ ": " ++
    label ++ "\nInboundID: " ++ claim.inboundId ++ "\n"

def administrativeNotice (link : Link) (recipient subject kind label : String) : Io InboundError Publication := do
  let now ← issue .clock
  let contents ← converted (conversion.notice link recipient subject (noticeText claim kind label) now)
  let identity ← nextIdentity
  return { name := packetName (truncate identity), contents, kind := .notice }

def configuredOrphanNotice (link : Link) (kind label : String) : Io InboundError (Option Publication) := do
  match configuration.orphanNotice with
  | none => return none
  | some user =>
    let notice ← administrativeNotice conversion claim link user ("TITH orphaned " ++ kind) kind label
    return some notice

/--
The companions of a Message, each under the name of a fresh identity or its own.
-/
def attachmentObjects (attachments : List AttachmentData) : Io InboundError (List Publication) :=
  match attachments with
  | [] => return []
  | attachment :: rest => do
    let identity ← nextIdentity
    match attachment.filename with
    | none => throw (.io "legacy conversion required every attachment Filename")
    | some filename =>
      let objects ← attachmentObjects rest
      return {
        name := transferName filename (truncate identity)
        contents := attachment.contents
        kind := .companion } :: objects

def messageNotice (link : Link) (subject : String) : Io InboundError (Option Publication) :=
  if configuration.policy.action claim.authentication = .orphan then
    configuredOrphanNotice configuration conversion claim link "Message" subject
  else
    return none

def planMessage (payload : List UInt8) (item : OwnedTlv) (link : Link) : Io InboundError (Option Outcome) := do
  let read ← attempt (.done ((readMessage item configuration.resolver).mapError .item))
  let action := configuration.policy.action claim.authentication
  let notice ← messageNotice configuration conversion claim link read.data.subject
  let warning := if action = .deliver then none else diagnostic claim.authentication
  match conversion.toLegacy link read claim.authentication warning with
  | .error error =>
    if action = .orphan then
      return some (orphaned claim payload ("policy orphan; no recovery conversion: " ++ error) [] notice)
    else
      return some (refuse configuration error)
  | .ok message =>
    let companions ← attachmentObjects read.data.attachments
    let identity ← nextIdentity
    let now ← issue .clock
    let contents ← converted (conversion.packet link read claim.authentication warning now)
    let packet : Publication := {
      name := packetName (truncate identity)
      contents
      kind := .packet (companions.map (·.name)) }
    let objects := companions ++ [packet]
    if action = .orphan then
      return some (orphaned claim payload ("policy orphans " ++ debugName claim.authentication ++ ": " ++
        (diagnostic claim.authentication).getD "no diagnostic") objects notice)
    else
      let note :=
        if message.canonical then
          "canonical, TITHSIG retained"
        else
          "compatibility output: " ++ message.diagnostic.getD ""
      let distribution := if isForwardable claim.authentication then message.area else none
      return some (.publish objects note distribution distribution.isSome)

/--
The notice of a File: a warning beside it, or what an orphan has.
-/
def fileNotice (link : Link) (name : String) : Io InboundError (Option Publication) :=
  match configuration.policy.action claim.authentication with
  | .deliverWarn => do
    let notice ← administrativeNotice conversion claim link "Sysop" "TITH File authentication warning" "File" name
    return some notice
  | .orphan => configuredOrphanNotice configuration conversion claim link "File" name
  | .deliver => return none

def fileDistribution (area : AreaData) : Io InboundError (Option String) :=
  if isForwardable claim.authentication then do
    let tag ← converted (conversion.areaTag area.name)
    return some tag
  else
    return none

def planFile (payload : List UInt8) (item : OwnedTlv) (link : Link) : Io InboundError (Option Outcome) := do
  let read ← attempt (.done ((readStandaloneFile item).mapError .item))
  let action := configuration.policy.action claim.authentication
  match read.data.filename with
  | none => return some (refuse configuration "a standalone File without Filename has no legacy publication name")
  | some filename =>
    let identity ← nextIdentity
    let name := transferName filename (truncate identity)
    let notice ← fileNotice configuration conversion claim link name
    let companion : Publication := { name, contents := read.data.contents, kind := .companion }
    match read.data.area with
    | none =>
      if action = .orphan then
        return some (orphaned claim payload ("policy orphans " ++ debugName claim.authentication) [companion] notice)
      else
        return some (.publish (companion :: notice.toList) "peer-addressed File" none false)
    | some area =>
      match conversion.toTic link read name with
      | .error error =>
        if action = .orphan then
          return some (orphaned claim payload ("policy orphan; no recovery conversion: " ++ error) [companion] notice)
        else
          return some (refuse configuration error)
      | .ok tic =>
        let control : Publication := { name := ticName name, contents := tic, kind := .tic name }
        if action = .orphan then
          return some (orphaned claim payload ("policy orphans " ++ debugName claim.authentication)
            [companion, control] notice)
        else
          let distribution ← fileDistribution conversion claim area
          return some (.publish (companion :: control :: notice.toList) "TIC distribution" distribution
            (isForwardable claim.authentication))

def planFileRequest (item : OwnedTlv) : Io InboundError (Option Outcome) := do
  let read ← attempt (.done ((readFileRequest item).mapError .item))
  if configuration.requestProcessor then
    return some (.serveRequest read.filename read.timestamp)
  else
    return some (refuse configuration "no Request-Processor is configured to serve a FileRequest")

def pendingOrphanNotice : Io InboundError (Option Outcome) := do
  match ← attempt (issue (.getOrphan claim.inboundId)) with
  | none => return none
  | some orphan =>
    match orphan.notice with
    | none => return none
    | some notice =>
      if orphan.noticePublished then
        return none
      else
        let reason := orphan.reason.toList
        let stripped :=
          if orphanPrefix.toList.isPrefixOf reason then
            String.ofList (reason.drop orphanPrefix.length)
          else
            orphan.reason
        return some (.orphan
          stripped
          orphan.authentication
          orphan.payload
          (orphan.objects.map fun object => ⟨object.name, object.contents, .companion⟩)
          (some ⟨notice.name, notice.contents, .notice⟩))

def planItem (payload : List UInt8) : Io InboundError (Option Outcome) := do
  match configuration.linkFor claim.peer claim.peerKey with
  | none => throw (.unknownPeer claim.peer)
  | some link =>
    match ← attempt (.done ((parseSequence payload).mapError .framing)) with
    | [item] =>
      if item.typeCode = Types.message then
        planMessage configuration conversion claim payload item link
      else if item.typeCode = Types.file then
        planFile configuration conversion claim payload item link
      else if item.typeCode = Types.fileRequest then
        planFileRequest configuration item
      else
        throw (.payload ("item type " ++ toString item.typeCode ++ " is not deliverable to a tosser"))
    | values => throw (.payload ("payload holds " ++ toString values.length ++ " values, not one item"))

def planRecord (payload : List UInt8) (record : Ledger.Record) : Io InboundError (Option Outcome) :=
  match record.state with
  | .acknowledged => return none
  | .retired => pendingOrphanNotice claim
  | .published =>
    if record.distribution ≠ "" ∧ record.forwardJob = "" then
      return some (.publish [] record.note (some record.distribution) (isForwardable claim.authentication))
    else do
      match ← attempt (.done ((parseSequence payload).mapError .framing)) with
      | [item] =>
        if item.typeCode = Types.fileRequest then
          planFileRequest configuration item
        else
          return none
      | _ => return none
  | .staged => do
    match ← pendingOrphanNotice claim with
    | some outcome => return some outcome
    | none => planItem configuration conversion claim payload

def plan (payload : List UInt8) : Io InboundError (Option Outcome) := do
  match ← attempt (issue (.getRecord claim.inboundId)) with
  | none => planItem configuration conversion claim payload
  | some record =>
    if record.payloadHash ≠ claim.payloadHash then
      planItem configuration conversion claim payload
    else
      planRecord configuration conversion claim payload record

def record (state : Ledger.State) (objects : List Publication) (note distribution : String) : Ledger.Record where
  inboundId := claim.inboundId
  payloadHash := claim.payloadHash
  state
  objects := objects.map fun object => ⟨object.name, digest object.contents⟩
  note
  claimToken := claim.claimToken
  distribution
  forwardJob := ""
  cleanup := []

def inUse (name : String) : String := "the name " ++ name ++ " is already in use"

def quarantined (object : Publication) : Ledger.QuarantineObject := ⟨object.name, object.contents⟩

/--
An orphan's notice whose name is taken by a file with the same contents has been published before.
-/
def noticeInPlace (notice : Publication) : Program Op Op.Reply (Except String Bool) := do
  match ← issue (.readFinal notice.name) with
  | .error _ => return .ok false
  | .ok contents =>
    if contents = notice.contents then
      match ← issue (.removeStaging notice.name) with
      | .removed | .notFound => return .ok true
      | .failed text => return .error text
    else
      return .ok false

def publishNotice (notice : Publication) : Program Op Op.Reply (Except String Bool) := do
  match ← (publish [notice]).run with
  | .ok (.ok ()) => return .ok true
  | .ok (.error taken) =>
    if taken = notice.name then
      noticeInPlace notice
    else
      return .error (inUse taken)
  | .error text => return .error text

def commitOrphan (reason authentication : String) (payload : List UInt8) (recovery : List Publication)
    (notice : Option Publication) : Io InboundError (Except String Unit) := do
  let state := if notice.isSome then Ledger.State.staged else .retired
  attempt (issue (.stageOrphan (record claim state [] (orphanPrefix ++ reason) "") authentication payload
    (recovery.map quarantined) (notice.map quarantined)))
  match notice with
  | none => return .ok ()
  | some notice =>
    match ← publishNotice notice with
    | .error text => return .error text
    | .ok false => return .error (inUse notice.name)
    | .ok true =>
      attempt (issue (.markOrphanNoticePublished claim.inboundId))
      attempt (issue (.advance claim.inboundId .retired))
      return .ok ()

def commitPublish (objects : List Publication) (note distribution : String)
    : Io InboundError (Except String Unit) := do
  (attempt (issue (.stage (record claim .staged objects note distribution)))).adapt InboundError.io
  match ← (publish objects).run with
  | .ok (.ok ()) =>
    attempt (issue (.advance claim.inboundId .published))
    return .ok ()
  | .ok (.error taken) => return .error (inUse taken)
  | .error text => return .error text

def commit (outcome : Outcome) : Io InboundError (Except String Unit) :=
  match outcome with
  | .publish objects note distribution _ => commitPublish claim objects note (distribution.getD "")
  | .orphan reason authentication payload recovery notice =>
    commitOrphan claim reason authentication payload recovery notice
  | .serveRequest filename _ => do
    (attempt (issue (.stage (record claim .published [] ("file request for " ++ filename) "")))).adapt InboundError.io
    return .ok ()
  | .refuse (.unconvertible reason) _ => return .error reason

def distribute (outcome : Outcome) : Io InboundError Bool :=
  match outcome with
  | .publish _ _ (some _) true => do
    match ← (attempt (issue .forward)).adapt InboundError.io with
    | .committed jobId =>
      attempt (issue (.recordForward claim.inboundId jobId))
      return true
    | .notCommitted reason =>
      (attempt (issue (.defer ("native distribution not committed: " ++ reason)))).adapt InboundError.io
      return false
  | _ => return true

def serve (outcome : Outcome) : Io InboundError Bool :=
  match outcome with
  | .serveRequest .. => (attempt (issue .serveRequest)).adapt InboundError.io
  | _ => return true

/--
What the ledger has of an item says that its objects have their final names.
-/
def isPublished (record : Option Ledger.Record) : Bool :=
  match record with
  | none => false
  | some record => record.payloadHash = claim.payloadHash ∧ record.state = .published

/--
Publishing again would duplicate the objects or collide with them.
-/
def commitUnless (resumingPublished : Bool) (outcome : Outcome) : Io InboundError (Except String Unit) :=
  if resumingPublished then return .ok () else commit claim outcome

def resolve (resumingPublished : Bool) (outcome : Outcome) : Io InboundError Bool := do
  match ← commitUnless claim resumingPublished outcome with
  | .ok () =>
    if !(← distribute claim outcome) then
      return false
    if !(← serve outcome) then
      return false
    (attempt (issue .acknowledge)).adapt InboundError.io
    attempt (issue (.advance claim.inboundId .acknowledged))
    return true
  | .error reason =>
    (attempt (issue (.defer reason))).adapt InboundError.io
    return false

def refused (reason : String) (disposition : Disposition) : Io InboundError Bool := do
  match disposition with
  | .reject => (attempt (issue (.reject reason))).adapt InboundError.io
  | .defer => (attempt (issue (.defer reason))).adapt InboundError.io
  return false

def handle (payload : List UInt8) : Io InboundError Bool := do
  (attempt (issue .readPayload)).adapt InboundError.io
  let resumingPublished := isPublished claim (← attempt (issue (.getRecord claim.inboundId)))
  match ← plan configuration conversion claim payload with
  | none =>
    (attempt (issue .acknowledge)).adapt InboundError.io
    return true
  | some (.refuse (.unconvertible reason) disposition) => refused reason disposition
  | some outcome => resolve claim resumingPublished outcome

/--
A claim whose handling fails is released, so that the item comes back.
-/
def handleClaim (payload : List UInt8) : Program Op Op.Reply Unit := do
  match ← (handle configuration conversion claim payload).run with
  | .ok _ => return ()
  | .error _ =>
    let _ ← issue .release
    return ()

end

/--
What is done before any claim: the staging files are discarded. The records are only reported.
-/
def recover : Program Op Op.Reply Unit := do
  let _ ← clearStaging.run
  return ()

end Adapter

end Tith
