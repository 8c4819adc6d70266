import Tith.Adapter.Delivers
import Tith.Legacy.Fitting
import Tith.Wire.Readable

/-!
This module contains what the planning of an item comes to: which accepted items get a disposition, and which
ones end in an error that makes them come back.
-/

namespace Tith

namespace Adapter

open Legacy (FitsField FitsHeader FitsPacket IsBuilt)

section Notice

variable {claim : Claimed} {recipient : String} {now : Int}

/--
What a notice has to meet to be written.
-/
structure FitsNotice (claim : Claimed) (recipient : String) (now : Int) : Prop where
  inboundId : '\x00' ∉ claim.inboundId.toList
  recipient : FitsField recipient.toList Legacy.nameBytes
  time : 0 ≤ now ∧ now < 36525 * 86400

theorem nul_mem_noticeText {kind label : String} (hkind : '\x00' ∉ kind.toList)
    : '\x00' ∈ (noticeText claim kind label).toList ↔ '\x00' ∈ claim.inboundId.toList := by
  have hdiagnostic : '\x00' ∉ ((diagnostic claim.authentication).getD "no authentication diagnostic").toList := by
    cases claim.authentication <;> decide +kernel
  have hlabel : '\x00' ∉ label.toList.map fun c => if c = '\x00' ∨ c = '\r' ∨ c = '\n' then ' ' else c := by
    rw [List.mem_map]
    rintro ⟨d, _, hd⟩
    split at hd
    . exact absurd hd (by decide)
    . next hne => exact hne (.inl hd)
  unfold noticeText
  simp only [String.toList_append, String.toList_ofList, List.mem_append, hdiagnostic, hkind, hlabel]
  simp

theorem fitsHeader_of_formatDateTime {dateTime : List Char} (h : Legacy.formatDateTime now = .ok dateTime)
    : FitsHeader (packetOptions now "") := by
  unfold Legacy.formatDateTime at h
  dsimp only at h
  split at h
  . next hrange =>
    have hlength : (Legacy.utf8 "".toList).length ≤ Legacy.passwordBytes := by decide
    exact ⟨hlength, List.not_mem_nil, by dsimp only [packetOptions]; omega⟩
  . cases h

theorem encodeNotice_isOk_iff {context : Legacy.Context} {subject kind label : String}
    (hsubject : FitsField subject.toList Legacy.subjectBytes) (hkind : '\x00' ∉ kind.toList)
    : (∃ bytes, encodeNotice context recipient subject (noticeText claim kind label) now = .ok bytes) ↔
        FitsNotice claim recipient now := by
  have hsender : FitsField "TITH".toList Legacy.nameBytes := by decide
  have htext := @nul_mem_noticeText claim kind label hkind
  have hmessage {text dateTime : List Char} (hnul : '\x00' ∉ text) (hdateTime : Legacy.formatDateTime now = .ok dateTime)
      : (∃ bytes, (noticeMessage (endpointOf context.packetDestination) recipient subject text dateTime).encode = .ok bytes) ↔
          FitsField recipient.toList Legacy.nameBytes := by
    rw [Legacy.encode_isOk_iff hdateTime, Legacy.body_isOk_iff (by intro value hvalue; cases hvalue)]
    refine ⟨fun h => h.1, fun h => ⟨h, hsender, hsubject, ?_, hnul⟩⟩
    rintro _ ⟨⟩
  have hpacket (text dateTime : List Char) := @Legacy.encode_singleton_isOk_iff
    (noticeMessage (endpointOf context.packetDestination) recipient subject text dateTime) (packetOptions now "")
  unfold encodeNotice
  constructor
  . rintro ⟨bytes, h⟩
    simp only [Except.bind_ok_iff] at h
    obtain ⟨text, hencoded, dateTime, hdateTime, hbytes⟩ := h
    have hinboundId : '\x00' ∉ claim.inboundId.toList := by
      rw [← htext]
      unfold Legacy.encodeBody at hencoded
      split at hencoded
      . cases hencoded
      . next hnul => simpa using hnul
    have hwritten := ((hpacket text dateTime).mp ⟨bytes, hbytes⟩).2
    exact ⟨hinboundId, (hmessage (Legacy.not_mem_encodeBody hencoded) hdateTime).mp hwritten,
      (Legacy.exists_isDateTime_iff now).mp ⟨_, Legacy.formatDateTime_iff.mp hdateTime⟩⟩
  . rintro ⟨hinboundId, hrecipient, htime⟩
    obtain ⟨dateTime, hdateTime⟩ := (Legacy.exists_isDateTime_iff now).mpr htime
    rw [← Legacy.formatDateTime_iff] at hdateTime
    have hencoded : ∃ text, Legacy.encodeBody (noticeText claim kind label).toList = .ok text := by
      unfold Legacy.encodeBody
      rw [if_neg (by simpa [htext] using hinboundId)]
      exact ⟨_, rfl⟩
    obtain ⟨text, hencoded⟩ := hencoded
    rw [hencoded, hdateTime]
    exact (hpacket text dateTime).mpr ⟨fitsHeader_of_formatDateTime hdateTime,
      (hmessage (Legacy.not_mem_encodeBody hencoded) hdateTime).mpr hrecipient⟩

end Notice

section Conversion

variable {c : Crypto} {base64 : Nodelist.Base64} {settings : Settings} {resolver : KeyResolver}
  {link : Link} {read : ReadMessage}
  {authentication : ItemAuthentication} {warning : Option String}

theorem endpointOf_eq {address : Address} {endpoint : Legacy.Endpoint} (h : Legacy.endpoint address = .ok endpoint)
    : endpointOf address = endpoint := by
  unfold endpointOf
  rw [h]

theorem encodePacket_isOk_iff {context : Legacy.Context} {message : Legacy.PackedMessage} {password : String} {now : Int}
    (hbuilt : IsBuilt read context warning message)
    : (∃ bytes, encodePacket context message password now = .ok bytes) ↔
        FitsHeader (packetOptions now password) ∧ FitsPacket read context := by
  unfold encodePacket
  rw [endpointOf_eq hbuilt.origin, endpointOf_eq hbuilt.destination]
  exact Legacy.encode_singleton_isOk_iff.trans (and_congr_right fun _ => hbuilt.encode_isOk_iff)

theorem messagePacket_isOk_iff {converted : Legacy.Converted} {now : Int}
    (h : convertedMessage c base64 settings resolver link read authentication warning = .ok converted)
    : (∃ bytes, (conversion c base64 settings resolver).packet link read authentication warning now = .ok bytes) ↔
        FitsHeader (packetOptions now link.password) ∧ FitsPacket read (settings.context link) := by
  rw [← encodePacket_isOk_iff (Legacy.isBuilt_of_toLegacy h)]
  dsimp only [conversion, messagePacket]
  rw [h, Except.bind_of_ok]
  simp only [Except.mapError_eq_ok]

end Conversion

section Plan

variable {c : Crypto} {base64 : Nodelist.Base64} {settings : Settings} {resolver : KeyResolver}
  {configuration : Configuration} {claim : Claimed}
  {link : Link} {circumstances : Circumstances} {payload : List UInt8} {item : OwnedTlv}

/--
The user that a notice about an item goes to. A warning about a Message is in its text, and `warned` is who gets
one about a File.
-/
def Configuration.noticeUser (configuration : Configuration) (authentication : ItemAuthentication)
    (warned : Option String) : Option String :=
  match configuration.policy.action authentication with
  | .deliver => none
  | .deliverWarn => warned
  | .orphan => configuration.orphanNotice

theorem delivers_administrativeNotice {recipient subject kind label : String} {rest : Int → Prop}
    (hsubject : FitsField subject.toList Legacy.subjectBytes) (hkind : '\x00' ∉ kind.toList)
    : Delivers circumstances (fun _ => ∀ now ∈ circumstances.times, rest now)
          (administrativeNotice (conversion c base64 settings resolver) claim link recipient subject kind label) ↔
        ∀ now ∈ circumstances.times, FitsNotice claim recipient now ∧ rest now := by
  have hnotice (now : Int) : (∃ contents, (conversion c base64 settings resolver).notice link recipient subject
      (noticeText claim kind label) now = .ok contents) ↔ FitsNotice claim recipient now := by
    rw [← @encodeNotice_isOk_iff claim recipient now (settings.context link) subject kind label hsubject hkind]
    simp only [conversion, Except.mapError_eq_ok]
  simp only [administrativeNotice, delivers_bind, delivers_clock, delivers_converted, delivers_nextIdentity,
    delivers_pure, forall_const, exists_and_right, hnotice]
  constructor
  . intro h now hnow
    exact ⟨(h now hnow).1, (h now hnow).2 now hnow⟩
  . intro h now hnow
    exact ⟨(h now hnow).1, fun now hnow => (h now hnow).2⟩

theorem delivers_configuredOrphanNotice {kind label : String} {rest : Int → Prop}
    (hsubject : FitsField ("TITH orphaned " ++ kind).toList Legacy.subjectBytes) (hkind : '\x00' ∉ kind.toList)
    : Delivers circumstances (fun _ => ∀ now ∈ circumstances.times, rest now)
          (configuredOrphanNotice configuration (conversion c base64 settings resolver) claim link kind label) ↔
        ∀ now ∈ circumstances.times, (∀ user ∈ configuration.orphanNotice, FitsNotice claim user now) ∧ rest now := by
  unfold configuredOrphanNotice
  split
  . next hnone => simp [hnone]
  . next user hsome =>
    simp only [delivers_bind, delivers_pure, hsome, Option.mem_def, Option.some.injEq, forall_eq']
    exact delivers_administrativeNotice hsubject hkind

theorem delivers_messageNotice {label : String} {rest : Int → Prop}
    : Delivers circumstances (fun _ => ∀ now ∈ circumstances.times, rest now)
          (messageNotice configuration (conversion c base64 settings resolver) claim link label) ↔
        ∀ now ∈ circumstances.times,
          (∀ user ∈ configuration.noticeUser claim.authentication none, FitsNotice claim user now) ∧ rest now := by
  unfold messageNotice Configuration.noticeUser
  split
  . next haction =>
    rw [haction]
    exact delivers_configuredOrphanNotice (by decide) (by decide)
  . next haction =>
    cases h : configuration.policy.action claim.authentication with
    | orphan => exact absurd h haction
    | deliver => simp
    | deliverWarn => simp

theorem delivers_fileNotice {name : String} {rest : Int → Prop}
    : Delivers circumstances (fun _ => ∀ now ∈ circumstances.times, rest now)
          (fileNotice configuration (conversion c base64 settings resolver) claim link name) ↔
        ∀ now ∈ circumstances.times,
          (∀ user ∈ configuration.noticeUser claim.authentication (some "Sysop"), FitsNotice claim user now) ∧
            rest now := by
  unfold fileNotice Configuration.noticeUser
  split
  . next haction =>
    simp only [delivers_bind, delivers_pure, haction, Option.mem_def, Option.some.injEq, forall_eq']
    exact delivers_administrativeNotice (by decide) (by decide)
  . next haction =>
    rw [haction]
    exact delivers_configuredOrphanNotice (by decide) (by decide)
  . next haction => simp [haction]

theorem delivers_attachmentObjects {attachments : List AttachmentData} {rest : Prop}
    (h : ∀ attachment ∈ attachments, ∃ filename, attachment.filename = some filename)
    : Delivers circumstances (fun _ => rest) (attachmentObjects attachments) ↔ rest := by
  induction attachments with
  | nil => exact delivers_pure
  | cons attachment attachments ih =>
    obtain ⟨filename, hfilename⟩ := h attachment List.mem_cons_self
    have hrest := ih (fun attachment hmem => h attachment (List.mem_cons_of_mem _ hmem))
    unfold attachmentObjects
    simp only [delivers_bind, delivers_nextIdentity, hfilename, delivers_pure, hrest, forall_const]

/--
The diagnostic that goes into the text of a Message.
-/
def Configuration.warning (configuration : Configuration) (authentication : ItemAuthentication) : Option String :=
  if configuration.policy.action authentication = .deliver then none else diagnostic authentication

/--
What a Message that has been read has to meet to get a disposition.
-/
structure FitsMessage (c : Crypto) (base64 : Nodelist.Base64) (settings : Settings) (configuration : Configuration)
    (claim : Claimed) (link : Link) (read : ReadMessage) (now : Int) : Prop where
  notice : ∀ user ∈ configuration.noticeUser claim.authentication none, FitsNotice claim user now
  packet : (∃ converted, convertedMessage c base64 settings configuration.resolver link read claim.authentication
      (configuration.warning claim.authentication) = .ok converted) →
    FitsHeader (packetOptions now link.password) ∧ FitsPacket read (settings.context link)

theorem delivers_planMessage
    : Delivers circumstances (fun _ => True)
          (planMessage configuration (conversion c base64 settings configuration.resolver) claim payload item link) ↔
        ∃ read, readMessage item configuration.resolver = .ok read ∧
          ∀ now ∈ circumstances.times, FitsMessage c base64 settings configuration claim link read now := by
  unfold planMessage
  simp only [delivers_bind, delivers_done, Except.mapError_eq_ok]
  apply exists_congr
  intro read
  apply and_congr_right
  intro _
  have hnotice := @delivers_messageNotice c base64 settings configuration.resolver configuration claim link circumstances
    read.data.subject (fun now => (∃ converted, convertedMessage c base64 settings configuration.resolver link read
      claim.authentication (configuration.warning claim.authentication) = .ok converted) →
        FitsHeader (packetOptions now link.password) ∧ FitsPacket read (settings.context link))
  refine (delivers_congr fun notice => ?_).trans (hnotice.trans ?_)
  . rw [show (if configuration.policy.action claim.authentication = .deliver then none else
      diagnostic claim.authentication) = configuration.warning claim.authentication from rfl]
    split
    . next error herror =>
      simp only [conversion, Except.mapError_eq_error, Except.map_eq_error] at herror
      obtain ⟨error, herror, _⟩ := herror
      simp only [herror, reduceCtorEq, exists_false, false_implies, implies_true, iff_true]
      split <;> simp
    . next message hmessage =>
      simp only [conversion, Except.mapError_eq_ok, Except.map_eq_ok] at hmessage
      obtain ⟨converted, hconverted, rfl⟩ := hmessage
      have hbuilt := Legacy.isBuilt_of_toLegacy hconverted
      have hnamed : ∀ attachment ∈ read.data.attachments, ∃ filename, attachment.filename = some filename := by
        intro attachment hmem
        obtain ⟨filename, hfilename, _⟩ := hbuilt.attachments attachment hmem
        exact ⟨filename, hfilename⟩
      have hend (p : Prop) [Decidable p] (a b : Option Outcome)
          : Delivers circumstances (fun _ => True) (if p then pure a else pure b : Io InboundError (Option Outcome)) ↔
              True := by
        split <;> simp
      simp only [delivers_bind, hend, delivers_converted, delivers_clock, delivers_nextIdentity, and_true, forall_const,
        messagePacket_isOk_iff hconverted, delivers_attachmentObjects hnamed]
      apply forall₂_congr
      intro now _
      exact ⟨fun h _ => h, fun h => h ⟨converted, hconverted⟩⟩
  . constructor
    . intro h now hnow
      exact ⟨(h now hnow).1, (h now hnow).2⟩
    . intro h now hnow
      exact ⟨(h now hnow).notice, (h now hnow).packet⟩

/--
What a File that has been read has to meet to get a disposition.
-/
def FitsFile (configuration : Configuration) (claim : Claimed) (read : ReadFile) (now : Int) : Prop :=
  read.data.filename.isSome = true →
    ∀ user ∈ configuration.noticeUser claim.authentication (some "Sysop"), FitsNotice claim user now

theorem areaTag_of_toTic {read : ReadFile} {area : AreaData} {name : String} {tic : List UInt8}
    (harea : read.data.area = some area) (h : (conversion c base64 settings resolver).toTic link read name = .ok tic)
    : ∃ tag, (conversion c base64 settings resolver).areaTag area.name = .ok tag := by
  simp only [conversion, Except.mapError_eq_ok, Except.map_eq_ok] at h
  obtain ⟨text, htext, _⟩ := h
  unfold toTic ticLines ticHead at htext
  simp only [Except.bind_ok_iff, harea, Option.okOr_some, Except.ok.injEq, exists_eq_left'] at htext
  obtain ⟨_, ⟨_, ⟨tag, htag, _⟩, _⟩, _⟩ := htext
  rw [Legacy.Context.areaTag, Option.okOr_eq_ok] at htag
  exact ⟨tag, Option.okOr_eq_ok.mpr htag⟩

theorem delivers_planFile
    : Delivers circumstances (fun _ => True)
          (planFile configuration (conversion c base64 settings resolver) claim payload item link) ↔
        ∃ read, readStandaloneFile item = .ok read ∧
          ∀ now ∈ circumstances.times, FitsFile configuration claim read now := by
  have hend (p : Prop) [Decidable p] (a b : Option Outcome)
      : Delivers circumstances (fun _ => True) (if p then pure a else pure b : Io InboundError (Option Outcome)) := by
    split <;> simp
  unfold planFile FitsFile
  simp only [delivers_bind, delivers_done, Except.mapError_eq_ok]
  apply exists_congr
  intro read
  apply and_congr_right
  intro _
  split
  . next hnone => simp [hnone]
  . next filename hsome =>
    have hnotice (name : String) := @delivers_fileNotice c base64 settings resolver configuration claim link circumstances
      name (fun _ => True)
    simp only [implies_true, and_true] at hnotice
    simp only [delivers_bind, delivers_nextIdentity, hsome, Option.isSome_some, true_implies]
    refine (forall_congr' fun identity => (delivers_congr fun notice => ?_).trans (hnotice _)).trans (forall_const _)
    refine iff_of_true ?_ trivial
    split
    . exact hend _ _ _
    . next area harea =>
      split
      . exact hend _ _ _
      . next tic htic =>
        split
        . simp
        . simp only [delivers_bind, delivers_pure]
          unfold fileDistribution
          split
          . simpa using areaTag_of_toTic harea htic
          . simp

/--
An orphan of the item still owes its notice.
-/
def Circumstances.NoticePending (circumstances : Circumstances) : Prop :=
  ∃ orphan, circumstances.orphan = some orphan ∧ orphan.notice.isSome = true ∧ orphan.noticePublished = false

/--
The ledger has the item with the same payload, and nothing of it is left to be converted.
-/
def Circumstances.Settles (circumstances : Circumstances) (claim : Claimed) : Prop :=
  ∃ record, circumstances.record = some record ∧ record.payloadHash = claim.payloadHash ∧
    (record.state = .staged → circumstances.NoticePending)

theorem delivers_pendingOrphanNotice {post : Option Outcome → Prop} (h : ∀ outcome, post (some outcome))
    : Delivers circumstances post (pendingOrphanNotice claim) ↔ circumstances.NoticePending ∨ post none := by
  unfold pendingOrphanNotice Circumstances.NoticePending
  simp only [delivers_bind, delivers_getOrphan]
  split
  . next hnone => simp [hnone]
  . next orphan hsome =>
    split
    . next hnone => simp [hsome, hnone]
    . next notice hnotice =>
      split
      . next hpublished => simp [hsome, hpublished]
      . next hpublished => simp [hsome, hnotice, hpublished, h]

theorem delivers_planRecord {record : Ledger.Record} (hparse : parseSequence payload = .ok [item])
    (htype : item.typeCode ≠ Types.fileRequest)
    : Delivers circumstances (fun _ => True)
          (planRecord configuration (conversion c base64 settings resolver) claim payload record) ↔
        (record.state = .staged → circumstances.NoticePending) ∨
          Delivers circumstances (fun _ => True)
            (planItem configuration (conversion c base64 settings resolver) claim payload) := by
  unfold planRecord
  split
  . next hstate => simp [hstate]
  . next hstate =>
    rw [delivers_pendingOrphanNotice (fun _ => trivial)]
    simp [hstate]
  . next hstate =>
    refine iff_of_true ?_ (.inl (by simp [hstate]))
    split
    . simp
    . simp [hparse, Except.mapError, htype]
  . next hstate =>
    rw [delivers_bind, delivers_pendingOrphanNotice (by simp)]
    simp [hstate]

theorem delivers_plan (hparse : parseSequence payload = .ok [item]) (htype : item.typeCode ≠ Types.fileRequest)
    : Delivers circumstances (fun _ => True)
          (plan configuration (conversion c base64 settings resolver) claim payload) ↔
        circumstances.Settles claim ∨
          Delivers circumstances (fun _ => True)
            (planItem configuration (conversion c base64 settings resolver) claim payload) := by
  unfold plan Circumstances.Settles
  simp only [delivers_bind, delivers_getRecord]
  split
  . next hnone => simp [hnone]
  . next record hsome =>
    split
    . next hne => simp [hsome, hne]
    . next heq =>
      rw [not_not] at heq
      rw [delivers_planRecord hparse htype]
      simp [hsome, heq]

/--
What an accepted item has to meet to get a disposition while the ledger has not settled it.
-/
structure Plannable (c : Crypto) (base64 : Nodelist.Base64) (settings : Settings) (configuration : Configuration)
    (claim : Claimed) (link : Link)
    (circumstances : Circumstances) (value : OwnedTlv) (item : ValidatedItem) : Prop where
  readable : ∀ children, parseChildren value.value = .ok children → ¬Unreadable children
  resolvable : ∀ identity ∈ item.destination, Resolvable configuration.resolver identity
  message : ∀ now ∈ circumstances.times, ∀ read, readMessage value configuration.resolver = .ok read →
    FitsMessage c base64 settings configuration claim link read now
  file : ∀ now ∈ circumstances.times, ∀ read, readStandaloneFile value = .ok read → FitsFile configuration claim read now

theorem delivers_planItem {accepting : KeyResolver} {value : OwnedTlv} {item : ValidatedItem}
    (htype : value.typeCode ∈ [Types.message, Types.file])
    (hvalid : validateItem c value accepting = .ok (some item)) (hparse : parseSequence payload = .ok [value])
    (hlink : configuration.linkFor claim.peer claim.peerKey = some link)
    : Delivers circumstances (fun _ => True)
          (planItem configuration (conversion c base64 settings configuration.resolver) claim payload) ↔
        Plannable c base64 settings configuration claim link circumstances value item := by
  have hcases : value.typeCode = Types.message ∨ value.typeCode = Types.file := by simpa using htype
  unfold planItem
  simp only [hlink, hparse, delivers_bind, delivers_done, Except.mapError, Except.ok.injEq, exists_eq_left']
  rcases hcases with htype | htype
  . obtain ⟨run, rfl⟩ := (validateItem_of_message htype).mp hvalid
    have hfile : ∀ read, readStandaloneFile value ≠ .ok read := by
      intro read hread
      unfold readStandaloneFile at hread
      rw [if_pos (by rw [htype]; decide)] at hread
      cases hread
    have hreadable := @run.readable_iff _ _ _ configuration.resolver htype
    rw [if_pos htype, delivers_planMessage]
    constructor
    . rintro ⟨read, hread, hfits⟩
      obtain ⟨hunbroken, hresolvable⟩ := hreadable.mp ⟨read, hread⟩
      refine ⟨?_, hresolvable, ?_, fun _ _ read hread => absurd hread (hfile read)⟩
      . intro children hchildren
        rwa [Except.ok.inj (hchildren.symm.trans run.hchildren)]
      . intro now hnow read' hread'
        rw [← Except.ok.inj (hread.symm.trans hread')]
        exact hfits now hnow
    . rintro ⟨hunbroken, hresolvable, hmessage, _⟩
      obtain ⟨read, hread⟩ := hreadable.mpr ⟨hunbroken _ run.hchildren, hresolvable⟩
      exact ⟨read, hread, fun now hnow => hmessage now hnow read hread⟩
  . obtain ⟨run, rfl⟩ := (validateItem_of_file htype).mp hvalid
    have hmessage : ∀ read, readMessage value configuration.resolver ≠ .ok read := by
      intro read hread
      unfold readMessage at hread
      rw [if_pos (by rw [htype]; decide)] at hread
      cases hread
    have hreadable := run.read_iff htype
    rw [if_neg (by rw [htype]; decide), if_pos htype, delivers_planFile]
    constructor
    . rintro ⟨read, hread, hfits⟩
      obtain ⟨key, hkey⟩ := run.key_of_read htype hread
      have hunbroken := hreadable.mp (run.read_of_key htype hkey)
      refine ⟨?_, by rintro identity ⟨⟩, fun _ _ read hread => absurd hread (hmessage read), ?_⟩
      . intro children hchildren
        rwa [Except.ok.inj (hchildren.symm.trans run.hchildren)]
      . intro now hnow read' hread'
        rw [← Except.ok.inj (hread.symm.trans hread')]
        exact hfits now hnow
    . rintro ⟨hunbroken, _, _, hfile⟩
      obtain ⟨read, hread, _⟩ := hreadable.mpr (hunbroken _ run.hchildren)
      exact ⟨read, hread, fun now hnow => hfile now hnow read hread⟩

end Plan

/--
While the ledger does not fail, the planning of an accepted Message or File ends without an error exactly if the ledger
has settled the item, or it can be read here and all that is written for it fits.
-/
theorem plan_delivers_iff (c : Crypto) (base64 : Nodelist.Base64) (settings : Settings)
    (configuration : Configuration) (claim : Claimed) (circumstances : Circumstances) (accepting : KeyResolver)
    (value : OwnedTlv) (item : ValidatedItem) (link : Link)
    (htype : value.typeCode ∈ [Types.message, Types.file])
    (hvalid : validateItem c value accepting = .ok (some item))
    (hlink : configuration.linkFor claim.peer claim.peerKey = some link)
    : Delivers circumstances (fun _ => True)
          (plan configuration (conversion c base64 settings configuration.resolver) claim value.encode) ↔
        circumstances.Settles claim ∨
          Plannable c base64 settings configuration claim link circumstances value item := by
  have hcases : value.typeCode = Types.message ∨ value.typeCode = Types.file := by simpa using htype
  have hparse : parseSequence value.encode = .ok [value] := by
    rw [parseSequence_eq_ok]
    refine ⟨by simp [concatenate], ?_⟩
    intro value' hvalue'
    rw [List.mem_singleton.mp hvalue']
    rcases hcases with htype | htype <;> (rw [htype]; decide)
  have hrequest : value.typeCode ≠ Types.fileRequest := by rcases hcases with htype | htype <;> (rw [htype]; decide)
  rw [delivers_plan hparse hrequest, delivers_planItem htype hvalid hparse hlink]

/-!
An unsigned NetMail for the node itself, with the name of its sender.
-/

namespace LocalNetMail

def crypto : Crypto where
  verifyTlv _ _ _ := .ok true
  hashTlv _ := .ok (Vector.replicate 32 0)
  hashInboundItem _ := .ok (Vector.replicate 32 0)

def base64 : Nodelist.Base64 := ⟨Rfc4648.encode, Rfc4648.decode⟩

def resolver : KeyResolver := fun _ => some (Vector.replicate 32 0)

theorem peer_valid : validateAddress "fidonet" 1 104 36 0 = .ok () := by decide

def peer : Address := ⟨"fidonet", 1, 104, 36, 0, peer_valid⟩

theorem localAddress_valid : validateAddress "fidonet" 1 104 1 0 = .ok () := by decide

def localAddress : Address := ⟨"fidonet", 1, 104, 1, 0, localAddress_valid⟩

def link : Link := ⟨peer, localAddress, none, ""⟩

def settings : Settings := ⟨"fidonet", .preserve, "tith", "0.1", ∅⟩

def configuration : Configuration where
  links := [link]
  policy := {}
  unconvertible := .reject
  orphanNotice := some "Sysop"
  requestProcessor := false
  resolver

def claim : Claimed where
  inboundId := "first"
  payloadHash := Vector.replicate 32 0
  claimToken := "token"
  peer
  peerKey := Vector.replicate 32 0
  authentication := .unsigned

def message (fromUser : String) : OwnedTlv :=
  carrierValue Types.message (concatenate
    [ carrierValue Types.origin (Bytes.ofString "fidonet#1:104/7"),
      carrierValue Types.destination (Bytes.ofString "fidonet#1:104/1"),
      carrierValue Types.timestamp [1],
      carrierValue Types.toUserName (Bytes.ofString "Sysop"),
      carrierValue Types.fromUserName (Bytes.ofString fromUser),
      carrierValue Types.subject (Bytes.ofString "Hello"),
      carrierValue Types.messageText (Bytes.ofString "Hello\n"),
      carrierValue Types.requestIdentifier [1],
      carrierValue Types.via (concatenate
        [ carrierValue Types.address (Bytes.ofString "fidonet#1:104/36"),
          carrierValue Types.timestamp [1] ]) ])

def around : Surroundings := ⟨none, 0, 1, .notCommitted "", false⟩

/--
What the planning ends with in a world without any record of the item.
-/
def planned (fromUser : String) : Except InboundError (Option Outcome) :=
  (Program.evaluate Surface.act around
    (plan configuration (conversion crypto base64 settings resolver) claim (message fromUser).encode).run
    Surface.empty).1

def failure (fromUser : String) : Option String :=
  match planned fromUser with
  | .error (.payload reason) => some reason
  | _ => none

theorem linkFor_claim : configuration.linkFor claim.peer claim.peerKey = some link := List.find?_cons_of_pos (by decide)

end LocalNetMail

open LocalNetMail in
theorem plan_delivers_localNetMail
    : ∃ item, validateItem crypto (message "User") resolver = .ok (some item) ∧
        (Delivers ⟨none, none, Set.univ⟩ (fun _ => True)
            (plan configuration (conversion crypto base64 settings configuration.resolver) LocalNetMail.claim
              (message "User").encode) ↔
          Circumstances.Settles ⟨none, none, Set.univ⟩ LocalNetMail.claim ∨
            Plannable crypto base64 settings configuration LocalNetMail.claim link ⟨none, none, Set.univ⟩
              (message "User") item) := by
  obtain ⟨item, hvalid⟩ := @Except.exists_of_isSome _ _ (validateItem crypto (message "User") resolver) (by decide +kernel)
  exact ⟨item, hvalid, plan_delivers_iff crypto base64 settings configuration LocalNetMail.claim
    ⟨none, none, Set.univ⟩ resolver (message "User") item link (by decide +kernel) hvalid linkFor_claim⟩

/--
A sender with a name of 36 bytes is accepted, but not planned.
-/
theorem plan_fails_longName
    : (∃ item, validateItem LocalNetMail.crypto (LocalNetMail.message "A sender with a name of thirty-six b")
          LocalNetMail.resolver = .ok (some item)) ∧
        LocalNetMail.configuration.linkFor LocalNetMail.claim.peer LocalNetMail.claim.peerKey =
          some LocalNetMail.link ∧
        LocalNetMail.failure "A sender with a name of thirty-six b" =
          some "FromUserName needs 37 bytes including its NUL but the legacy field holds 36" := by
  exact ⟨Except.exists_of_isSome (by decide +kernel), LocalNetMail.linkFor_claim, by decide +kernel⟩

end Adapter

end Tith
