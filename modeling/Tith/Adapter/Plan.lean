import Tith.Adapter.Commit

/-!
This module contains what a plan comes to: objects in an order in which they may be published, of an item
that the ledger has not got as published.
-/

namespace Tith

namespace Adapter

open Ledger (Record Orphan State)

variable {site : Site} {id : String} {claim : Claimed} {configuration : Configuration} {conversion : Conversion}
  {s : Surface}

theorem Ready.stopped (h : Ready site id s) : Stopped site id s := h.fresh.stopped

section Objects

theorem arranged_companions {completed : List String} {objects : List Publication} {last : Publication}
    (hobjects : ∀ object ∈ objects, object.kind = .companion)
    (hlast : ∀ name ∈ last.kind.companions, name ∈ completed ∨ name ∈ objects.map (·.name))
    : Arranged completed (objects ++ [last]) := by
  induction objects generalizing completed with
  | nil =>
    refine ⟨?_, trivial⟩
    intro name hname
    rcases hlast name hname with h | h
    . exact h
    . cases h
  | cons object rest ih =>
    constructor
    . intro name hname
      rw [hobjects object (List.mem_cons_self ..)] at hname
      cases hname
    . apply ih
      . intro object' hobject'
        exact hobjects object' (List.mem_cons_of_mem _ hobject')
      . intro name hname
        rcases hlast name hname with h | h
        . exact .inl (List.mem_cons_of_mem _ h)
        . rcases List.mem_cons.mp h with rfl | h
          . exact .inl (List.mem_cons_self ..)
          . exact .inr h

theorem atMostOne_companions {objects : List Publication} {last : Publication}
    (hobjects : ∀ object ∈ objects, object.kind = .companion)
    : AtMostOne (objects ++ [last]) := by
  constructor
  . rw [List.countP_append, List.countP_eq_zero.mpr]
    . have := List.countP_le_length (p := (·.kind.isMain)) (l := [last])
      simpa using this
    . intro object hobject
      simp [hobjects object hobject, Kind.isMain]
  . rw [List.countP_append, List.countP_eq_zero.mpr]
    . have := List.countP_le_length (p := (·.kind = .notice)) (l := [last])
      simpa using this
    . intro object hobject
      simp [hobjects object hobject]

variable {R : Surface → Prop}

theorem ensuresIo_nextIdentity (hR : Assertion site R) (hstop : ∀ s, R s → Stopped site id s)
    : EnsuresIo site R nextIdentity (fun _ => R) (Stopped site id) :=
  ensuresIo_adapt (fun _ => hR) assertion_stopped
    (ensuresIo_quiet (ensures_quiet_only rfl hR) (fun s hs _ => hstop s hs))

theorem ensuresIo_converted {result : Except String α} (hR : Assertion site R)
    (hstop : ∀ s, R s → Stopped site id s)
    : EnsuresIo site R (converted result) (fun _ => R) (Stopped site id) :=
  ensuresIo_result hR (fun _ _ hs => hs) hstop

theorem ensuresIo_clock (hR : Assertion site R)
    : EnsuresIo site R (liftM (issue .clock) : Io ε Int) (fun _ => R) (Stopped site id) := by
  apply ensuresIo_lift (fun _ => hR)
  exact (ensures_look rfl hR).mono (fun _ hs => hs) (fun _ _ hs => hs.1)

theorem ensuresIo_attachmentObjects (hR : Assertion site R) (hstop : ∀ s, R s → Stopped site id s)
    (attachments : List AttachmentData)
    : EnsuresIo site R (attachmentObjects attachments)
        (fun objects s => R s ∧ ∀ object ∈ objects, object.kind = .companion) (Stopped site id) := by
  induction attachments with
  | nil => exact ensuresIo_pure hR (fun s hs => ⟨hs, by simp⟩)
  | cons attachment rest ih =>
    apply EnsuresIo.bind assertion_stopped (ensuresIo_nextIdentity hR hstop)
    intro identity
    cases attachment.filename with
    | none => exact ensuresIo_throw hR hstop
    | some filename =>
      apply EnsuresIo.bind assertion_stopped ih
      intro objects
      apply ensuresIo_pure (hR.and (calm_const _))
      rintro s ⟨hs, hobjects⟩
      refine ⟨hs, ?_⟩
      intro object hobject
      rcases List.mem_cons.mp hobject with rfl | hobject
      . rfl
      . exact hobjects object hobject

theorem ensuresIo_administrativeNotice (hR : Assertion site R) (hstop : ∀ s, R s → Stopped site id s)
    {link : Link} {recipient subject kind label : String}
    : EnsuresIo site R (administrativeNotice conversion claim link recipient subject kind label)
        (fun notice s => R s ∧ notice.kind = .notice) (Stopped site id) := by
  unfold administrativeNotice
  apply EnsuresIo.bind assertion_stopped (ensuresIo_clock hR)
  intro now
  apply EnsuresIo.bind assertion_stopped (ensuresIo_converted hR hstop)
  intro contents
  apply EnsuresIo.bind assertion_stopped (ensuresIo_nextIdentity hR hstop)
  intro identity
  exact ensuresIo_pure hR (fun s hs => ⟨hs, rfl⟩)

def IsNotice (notice : Option Publication) : Prop := ∀ object ∈ notice, object.kind = .notice

theorem ensuresIo_configuredOrphanNotice (hR : Assertion site R) (hstop : ∀ s, R s → Stopped site id s)
    {link : Link} {kind label : String}
    : EnsuresIo site R (configuredOrphanNotice configuration conversion claim link kind label)
        (fun notice s => R s ∧ IsNotice notice) (Stopped site id) := by
  unfold configuredOrphanNotice
  cases configuration.orphanNotice with
  | none => exact ensuresIo_pure hR (fun s hs => ⟨hs, by simp [IsNotice]⟩)
  | some user =>
    apply EnsuresIo.bind assertion_stopped (ensuresIo_administrativeNotice hR hstop)
    intro notice
    apply ensuresIo_pure (hR.and (calm_const _))
    rintro s ⟨hs, hnotice⟩
    refine ⟨hs, ?_⟩
    intro object hobject
    cases hobject
    exact hnotice

theorem ensuresIo_messageNotice (hR : Assertion site R) (hstop : ∀ s, R s → Stopped site id s) {link : Link}
    {subject : String}
    : EnsuresIo site R (messageNotice configuration conversion claim link subject)
        (fun notice s => R s ∧ IsNotice notice) (Stopped site id) := by
  unfold messageNotice
  split
  . exact ensuresIo_configuredOrphanNotice hR hstop
  . exact ensuresIo_pure hR (fun s hs => ⟨hs, by simp [IsNotice]⟩)

theorem ensuresIo_fileNotice (hR : Assertion site R) (hstop : ∀ s, R s → Stopped site id s) {link : Link}
    {name : String}
    : EnsuresIo site R (fileNotice configuration conversion claim link name)
        (fun notice s => R s ∧ IsNotice notice) (Stopped site id) := by
  unfold fileNotice
  split
  . apply EnsuresIo.bind assertion_stopped (ensuresIo_administrativeNotice hR hstop)
    intro notice
    apply ensuresIo_pure (hR.and (calm_const _))
    rintro s ⟨hs, hnotice⟩
    refine ⟨hs, ?_⟩
    intro object hobject
    cases hobject
    exact hnotice
  . exact ensuresIo_configuredOrphanNotice hR hstop
  . exact ensuresIo_pure hR (fun s hs => ⟨hs, by simp [IsNotice]⟩)

theorem ensuresIo_fileDistribution (hR : Assertion site R) (hstop : ∀ s, R s → Stopped site id s)
    {area : AreaData}
    : EnsuresIo site R (fileDistribution conversion claim area) (fun _ => R) (Stopped site id) := by
  unfold fileDistribution
  split
  . apply EnsuresIo.bind assertion_stopped (ensuresIo_converted hR hstop)
    intro tag
    exact ensuresIo_pure hR (fun s hs => hs)
  . exact ensuresIo_pure hR (fun s hs => hs)

end Objects

section Items

/--
What an outcome allows. An item that the ledger has as published is not published again.
-/
def Fits (site : Site) (id : String) (resuming : Bool) (outcome : Outcome) (s : Surface) : Prop :=
  match outcome with
  | .publish objects _ _ _ =>
    if resuming then Finished site id s else Ready site id s ∧ Arranged [] objects ∧ AtMostOne objects
  | .serveRequest _ _ => if resuming then Finished site id s else Ready site id s
  | .orphan _ _ _ _ notice => Open site id s ∧ resuming = false ∧ IsNotice notice
  | .refuse _ _ => Stopped site id s

def FitsAny (site : Site) (id : String) (resuming : Bool) (outcome : Option Outcome) (s : Surface) : Prop :=
  match outcome with
  | none => Stopped site id s
  | some outcome => Fits site id resuming outcome s

theorem assertion_fits (resuming : Bool) (outcome : Outcome) : Assertion site (Fits site id resuming outcome) := by
  cases outcome with
  | publish objects note distribution forwardable =>
    cases resuming with
    | true => exact assertion_finished
    | false => exact assertion_ready.and (calm_const _)
  | serveRequest filename newerThan =>
    cases resuming with
    | true => exact assertion_finished
    | false => exact assertion_ready
  | orphan reason authentication payload recovery notice => exact assertion_open.and (calm_const _)
  | refuse refusal disposition => exact assertion_stopped

theorem Ready.opened (h : Ready site id s) : Open site id s := ⟨h.fresh, h.unsettled⟩

theorem ensuresIo_planMessage {payload : List UInt8} {item : OwnedTlv} {link : Link}
    : EnsuresIo site (Ready site id) (planMessage configuration conversion claim payload item link)
        (FitsAny site id false) (Stopped site id) := by
  have hstop : ∀ s, Ready site id s → Stopped site id s := fun s hs => hs.stopped
  unfold planMessage
  apply EnsuresIo.bind assertion_stopped (ensuresIo_result assertion_ready (fun _ _ hs => hs) hstop)
  intro read
  dsimp only
  apply EnsuresIo.bind assertion_stopped (ensuresIo_messageNotice assertion_ready hstop)
  intro notice
  have hpost : Assertion site (fun s => Ready site id s ∧ IsNotice notice) := assertion_ready.and (calm_const _)
  split
  . split
    . exact ensuresIo_pure hpost (fun s hs => ⟨hs.1.opened, rfl, hs.2⟩)
    . exact ensuresIo_pure hpost (fun s hs => hs.1.stopped)
  . apply EnsuresIo.bind assertion_stopped (ensuresIo_attachmentObjects hpost (fun s hs => hs.1.stopped) _)
    intro companions
    have hpost' : Assertion site (fun s => (Ready site id s ∧ IsNotice notice) ∧
        ∀ object ∈ companions, object.kind = .companion) := hpost.and (calm_const _)
    have hstop' : ∀ s, ((Ready site id s ∧ IsNotice notice) ∧ ∀ object ∈ companions, object.kind = .companion) →
        Stopped site id s := fun s hs => hs.1.1.stopped
    apply EnsuresIo.bind assertion_stopped (ensuresIo_nextIdentity hpost' hstop')
    intro identity
    apply EnsuresIo.bind assertion_stopped (ensuresIo_clock hpost')
    intro now
    apply EnsuresIo.bind assertion_stopped (ensuresIo_converted hpost' hstop')
    intro contents
    split
    . exact ensuresIo_pure hpost' (fun s hs => ⟨hs.1.1.opened, rfl, hs.1.2⟩)
    . apply ensuresIo_pure hpost'
      rintro s ⟨⟨hs, _⟩, hcompanions⟩
      refine ⟨hs, ?_, atMostOne_companions hcompanions⟩
      apply arranged_companions hcompanions
      intro name hname
      exact .inr hname

theorem arranged_file {companion : Publication} {notice : Option Publication} {name : String} {tic : List UInt8}
    (hkind : companion.kind = .companion) (hname : companion.name = name) (hnotice : IsNotice notice)
    : Arranged [] (companion :: { name := ticName name, contents := tic, kind := .tic name } :: notice.toList) ∧
        AtMostOne (companion :: { name := ticName name, contents := tic, kind := .tic name } :: notice.toList) := by
  cases notice with
  | none => simp [Arranged, AtMostOne, hkind, hname, Kind.companions, Kind.isMain]
  | some notice =>
    have hnoticeKind : notice.kind = .notice := hnotice notice rfl
    simp [Arranged, AtMostOne, hkind, hname, hnoticeKind, Kind.companions, Kind.isMain]

theorem arranged_alone {companion : Publication} {notice : Option Publication} (hkind : companion.kind = .companion)
    (hnotice : IsNotice notice)
    : Arranged [] (companion :: notice.toList) ∧ AtMostOne (companion :: notice.toList) := by
  cases notice with
  | none => simp [Arranged, AtMostOne, hkind, Kind.companions, Kind.isMain]
  | some notice =>
    have hnoticeKind : notice.kind = .notice := hnotice notice rfl
    simp [Arranged, AtMostOne, hkind, hnoticeKind, Kind.companions, Kind.isMain]

theorem ensuresIo_planFile {payload : List UInt8} {item : OwnedTlv} {link : Link}
    : EnsuresIo site (Ready site id) (planFile configuration conversion claim payload item link)
        (FitsAny site id false) (Stopped site id) := by
  have hstop : ∀ s, Ready site id s → Stopped site id s := fun s hs => hs.stopped
  unfold planFile
  apply EnsuresIo.bind assertion_stopped (ensuresIo_result assertion_ready (fun _ _ hs => hs) hstop)
  intro read
  dsimp only
  split
  . exact ensuresIo_pure assertion_ready hstop
  . apply EnsuresIo.bind assertion_stopped (ensuresIo_nextIdentity assertion_ready hstop)
    intro identity
    apply EnsuresIo.bind assertion_stopped (ensuresIo_fileNotice assertion_ready hstop)
    intro notice
    have hpost : Assertion site (fun s => Ready site id s ∧ IsNotice notice) := assertion_ready.and (calm_const _)
    have hstop' : ∀ s, Ready site id s ∧ IsNotice notice → Stopped site id s := fun s hs => hs.1.stopped
    split
    . split
      . exact ensuresIo_pure hpost (fun s hs => ⟨hs.1.opened, rfl, hs.2⟩)
      . apply ensuresIo_pure hpost
        rintro s ⟨hs, hnotice⟩
        exact ⟨hs, arranged_alone rfl hnotice⟩
    . split
      . split
        . exact ensuresIo_pure hpost (fun s hs => ⟨hs.1.opened, rfl, hs.2⟩)
        . exact ensuresIo_pure hpost hstop'
      . split
        . exact ensuresIo_pure hpost (fun s hs => ⟨hs.1.opened, rfl, hs.2⟩)
        . apply EnsuresIo.bind assertion_stopped (ensuresIo_fileDistribution hpost hstop')
          intro distribution
          apply ensuresIo_pure hpost
          rintro s ⟨hs, hnotice⟩
          exact ⟨hs, arranged_file rfl rfl hnotice⟩

theorem ensuresIo_planFileRequest {R : Surface → Prop} {item : OwnedTlv} {resuming : Bool} (hR : Assertion site R)
    (hstop : ∀ s, R s → Stopped site id s)
    (hserve : ∀ s filename newerThan, R s → Fits site id resuming (.serveRequest filename newerThan) s)
    : EnsuresIo site R (planFileRequest configuration item) (FitsAny site id resuming) (Stopped site id) := by
  unfold planFileRequest
  apply EnsuresIo.bind assertion_stopped (ensuresIo_result hR (fun _ _ hs => hs) hstop)
  intro read
  split
  . exact ensuresIo_pure hR (fun s hs => hserve s read.filename read.timestamp hs)
  . exact ensuresIo_pure hR hstop

theorem ensuresIo_planItem {payload : List UInt8}
    : EnsuresIo site (Ready site id) (planItem configuration conversion claim payload) (FitsAny site id false)
        (Stopped site id) := by
  have hstop : ∀ s, Ready site id s → Stopped site id s := fun s hs => hs.stopped
  unfold planItem
  split
  . exact ensuresIo_throw assertion_ready hstop
  . apply EnsuresIo.bind assertion_stopped (ensuresIo_result assertion_ready (fun _ _ hs => hs) hstop)
    intro values
    split
    . split
      . exact ensuresIo_planMessage
      . split
        . exact ensuresIo_planFile
        . split
          . exact ensuresIo_planFileRequest assertion_ready hstop (fun _ _ _ hs => hs)
          . exact ensuresIo_throw assertion_ready hstop
    . exact ensuresIo_throw assertion_ready hstop

section Lookup

variable {R : Surface → Prop}

theorem ensuresIo_getOrphan (hR : Assertion site R) (hstop : ∀ s, R s → Stopped site id s)
    : EnsuresIo site R (attempt (issue (.getOrphan id))) (fun found s => R s ∧ s.orphans[id]? = found)
        (Stopped site id) := by
  apply ensures_issue hR
  . intro reply
    cases reply with
    | ok found => exact hR.and (calm_orphans (fun orphans => orphans[id]? = found))
    | error e => exact assertion_stopped
  . intro s around htidy hs _
    unfold Surface.act
    cases around.failure with
    | some text => exact ⟨htidy, hstop s hs⟩
    | none => exact ⟨htidy, hs, rfl⟩

theorem ensuresIo_getRecord (hR : Assertion site R) (hstop : ∀ s, R s → Stopped site id s)
    : EnsuresIo site R (attempt (issue (.getRecord id))) (fun found s => R s ∧ s.records[id]? = found)
        (Stopped site id) := by
  apply ensures_issue hR
  . intro reply
    cases reply with
    | ok found => exact hR.and (calm_records (fun records => records[id]? = found))
    | error e => exact assertion_stopped
  . intro s around htidy hs _
    unfold Surface.act
    cases around.failure with
    | some text => exact ⟨htidy, hstop s hs⟩
    | none => exact ⟨htidy, hs, rfl⟩

def Pending (R : Surface → Prop) (id : String) (outcome : Option Outcome) (s : Surface) : Prop :=
  match outcome with
  | none => R s ∧ NoPending id s.orphans
  | some outcome => R s ∧ ¬NoPending id s.orphans ∧
      ∃ reason authentication payload recovery notice,
        outcome = .orphan reason authentication payload recovery notice ∧ IsNotice notice

theorem ensuresIo_pendingOrphanNotice (hclaim : Claims site id claim) (hR : Assertion site R)
    (hstop : ∀ s, R s → Stopped site id s)
    : EnsuresIo site R (pendingOrphanNotice claim) (Pending R id) (Stopped site id) := by
  unfold pendingOrphanNotice
  rw [hclaim.inboundId]
  apply EnsuresIo.bind assertion_stopped (ensuresIo_getOrphan hR hstop)
  intro found
  have hpost : Assertion site (fun s => R s ∧ s.orphans[id]? = found) :=
    hR.and (calm_orphans (fun orphans => orphans[id]? = found))
  split
  . apply ensuresIo_pure hpost
    rintro s ⟨hs, hnone⟩
    refine ⟨hs, ?_⟩
    intro orphan notice horphan
    rw [hnone] at horphan
    cases horphan
  . next orphan =>
    split
    . next hnotice =>
      apply ensuresIo_pure hpost
      rintro s ⟨hs, hsome⟩
      refine ⟨hs, ?_⟩
      intro orphan' notice horphan hnotice'
      rw [hsome] at horphan
      injection horphan with horphan
      rw [← horphan, hnotice] at hnotice'
      cases hnotice'
    . next notice hnotice =>
      split
      . next hpublished =>
        apply ensuresIo_pure hpost
        rintro s ⟨hs, hsome⟩
        refine ⟨hs, ?_⟩
        intro orphan' notice' horphan _
        rw [hsome] at horphan
        injection horphan with horphan
        rw [← horphan, hpublished]
      . next hpublished =>
        apply ensuresIo_pure hpost
        rintro s ⟨hs, hsome⟩
        refine ⟨hs, ?_, _, _, _, _, _, rfl, ?_⟩
        . intro hno
          exact hpublished (hno orphan notice hsome hnotice)
        . intro object hobject
          cases hobject
          rfl

end Lookup

theorem Books.noPending (h : Books site s) (hrecord : s.records[id]? = none) : NoPending id s.orphans := by
  intro orphan notice horphan _
  exact absurd hrecord (h.recorded id orphan horphan)

theorem settled_of_record {record : Record} (h : s.records[id]? = some record)
    : s.settled id = decide (record.state ≠ .staged) := by
  unfold Surface.settled
  rw [h]

/--
The assertion about an attempt that has looked up the record.
-/
def Known (site : Site) (id : String) (found : Option Record) (s : Surface) : Prop :=
  Fresh site id s ∧ s.records[id]? = found

theorem assertion_known (found : Option Record) : Assertion site (Known site id found) :=
  assertion_fresh.and (calm_records (fun records => records[id]? = found))

section Known

variable {record : Record}

theorem Known.finished (h : Known site id (some record) s) (hstate : record.state ≠ .staged) : Finished site id s where
  rests := h.1.rests
  attempt := h.1.attempt
  noPending := by
    apply h.1.rests.books.pending id
    rw [settled_of_record h.2]
    exact decide_eq_true hstate

theorem Known.ready_none (h : Known site id none s) : Ready site id s where
  fresh := h.1
  unsettled := by
    unfold Surface.settled
    rw [h.2]
  noPending := h.1.rests.books.noPending h.2

theorem Known.unsettled (h : Known site id (some record) s) (hstate : record.state = .staged)
    : s.settled id = false := by
  rw [settled_of_record h.2, hstate]
  rfl

theorem Known.hash (h : Known site id (some record) s) (hclaim : Claims site id claim)
    : record.payloadHash = claim.payloadHash := by
  rw [hclaim.payloadHash]
  exact h.1.rests.books.hash id record h.2

end Known

theorem ensures_of_absurd {R : Surface → Prop} {p : Program Op Op.Reply α} {Q : α → Surface → Prop}
    (h : ∀ s, ¬R s)
    : Ensures site R p Q := by
  intro s hs
  exact absurd hs.2 (h s)

theorem ensuresIo_planRecord {payload : List UInt8} {record : Record} (hclaim : Claims site id claim)
    (hhash : record.payloadHash = claim.payloadHash)
    : EnsuresIo site (Known site id (some record)) (planRecord configuration conversion claim payload record)
        (FitsAny site id (isPublished claim (some record))) (Stopped site id) := by
  have hknown : Assertion site (Known site id (some record)) := assertion_known _
  have hstop : ∀ s, Known site id (some record) s → Stopped site id s := fun s hs => hs.1.stopped
  have hpublished : isPublished claim (some record) = decide (record.state = .published) := by
    simp [isPublished, hhash]
  rw [hpublished]
  unfold planRecord
  cases hstate : record.state with
  | acknowledged => exact ensuresIo_pure hknown hstop
  | retired =>
    apply (ensuresIo_pendingOrphanNotice hclaim hknown hstop).mono (fun _ hs => hs) _ (fun _ hs => hs)
    intro outcome s hs
    cases outcome with
    | none => exact hs.1.1.stopped
    | some outcome =>
      have := (hs.1.finished (by rw [hstate]; decide)).noPending
      exact absurd this hs.2.1
  | published =>
    have hfinished : ∀ s, Known site id (some record) s → Finished site id s := fun s hs =>
      hs.finished (by rw [hstate]; decide)
    dsimp only
    split
    . exact ensuresIo_pure hknown hfinished
    . apply EnsuresIo.bind assertion_stopped (ensuresIo_result hknown (fun _ _ hs => hs) hstop)
      intro values
      split
      . split
        . exact ensuresIo_planFileRequest hknown hstop (fun s _ _ hs => hfinished s hs)
        . exact ensuresIo_pure hknown hstop
      . exact ensuresIo_pure hknown hstop
  | staged =>
    dsimp only
    apply EnsuresIo.bind assertion_stopped (ensuresIo_pendingOrphanNotice hclaim hknown hstop)
    intro outcome
    cases outcome with
    | none =>
      apply ensuresIo_planItem.mono _ (fun _ _ hs => hs) (fun _ hs => hs)
      rintro s ⟨hs, hnoPending⟩
      exact ⟨hs.1, hs.unsettled hstate, hnoPending⟩
    | some outcome =>
      have hpost : Assertion site (Pending (Known site id (some record)) id (some outcome)) := by
        apply hknown.and
        exact (calm_orphans (fun orphans => ¬NoPending id orphans)).and (calm_const _)
      apply ensuresIo_pure hpost
      rintro s ⟨hs, _, reason, authentication, payload', recovery, notice, rfl, hnotice⟩
      exact ⟨⟨hs.1, hs.unsettled hstate⟩, rfl, hnotice⟩

theorem ensuresIo_plan {payload : List UInt8} {found : Option Record} (hclaim : Claims site id claim)
    : EnsuresIo site (Known site id found) (plan configuration conversion claim payload)
        (FitsAny site id (isPublished claim found)) (Stopped site id) := by
  unfold plan
  rw [hclaim.inboundId]
  apply EnsuresIo.bind assertion_stopped (ensuresIo_getRecord (assertion_known found) (fun s hs => hs.1.stopped))
  intro again
  by_cases hagain : again = found
  . subst hagain
    cases again with
    | none => exact ensuresIo_planItem.mono (fun s hs => hs.1.ready_none) (fun _ _ hs => hs) (fun _ hs => hs)
    | some record =>
      dsimp only
      split
      . next hne =>
        apply ensures_of_absurd
        intro s hs
        exact hne (hs.1.hash hclaim)
      . next heq =>
        apply (ensuresIo_planRecord hclaim (not_not.mp heq)).mono (fun s hs => hs.1) (fun _ _ hs => hs)
          (fun _ hs => hs)
  . apply ensures_of_absurd
    intro s hs
    exact hagain (hs.2.symm.trans hs.1.2)

end Items

end Adapter

end Tith
