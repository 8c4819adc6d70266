import Tith.Adapter.Plan

/-!
This module contains the publication of inbound items over whole runs of the adapter: with interruptions
only where they are harmless, every packet and TIC becomes visible at most once, and no item is in its
own way.
-/

namespace Tith

namespace Adapter

open Ledger (State)

variable {site : Site} {id : String} {claim : Claimed} {configuration : Configuration} {conversion : Conversion}
  {s : Surface}

section Handle

variable {R : Surface → Prop}

theorem ensuresIo_do {β : Type} {p : Program Op Op.Reply (Except String β)} (hR : Assertion site R)
    (hstop : ∀ s, R s → Stopped site id s)
    (h : Ensures site R p (fun r s => R s ∧ True ∧ ((!r.isOk) = true → Harmless site s)))
    : EnsuresIo site R (ExceptT.adapt InboundError.io (attempt p)) (fun _ => R) (Stopped site id) :=
  ensuresIo_adapt (fun _ => hR) assertion_stopped (ensuresIo_quiet h (fun s hs _ => hstop s hs))

theorem ensuresIo_commit {outcome : Outcome} (hclaim : Claims site id claim)
    : EnsuresIo site (Fits site id false outcome) (commit claim outcome) (Committed site id) (Stopped site id) := by
  cases outcome with
  | publish objects note distribution forwardable =>
    intro s hs
    exact ensuresIo_commitPublish hclaim hs.2.2.1 hs.2.2.2 s ⟨hs.1, hs.2.1⟩
  | orphan reason authentication payload recovery notice =>
    intro s hs
    exact ensuresIo_commitOrphan hclaim hs.2.2.2 s ⟨hs.1, hs.2.1⟩
  | serveRequest filename newerThan =>
    apply EnsuresIo.bind assertion_stopped
      (ensuresIo_adapt (fun _ => assertion_finished) assertion_stopped (ensuresIo_stagePublished hclaim))
    intro _
    exact ensuresIo_pure assertion_finished (fun s hs => hs)
  | refuse refusal disposition =>
    cases refusal
    exact ensuresIo_pure assertion_stopped (fun s hs => hs)

theorem ensuresIo_commitUnless {outcome : Outcome} {resuming : Bool} (hclaim : Claims site id claim)
    (houtcome : ∀ refusal disposition, outcome ≠ .refuse refusal disposition)
    : EnsuresIo site (Fits site id resuming outcome) (commitUnless claim resuming outcome) (Committed site id)
        (Stopped site id) := by
  cases resuming with
  | false => exact ensuresIo_commit hclaim
  | true =>
    apply ensuresIo_pure (assertion_fits true outcome)
    intro s hs
    cases outcome with
    | publish objects note distribution forwardable => exact hs
    | orphan reason authentication payload recovery notice => cases hs.2.1
    | serveRequest filename newerThan => exact hs
    | refuse refusal disposition => exact absurd rfl (houtcome refusal disposition)

theorem ensuresIo_distribute {outcome : Outcome} (hclaim : Claims site id claim)
    : EnsuresIo site (Finished site id) (distribute claim outcome) (fun _ => Finished site id) (Stopped site id) := by
  unfold distribute
  split
  . apply EnsuresIo.bind assertion_stopped
      (ensuresIo_do assertion_finished (fun s hs => hs.stopped) (ensures_quiet_only rfl assertion_finished))
    intro forwarded
    rw [hclaim.inboundId]
    cases forwarded with
    | committed jobId =>
      apply EnsuresIo.bind assertion_stopped (ensuresIo_recordForward jobId)
      intro _
      exact ensuresIo_pure assertion_finished (fun s hs => hs)
    | notCommitted reason =>
      apply EnsuresIo.bind assertion_stopped
        (ensuresIo_do assertion_finished (fun s hs => hs.stopped) (ensures_quiet_only rfl assertion_finished))
      intro _
      exact ensuresIo_pure assertion_finished (fun s hs => hs)
  . exact ensuresIo_pure assertion_finished (fun s hs => hs)

theorem ensuresIo_serve {outcome : Outcome}
    : EnsuresIo site (Finished site id) (serve outcome) (fun _ => Finished site id) (Stopped site id) := by
  unfold serve
  split
  . exact ensuresIo_do assertion_finished (fun s hs => hs.stopped) (ensures_quiet_only rfl assertion_finished)
  . exact ensuresIo_pure assertion_finished (fun s hs => hs)

theorem ensuresIo_refused {reason : String} {disposition : Disposition}
    : EnsuresIo site (Stopped site id) (refused reason disposition) (fun _ => Stopped site id) (Stopped site id) := by
  unfold refused
  cases disposition with
  | reject =>
    apply EnsuresIo.bind assertion_stopped
      (ensuresIo_do assertion_stopped (fun _ hs => hs) (ensures_quiet_only rfl assertion_stopped))
    intro _
    exact ensuresIo_pure assertion_stopped (fun s hs => hs)
  | defer =>
    apply EnsuresIo.bind assertion_stopped
      (ensuresIo_do assertion_stopped (fun _ hs => hs) (ensures_quiet_only rfl assertion_stopped))
    intro _
    exact ensuresIo_pure assertion_stopped (fun s hs => hs)

theorem ensuresIo_resolve (resuming : Bool) (outcome : Outcome) (hclaim : Claims site id claim)
    (houtcome : ∀ refusal disposition, outcome ≠ .refuse refusal disposition)
    : EnsuresIo site (Fits site id resuming outcome) (resolve claim resuming outcome) (fun _ => Stopped site id)
        (Stopped site id) := by
  have hstop : ∀ s, Finished site id s → Stopped site id s := fun s hs => hs.stopped
  have hfalse : EnsuresIo site (Finished site id) (return false : Io InboundError Bool) (fun _ => Stopped site id)
      (Stopped site id) := ensuresIo_pure assertion_finished hstop
  unfold resolve
  apply EnsuresIo.bind assertion_stopped (ensuresIo_commitUnless hclaim houtcome)
  intro result
  cases result with
  | error reason =>
    apply EnsuresIo.bind assertion_stopped
      (ensuresIo_do assertion_stopped (fun _ hs => hs) (ensures_quiet_only rfl assertion_stopped))
    intro _
    exact ensuresIo_pure assertion_stopped (fun s hs => hs)
  | ok _ =>
    apply EnsuresIo.bind assertion_stopped (ensuresIo_distribute hclaim)
    intro distributed
    cases distributed with
    | false => exact hfalse
    | true =>
      apply EnsuresIo.bind assertion_stopped ensuresIo_serve
      intro served
      cases served with
      | false => exact hfalse
      | true =>
        apply EnsuresIo.bind assertion_stopped
          (ensuresIo_do assertion_finished hstop (ensures_quiet_only rfl assertion_finished))
        intro _
        rw [hclaim.inboundId]
        apply EnsuresIo.bind assertion_stopped (ensuresIo_advance_finished State.noConfusion)
        intro _
        exact ensuresIo_pure assertion_finished hstop

theorem ensuresIo_handle {payload : List UInt8} (hclaim : Claims site id claim)
    : EnsuresIo site (Fresh site id) (handle configuration conversion claim payload) (fun _ => Stopped site id)
        (Stopped site id) := by
  have hstop : ∀ s, Fresh site id s → Stopped site id s := fun s hs => hs.stopped
  unfold handle
  apply EnsuresIo.bind assertion_stopped
    (ensuresIo_do assertion_fresh hstop (ensures_quiet_only rfl assertion_fresh))
  intro _
  rw [hclaim.inboundId]
  apply EnsuresIo.bind assertion_stopped (ensuresIo_getRecord assertion_fresh hstop)
  intro found
  apply EnsuresIo.bind assertion_stopped (ensuresIo_plan hclaim)
  intro outcome
  match outcome with
  | none =>
    apply EnsuresIo.bind assertion_stopped
      (ensuresIo_do assertion_stopped (fun _ hs => hs) (ensures_quiet_only rfl assertion_stopped))
    intro _
    exact ensuresIo_pure assertion_stopped (fun s hs => hs)
  | some (.refuse (.unconvertible reason) disposition) => exact ensuresIo_refused
  | some (.publish objects note distribution forwardable) =>
    exact ensuresIo_resolve _ (.publish objects note distribution forwardable) hclaim (by simp)
  | some (.orphan reason authentication payload recovery notice) =>
    exact ensuresIo_resolve _ (.orphan reason authentication payload recovery notice) hclaim (by simp)
  | some (.serveRequest filename newerThan) =>
    exact ensuresIo_resolve _ (.serveRequest filename newerThan) hclaim (by simp)

theorem ensures_handleClaim {payload : List UInt8} (hclaim : Claims site id claim)
    : Ensures site (Fresh site id) (handleClaim configuration conversion claim payload)
        (fun _ s => Rests site s) := by
  unfold handleClaim
  apply Ensures.bind (ensuresIo_handle hclaim)
  intro result
  cases result with
  | ok _ => exact ensures_pure assertion_stopped (fun s hs => hs.1)
  | error _ =>
    have hrelease : Ensures site (Stopped site id) (issue .release) _ := ensures_look rfl assertion_stopped
    apply Ensures.bind hrelease
    intro r
    exact ensures_pure (assertion_heeded assertion_stopped .release r) (fun s hs => hs.1.1)

theorem assertion_rests : Assertion site (Rests site) := assertion_of_rests calm_rests (fun _ hs => hs)

theorem ensuresIo_removeAll (names : List String)
    : EnsuresIo site (Rests site) (removeAll names) (fun _ => Rests site) (Rests site) := by
  induction names with
  | nil => exact ensuresIo_pure assertion_rests (fun _ hs => hs)
  | cons name rest ih =>
    apply EnsuresIo.bind assertion_rests
      (ensuresIo_removeStaging assertion_rests assertion_rests (fun _ hs _ => hs) name)
    intro _
    exact ih

theorem ensures_recover : Ensures site (Rests site) recover (fun _ => Rests site) := by
  have hclear : EnsuresIo site (Rests site) clearStaging (fun _ => Rests site) (Rests site) := by
    unfold clearStaging
    apply EnsuresIo.bind assertion_rests (ensuresIo_quiet (ensures_quiet_only rfl assertion_rests) (fun _ hs _ => hs))
    intro names
    exact ensuresIo_removeAll names
  unfold recover
  apply Ensures.bind hclear
  intro result
  cases result with
  | ok _ => exact ensures_pure assertion_rests (fun _ hs => hs)
  | error _ => exact ensures_pure assertion_rests (fun _ hs => hs)

end Handle

section Runs

theorem rests_idle (h : Rests site s) (attempt : Option String) : Rests site { s with attempt, exposed := [] } :=
  ⟨h.ordered, ⟨h.books.hash, h.books.recorded, h.books.pending⟩, h.items⟩

theorem Tidy.idle (h : Tidy s) (attempt : Option String) : Tidy { s with attempt, exposed := [] } :=
  ⟨h.owned, h.foreign, h.unrelated, h.fresh, h.numbered⟩

theorem resting_empty : Resting site .empty := by
  have hsettled : ∀ id, Surface.empty.settled id = false := by
    intro id
    simp [Surface.settled, Surface.empty]
  constructor
  . constructor <;> simp [Surface.empty]
  . constructor
    . trivial
    . constructor
      . simp [Surface.empty]
      . simp [Surface.empty]
      . intro id hid
        rw [hsettled] at hid
        cases hid
    . intro id
      unfold ItemRests
      rw [hsettled]
      intro object hobject
      cases hobject

/--
The runs in which the adapter is interrupted only where it does no harm.
-/
def HarmlessRun (site : Site) (turns : List (Program.Turn Task Surroundings Move)) : Prop :=
  site.machine.Along (Program.Admitted site.world) site.machine.init turns

theorem sound_run {turns : List (Program.Turn Task Surroundings Move)} (hturns : HarmlessRun site turns)
    : Program.Sound site.world (Always site) (Resting site) (site.machine.run site.machine.init turns) := by
  apply Program.sound_run _ _ _ _ resting_empty hturns
  . rintro s _ ⟨move, rfl⟩ ⟨htidy, hs⟩
    exact ⟨htidy.moved move, calm_rests s _ (same_moved move) hs⟩
  . intro move s
    exact ⟨move, rfl⟩
  . rintro s ⟨htidy, hs⟩
    exact ⟨htidy.idle none, rests_idle hs none⟩
  . rintro task s ⟨htidy, hs⟩
    cases task with
    | recover => exact ensures_recover _ ⟨htidy.idle none, rests_idle hs none⟩
    | handle inboundId claimToken =>
      have hclaim : Claims site inboundId (site.claimed inboundId claimToken) := ⟨rfl, rfl⟩
      apply ensures_handleClaim hclaim
      exact ⟨htidy.idle (some inboundId), rests_idle hs _, rfl, rfl⟩

theorem always_run {turns : List (Program.Turn Task Surroundings Move)} (hturns : HarmlessRun site turns)
    : Always site (site.machine.run site.machine.init turns).world := by
  have hsound := sound_run hturns
  unfold Program.Sound at hsound
  split at hsound
  . exact assertion_rests.always _ hsound.1 hsound.2
  . exact Program.World.Upholds.now hsound

end Runs

end Adapter

end Tith
