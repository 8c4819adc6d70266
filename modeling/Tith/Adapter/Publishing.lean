import Tith.Adapter.Assertions

/-!
This module contains what holds of an attempt while its objects become visible one after the other.
-/

namespace Tith

namespace Adapter

/--
At most one of the objects is a packet or TIC, and at most one is a notice.
-/
def AtMostOne (objects : List Publication) : Prop :=
  objects.countP (·.kind.isMain) ≤ 1 ∧ objects.countP (·.kind = .notice) ≤ 1

/--
The attempt at `id` has shown `shown`, with the newest first, and completed `completed`. The orphans stay as
they are in the meantime.
-/
structure Publishing (site : Site) (id : String) (P : Table String Ledger.Orphan → Prop) (shown : List Publication)
    (completed : List String) (s : Surface)
    : Prop where
  ordered : Ordered s.events
  books : Books site s
  others : ∀ other, other ≠ id → ItemRests site other s
  attempt : s.attempt = some id
  unsettled : s.settled id = false
  exposed : s.exposed = shown
  seen : ∀ object ∈ shownOf id s.events,
    object ∈ shown ∨ (object.kind = .companion ∧ object.name ∉ site.keptNames id)
  mains : (shownOf id s.events).countP (·.kind.isMain) = shown.countP (·.kind.isMain)
  notices : (shownOf id s.events).countP (·.kind = .notice) = shown.countP (·.kind = .notice)
  atMostOne : AtMostOne shown
  complete : ∀ name ∈ completed, .complete id name ∈ s.events
  orphans : P s.orphans

def Stopped (site : Site) (id : String) (s : Surface) : Prop := Rests site s ∧ s.attempt = some id

variable {site : Site} {id : String} {P : Table String Ledger.Orphan → Prop} {shown : List Publication}
  {completed : List String} {s : Surface}

theorem calm_publishing : Calm (Publishing site id P shown completed) := by
  intro s s' hsame h
  constructor
  . rw [hsame.events]
    exact h.ordered
  . exact calm_books s s' hsame h.books
  . intro other hother
    exact calm_itemRests other s s' hsame (h.others other hother)
  . rw [hsame.attempt]
    exact h.attempt
  . rw [hsame.settled]
    exact h.unsettled
  . rw [hsame.exposed]
    exact h.exposed
  . rw [hsame.events]
    exact h.seen
  . rw [hsame.events]
    exact h.mains
  . rw [hsame.events]
    exact h.notices
  . exact h.atMostOne
  . rw [hsame.events]
    exact h.complete
  . rw [hsame.orphans]
    exact h.orphans

theorem Publishing.once (h : Publishing site id P shown completed s) (other : String) : Once other s.events := by
  by_cases hother : other = id
  . subst hother
    constructor
    . rw [h.mains]
      exact h.atMostOne.1
    . rw [h.notices]
      exact h.atMostOne.2
  . exact (h.others other hother).once

theorem Publishing.rests (h : Publishing site id P shown completed s) (hharmless : Harmless site s) : Rests site s := by
  have hexposed : ∀ object ∈ shown, object.kind = .companion ∧ object.name ∉ site.keptNames id := by
    unfold Harmless at hharmless
    simp only [h.attempt, h.unsettled, h.exposed] at hharmless
    rcases hharmless with hsettled | hexposed
    . cases hsettled
    . exact hexposed
  constructor
  . exact h.ordered
  . exact h.books
  . intro other
    by_cases hother : other = id
    . subst hother
      unfold ItemRests
      rw [h.unsettled]
      intro object hobject
      rcases h.seen object hobject with hshown | hhidden
      . exact hexposed object hshown
      . exact hhidden
    . exact h.others other hother

theorem assertion_publishing : Assertion site (Publishing site id P shown completed) where
  calm := calm_publishing
  always s htidy h := {
    tidy := htidy
    ordered := h.ordered
    once := h.once
    items := fun other hother => h.others other (fun heq => hother (by rw [h.attempt, heq])) }
  rests s h hharmless := h.rests hharmless

theorem assertion_stopped : Assertion site (Stopped site id) := by
  apply assertion_of_rests
  . exact calm_rests.and (calm_attempt (· = some id))
  . intro s hs
    exact hs.1

theorem Publishing.stopped (h : Publishing site id P shown completed s) (hharmless : Harmless site s)
    : Stopped site id s :=
  ⟨h.rests hharmless, h.attempt⟩

theorem Publishing.harmless (h : Publishing site id P [] completed s) : Harmless site s := by
  unfold Harmless
  simp only [h.attempt, h.exposed]
  right
  intro object hobject
  cases hobject

section Events

theorem shownOf_shown (other : String) (object : Publication) (number : Nat) (events : List Event)
    : shownOf other (.shown id object number :: events) =
        if id = other then object :: shownOf other events else shownOf other events := by
  by_cases h : id = other <;> simp [shownOf, h]

theorem shownOf_complete (other name : String) (events : List Event)
    : shownOf other (.complete id name :: events) = shownOf other events := by
  simp [shownOf]

end Events

section Reveal

variable {object : Publication} {contents : List UInt8}

theorem reveal_eq (h : s.attempt = some id)
    : s.reveal object contents = { s with
        files := s.files.insert object.name ⟨s.nextNumber, some id, contents⟩
        nextNumber := s.nextNumber + 1
        exposed := object :: s.exposed
        events := .shown id object s.nextNumber :: s.events } := by
  unfold Surface.reveal
  rw [h]

theorem Tidy.reveal (h : Tidy s) (hattempt : s.attempt = some id) (hfree : object.name ∉ s.files)
    : Tidy (s.reveal object contents) := by
  rw [reveal_eq hattempt]
  constructor
  . intro name file owner hfile howner
    dsimp only at hfile ⊢
    rw [shownOf_shown]
    obtain ⟨rfl, rfl⟩ | ⟨_, hfile⟩ := Table.getElem?_insert_some hfile
    . injection howner with howner
      exact ⟨object, by simp [howner], rfl⟩
    . obtain ⟨object', hobject', hname⟩ := h.owned name file owner hfile howner
      refine ⟨object', ?_, hname⟩
      split
      . exact List.mem_cons_of_mem _ hobject'
      . exact hobject'
  . intro name file hfile howner owner object' hmem
    obtain ⟨rfl, rfl⟩ | ⟨_, hfile⟩ := Table.getElem?_insert_some hfile
    . cases howner
    . rcases List.mem_cons.mp hmem with heq | hmem
      . injection heq with _ _ hnumber
        have := h.numbered name file hfile
        omega
      . exact h.foreign name file hfile howner owner object' hmem
  . intro name contents' hunrelated
    obtain ⟨number, hfile⟩ := h.unrelated name contents' hunrelated
    refine ⟨number, ?_⟩
    dsimp only
    rw [Table.getElem?_insert_ne]
    . exact hfile
    . rintro rfl
      apply hfree
      rw [Std.ExtTreeMap.mem_iff_isSome_getElem?, hfile]
      rfl
  . intro owner object' number hmem
    dsimp only at hmem ⊢
    rcases List.mem_cons.mp hmem with heq | hmem
    . injection heq with _ _ hnumber
      omega
    . have := h.fresh owner object' number hmem
      omega
  . intro name file hfile
    dsimp only at hfile ⊢
    obtain ⟨rfl, rfl⟩ | ⟨_, hfile⟩ := Table.getElem?_insert_some hfile
    . exact Nat.lt_succ_self _
    . have := h.numbered name file hfile
      omega

theorem Publishing.reveal (h : Publishing site id P shown completed s)
    (hcompanions : ∀ name ∈ object.kind.companions, name ∈ completed) (hone : AtMostOne (object :: shown))
    : Publishing site id P (object :: shown) completed (s.reveal object contents) := by
  rw [reveal_eq h.attempt]
  have hother : ∀ other, other ≠ id → shownOf other (.shown id object s.nextNumber :: s.events) =
      shownOf other s.events := by
    intro other hne
    rw [shownOf_shown, if_neg (fun heq => hne heq.symm)]
  have hown : shownOf id (.shown id object s.nextNumber :: s.events) = object :: shownOf id s.events := by
    rw [shownOf_shown, if_pos rfl]
  constructor
  . exact ⟨fun name hname => h.complete name (hcompanions name hname), h.ordered⟩
  . exact ⟨h.books.hash, h.books.recorded, h.books.pending⟩
  . intro other hne
    have := h.others other hne
    unfold ItemRests Once Hidden at this ⊢
    dsimp only
    rw [hother other hne]
    exact this
  . exact h.attempt
  . exact h.unsettled
  . dsimp only
    rw [h.exposed]
  . dsimp only
    rw [hown]
    intro object' hobject'
    rcases List.mem_cons.mp hobject' with rfl | hobject'
    . exact .inl (List.mem_cons_self ..)
    . rcases h.seen object' hobject' with hshown | hhidden
      . exact .inl (List.mem_cons_of_mem _ hshown)
      . exact .inr hhidden
  . dsimp only
    rw [hown, List.countP_cons, List.countP_cons, h.mains]
  . dsimp only
    rw [hown, List.countP_cons, List.countP_cons, h.notices]
  . exact hone
  . intro name hname
    exact List.mem_cons_of_mem _ (h.complete name hname)
  . exact h.orphans

theorem complete_eq (h : s.attempt = some id) (name : String)
    : s.complete name = { s with events := .complete id name :: s.events } := by
  unfold Surface.complete
  rw [h]

theorem Tidy.complete (h : Tidy s) (hattempt : s.attempt = some id) (name : String) : Tidy (s.complete name) := by
  rw [complete_eq hattempt]
  constructor
  . intro other file owner hfile howner
    obtain ⟨object, hobject, hname⟩ := h.owned other file owner hfile howner
    refine ⟨object, ?_, hname⟩
    dsimp only
    rw [shownOf_complete]
    exact hobject
  . intro other file hfile howner owner object hmem
    rcases List.mem_cons.mp hmem with heq | hmem
    . cases heq
    . exact h.foreign other file hfile howner owner object hmem
  . exact h.unrelated
  . intro owner object number hmem
    rcases List.mem_cons.mp hmem with heq | hmem
    . cases heq
    . exact h.fresh owner object number hmem
  . exact h.numbered

theorem Publishing.finish (h : Publishing site id P shown completed s) (name : String)
    : Publishing site id P shown (name :: completed) (s.complete name) := by
  rw [complete_eq h.attempt]
  constructor
  . exact h.ordered
  . exact ⟨h.books.hash, h.books.recorded, h.books.pending⟩
  . intro other hne
    have := h.others other hne
    unfold ItemRests Once Hidden at this ⊢
    dsimp only
    rw [shownOf_complete]
    exact this
  . exact h.attempt
  . exact h.unsettled
  . exact h.exposed
  . dsimp only
    rw [shownOf_complete]
    exact h.seen
  . dsimp only
    rw [shownOf_complete]
    exact h.mains
  . dsimp only
    rw [shownOf_complete]
    exact h.notices
  . exact h.atMostOne
  . intro other hother
    dsimp only
    rcases List.mem_cons.mp hother with rfl | hother
    . exact List.mem_cons_self ..
    . exact List.mem_cons_of_mem _ (h.complete other hother)
  . exact h.orphans

theorem Tidy.write (h : Tidy s) {number : Nat} (hshown : .shown id object number ∈ s.events) (name : String)
    : Tidy (s.write name number contents) := by
  -- A write through a handle of the adapter does not reach a file of someone else.
  unfold Surface.write
  cases hfile : s.files[name]? with
  | none => exact h
  | some file =>
    dsimp only
    split
    . next hnumber =>
      constructor
      . intro other file' owner hfile' howner
        obtain ⟨rfl, rfl⟩ | ⟨_, hfile'⟩ := Table.getElem?_insert_some hfile'
        . exact h.owned name file owner hfile howner
        . exact h.owned other file' owner hfile' howner
      . intro other file' hfile' howner
        obtain ⟨rfl, rfl⟩ | ⟨_, hfile'⟩ := Table.getElem?_insert_some hfile'
        . exact h.foreign name file hfile howner
        . exact h.foreign other file' hfile' howner
      . intro other contents' hunrelated
        obtain ⟨number', hother⟩ := h.unrelated other contents' hunrelated
        refine ⟨number', ?_⟩
        dsimp only
        rw [Table.getElem?_insert_ne]
        . exact hother
        . rintro rfl
          rw [hfile] at hother
          injection hother with hother
          subst hother
          subst hnumber
          exact h.foreign name _ hfile rfl id object hshown
      . exact h.fresh
      . intro other file' hfile'
        obtain ⟨rfl, rfl⟩ | ⟨_, hfile'⟩ := Table.getElem?_insert_some hfile'
        . exact h.numbered name file hfile
        . exact h.numbered other file' hfile'
    . exact h

theorem same_write (s : Surface) (name : String) (number : Nat) (contents : List UInt8)
    : Same s (s.write name number contents) := by
  unfold Surface.write
  split
  . exact ⟨rfl, rfl, rfl, rfl, rfl⟩
  . split <;> exact ⟨rfl, rfl, rfl, rfl, rfl⟩

end Reveal

section Stage

variable {R E : Surface → Prop}

/--
The assertion, and that the reply to the operation does no harm.
-/
def Heeded (site : Site) (R : Surface → Prop) (op : Op) (r : op.Reply) (s : Surface) : Prop :=
  R s ∧ (op.interrupts r = true → Harmless site s)

theorem assertion_heeded (hR : Assertion site R) (op : Op) (r : op.Reply) : Assertion site (Heeded site R op r) := by
  apply hR.and
  intro s s' hsame h hinterrupts
  exact calm_harmless s s' hsame (h hinterrupts)

theorem ensures_look {op : Op} (hop : op.isQuiet = true) (hR : Assertion site R)
    : Ensures site R (issue op) (Heeded site R op) := by
  apply Ensures.mono (ensures_quiet_only hop hR) (fun _ hs => hs)
  intro r s hs
  exact ⟨hs.1, hs.2.2⟩

theorem ensuresIo_look {op : Op} (hop : op.isQuiet = true) (hR : Assertion site R)
    : EnsuresIo site R (liftM (issue op) : Io ε op.Reply) (Heeded site R op) E :=
  ensuresIo_lift (assertion_heeded hR op) (ensures_look hop hR)

theorem ensuresIo_quiet {p : Program Op Op.Reply (Except ε α)}
    (h : Ensures site R p (fun r s => R s ∧ True ∧ ((!r.isOk) = true → Harmless site s)))
    (hE : ∀ s, R s → Harmless site s → E s)
    : EnsuresIo site R (attempt p) (fun _ => R) E := by
  apply EnsuresIo.mono (h.attempt hE) (fun _ hs => hs)
  . intro a s hs
    exact hs.1
  . intro s hs
    exact hs

theorem ensuresIo_removeStaging (hR : Assertion site R) (hE : Assertion site E)
    (himp : ∀ s, R s → Harmless site s → E s) (name : String)
    : EnsuresIo site R (removeStaging name) (fun _ => R) E := by
  unfold removeStaging
  apply EnsuresIo.bind hE (ensuresIo_look rfl hR)
  intro r
  have hpost := assertion_heeded hR (.removeStaging name) r
  match r with
  | .removed => exact ensuresIo_pure hpost (fun s hs => hs.1)
  | .notFound => exact ensuresIo_throw hpost (fun s hs => himp s hs.1 (hs.2 rfl))
  | .failed text => exact ensuresIo_throw hpost (fun s hs => himp s hs.1 (hs.2 rfl))

-- Nothing has been shown yet, so the attempt may end here.
theorem ensuresIo_stage (hR : Assertion site R) (hE : Assertion site E) (himp : ∀ s, R s → E s)
    (name : String) (contents : List UInt8)
    : EnsuresIo site R (stage name contents) (fun _ => R) E := by
  have hcreate : EnsuresIo site R (createStaging name) (fun _ => R) E := by
    unfold createStaging
    apply EnsuresIo.bind hE (ensuresIo_look rfl hR)
    intro r
    have hpost := assertion_heeded hR (.createStaging name) r
    match r with
    | .created _ => exact ensuresIo_pure hpost (fun s hs => hs.1)
    | .alreadyExists => exact ensuresIo_throw hpost (fun s hs => himp s hs.1)
    | .failed text => exact ensuresIo_throw hpost (fun s hs => himp s hs.1)
  have hwrite : EnsuresIo site R
      (attempt (issue (.writeStaging name contents)) >>= fun _ => attempt (issue (.syncStaging name)))
      (fun _ => R) E := by
    apply EnsuresIo.bind hE (ensuresIo_quiet (ensures_quiet_only rfl hR) (fun s hs _ => himp s hs))
    intro _
    exact ensuresIo_quiet (ensures_quiet_only rfl hR) (fun s hs _ => himp s hs)
  unfold stage
  apply EnsuresIo.bind hE (ensuresIo_look rfl hR)
  intro r
  have hpost := assertion_heeded hR (.createStaging name) r
  match r with
  | .created _ => exact hwrite.mono (fun s hs => hs.1) (fun _ _ hs => hs) (fun _ hs => hs)
  | .alreadyExists =>
    have hremove := ensuresIo_removeStaging hR hE (fun s hs _ => himp s hs) name
    apply EnsuresIo.bind hE (hremove.mono (fun s hs => hs.1) (fun _ _ hs => hs) (fun _ hs => hs))
    intro _
    apply EnsuresIo.bind hE hcreate
    intro _
    exact hwrite
  | .failed text => exact ensuresIo_throw hpost (fun s hs => himp s hs.1)

theorem ensuresIo_stageAll (hR : Assertion site R) (hE : Assertion site E) (himp : ∀ s, R s → E s)
    (objects : List Publication)
    : EnsuresIo site R (stageAll objects) (fun _ => R) E := by
  induction objects with
  | nil => exact ensuresIo_pure hR (fun _ hs => hs)
  | cons object rest ih =>
    apply EnsuresIo.bind hE (ensuresIo_stage hR hE himp object.name object.contents)
    intro _
    exact ih

end Stage

section Claim

variable {object : Publication}

theorem Stopped.same {s' : Surface} (h : Stopped site id s) (hsame : Same s s') : Stopped site id s' :=
  assertion_stopped.calm s s' hsame h

/--
What the attempt has come to after an operation that shows an object.
-/
def Linked (site : Site) (id : String) (P : Table String Ledger.Orphan → Prop) (object : Publication)
    (shown : List Publication) (completed : List String)
    (r : Creation) (s : Surface) : Prop :=
  match r with
  | .created _ => Publishing site id P (object :: shown) (object.name :: completed) s
  | .alreadyExists => Stopped site id s
  | .failed _ => Publishing site id P shown completed s

def Created (site : Site) (id : String) (P : Table String Ledger.Orphan → Prop) (object : Publication)
    (shown : List Publication) (completed : List String)
    (r : Creation) (s : Surface) : Prop :=
  match r with
  | .created number =>
    Publishing site id P (object :: shown) completed s ∧ .shown id object number ∈ s.events
  | .alreadyExists | .failed _ => Stopped site id s

theorem assertion_linked (r : Creation) : Assertion site (Linked site id P object shown completed r) := by
  cases r with
  | created _ => exact assertion_publishing
  | alreadyExists => exact assertion_stopped
  | failed _ => exact assertion_publishing

theorem calm_shown (object : Publication) (number : Nat)
    : Calm (fun s => .shown id object number ∈ s.events) :=
  calm_events (fun events => .shown id object number ∈ events)

theorem assertion_created (r : Creation) : Assertion site (Created site id P object shown completed r) := by
  cases r with
  | created number => exact assertion_publishing.and (calm_shown object number)
  | alreadyExists => exact assertion_stopped
  | failed _ => exact assertion_stopped

theorem ensures_hardLink (hcompanions : ∀ name ∈ object.kind.companions, name ∈ completed)
    (hone : AtMostOne (object :: shown))
    : Ensures site (Publishing site id P shown completed) (issue (.hardLink object))
        (Linked site id P object shown completed) := by
  apply ensures_issue assertion_publishing assertion_linked
  . intro s around htidy hs hharmless
    unfold Surface.act at hharmless ⊢
    cases hfailure : around.failure with
    | some text => exact ⟨htidy, hs⟩
    | none =>
      simp only [hfailure, Surface.perform] at hharmless ⊢
      by_cases hfree : object.name ∈ s.files
      . simp only [if_pos hfree] at hharmless ⊢
        exact ⟨htidy, hs.stopped (hharmless rfl)⟩
      . simp only [if_neg hfree] at hharmless ⊢
        cases hstaged : s.staging[object.name]? with
        | none => exact ⟨htidy, hs⟩
        | some contents =>
          have hreveal : Publishing site id P (object :: shown) completed (s.reveal object contents) :=
            hs.reveal hcompanions hone
          have htidy' : Tidy (s.reveal object contents) := htidy.reveal hs.attempt hfree
          exact ⟨htidy'.complete hreveal.attempt _, hreveal.finish _⟩

theorem ensures_createFinal (hcompanions : ∀ name ∈ object.kind.companions, name ∈ completed)
    (hone : AtMostOne (object :: shown))
    : Ensures site (Publishing site id P shown completed) (issue (.createFinal object))
        (Created site id P object shown completed) := by
  apply ensures_issue assertion_publishing assertion_created
  . intro s around htidy hs hharmless
    unfold Surface.act at hharmless ⊢
    cases hfailure : around.failure with
    | some text =>
      simp only [hfailure, Surface.fail] at hharmless ⊢
      exact ⟨htidy, hs.stopped (hharmless rfl)⟩
    | none =>
      simp only [hfailure, Surface.perform] at hharmless ⊢
      by_cases hfree : object.name ∈ s.files
      . simp only [if_pos hfree] at hharmless ⊢
        exact ⟨htidy, hs.stopped (hharmless rfl)⟩
      . simp only [if_neg hfree] at hharmless ⊢
        refine ⟨htidy.reveal hs.attempt hfree, hs.reveal hcompanions hone, ?_⟩
        rw [reveal_eq hs.attempt]
        exact List.mem_cons_self ..

theorem ensures_writeFinal (number : Nat) (contents : List UInt8)
    : EnsuresIo site
        (fun s => Publishing site id P (object :: shown) completed s ∧ .shown id object number ∈ s.events)
        (attempt (issue (.writeFinal object number contents)))
        (fun _ => Publishing site id P (object :: shown) (object.name :: completed)) (Stopped site id) := by
  have hpre : Assertion site
      (fun s => Publishing site id P (object :: shown) completed s ∧ .shown id object number ∈ s.events) :=
    assertion_publishing.and (calm_shown object number)
  apply ensures_issue hpre
  . intro r
    cases r with
    | ok _ => exact assertion_publishing
    | error _ => exact assertion_stopped
  . intro s around htidy hs hharmless
    unfold Surface.act at hharmless ⊢
    cases hfailure : around.failure with
    | some text =>
      simp only [hfailure, Surface.fail] at hharmless ⊢
      refine ⟨htidy.write hs.2 object.name, ?_⟩
      exact (hs.1.stopped (hharmless rfl)).same (same_write s _ _ _)
    | none =>
      simp only [Surface.perform]
      have hsame := same_write s object.name number contents
      have hpublishing := calm_publishing s _ hsame hs.1
      exact ⟨(htidy.write hs.2 object.name).complete hpublishing.attempt _, hpublishing.finish _⟩

theorem ensuresIo_settleName (name : String)
    : EnsuresIo site (Publishing site id P shown completed) (settleName name)
        (fun published s => published = true ∧ Publishing site id P shown completed s) (Stopped site id) := by
  have hstop : ∀ s, Publishing site id P shown completed s → Harmless site s → Stopped site id s :=
    fun s hs hharmless => hs.stopped hharmless
  unfold settleName
  apply EnsuresIo.bind assertion_stopped
    (ensuresIo_removeStaging assertion_publishing assertion_stopped hstop name)
  intro _
  apply EnsuresIo.bind assertion_stopped (ensuresIo_quiet (ensures_quiet_only rfl assertion_publishing) hstop)
  intro _
  exact ensuresIo_pure assertion_publishing (fun s hs => ⟨rfl, hs⟩)

/--
What the attempt has come to when a name has been claimed, or not.
-/
def NameClaimed (site : Site) (id : String) (P : Table String Ledger.Orphan → Prop) (object : Publication)
    (shown : List Publication) (completed : List String)
    (published : Bool) (s : Surface) : Prop :=
  if published then Publishing site id P (object :: shown) (object.name :: completed) s else Stopped site id s

theorem ensuresIo_claimName (hcompanions : ∀ name ∈ object.kind.companions, name ∈ completed)
    (hone : AtMostOne (object :: shown))
    : EnsuresIo site (Publishing site id P shown completed) (claimName object)
        (NameClaimed site id P object shown completed) (Stopped site id) := by
  have hsettle : ∀ name, EnsuresIo site (Publishing site id P (object :: shown) (object.name :: completed))
      (settleName name) (NameClaimed site id P object shown completed) (Stopped site id) := by
    intro name
    apply (ensuresIo_settleName name).mono (fun _ hs => hs) _ (fun _ hs => hs)
    rintro _ s ⟨rfl, hs⟩
    exact hs
  unfold claimName
  apply EnsuresIo.bind assertion_stopped (ensuresIo_lift assertion_linked (ensures_hardLink hcompanions hone))
  intro r
  match r with
  | .created _ => exact hsettle object.name
  | .alreadyExists => exact ensuresIo_pure assertion_stopped (fun s hs => hs)
  | .failed _ =>
    apply EnsuresIo.bind assertion_stopped (ensuresIo_lift assertion_created (ensures_createFinal hcompanions hone))
    intro r
    match r with
    | .created number =>
      have hpre : Assertion site (Created site id P object shown completed (.created number)) := assertion_created _
      apply EnsuresIo.bind assertion_stopped
        (ensuresIo_quiet (ensures_quiet_only rfl hpre) (fun s hs hharmless => hs.1.stopped hharmless))
      intro contents
      apply EnsuresIo.bind assertion_stopped (ensures_writeFinal number contents)
      intro _
      apply EnsuresIo.bind assertion_stopped
        (ensuresIo_quiet (ensures_quiet_only rfl assertion_publishing) (fun s hs hharmless => hs.stopped hharmless))
      intro _
      exact hsettle object.name
    | .alreadyExists => exact ensuresIo_pure assertion_stopped (fun s hs => hs)
    | .failed text => exact ensuresIo_throw assertion_stopped (fun s hs => hs)

/--
The objects are in an order in which each one finds its companions published.
-/
def Arranged (completed : List String) (objects : List Publication) : Prop :=
  match objects with
  | [] => True
  | object :: rest =>
    (∀ name ∈ object.kind.companions, name ∈ completed) ∧ Arranged (object.name :: completed) rest

/--
What the attempt has come to when all objects have been published, or not.
-/
def AllClaimed (site : Site) (id : String) (P : Table String Ledger.Orphan → Prop) (shown : List Publication)
    (completed : List String)
    (result : Except String Unit) (s : Surface) : Prop :=
  match result with
  | .ok () => Publishing site id P shown completed s
  | .error _ => Stopped site id s

theorem assertion_allClaimed (result : Except String Unit)
    : Assertion site (AllClaimed site id P shown completed result) := by
  cases result with
  | ok _ => exact assertion_publishing
  | error _ => exact assertion_stopped

theorem AtMostOne.sublist {objects objects' : List Publication} (h : AtMostOne objects) (hsub : objects'.Sublist objects)
    : AtMostOne objects' :=
  ⟨Nat.le_trans (hsub.countP_le) h.1, Nat.le_trans (hsub.countP_le) h.2⟩

theorem ensuresIo_claimAll {objects : List Publication} (harranged : Arranged completed objects)
    (hone : AtMostOne (objects.reverse ++ shown))
    : EnsuresIo site (Publishing site id P shown completed) (claimAll objects)
        (AllClaimed site id P (objects.reverse ++ shown) ((objects.map (·.name)).reverse ++ completed))
        (Stopped site id) := by
  induction objects generalizing shown completed with
  | nil => exact ensuresIo_pure assertion_publishing (fun s hs => hs)
  | cons object rest ih =>
    obtain ⟨hcompanions, hrest⟩ := harranged
    have hlists : (object :: rest).reverse ++ shown = rest.reverse ++ object :: shown := by simp
    have hnames : ((object :: rest).map (·.name)).reverse ++ completed =
        (rest.map (·.name)).reverse ++ object.name :: completed := by simp
    rw [hlists] at hone ⊢
    rw [hnames]
    have hfirst : AtMostOne (object :: shown) := hone.sublist (List.sublist_append_right _ _)
    apply EnsuresIo.bind assertion_stopped (ensuresIo_claimName hcompanions hfirst)
    intro published
    cases published with
    | true => exact ih hrest hone
    | false => exact ensuresIo_pure assertion_stopped (fun s hs => hs)

theorem ensuresIo_publish {objects : List Publication} (harranged : Arranged [] objects) (hone : AtMostOne objects)
    : EnsuresIo site (Publishing site id P [] []) (publish objects)
        (AllClaimed site id P objects.reverse (objects.map (·.name)).reverse) (Stopped site id) := by
  unfold publish
  apply EnsuresIo.bind assertion_stopped
    (ensuresIo_stageAll assertion_publishing assertion_stopped (fun s hs => hs.stopped hs.harmless) objects)
  intro _
  have hone' : AtMostOne (objects.reverse ++ []) := by
    rw [List.append_nil]
    exact ⟨by rw [List.countP_reverse]; exact hone.1, by rw [List.countP_reverse]; exact hone.2⟩
  apply (ensuresIo_claimAll harranged hone').mono (fun _ hs => hs) _ (fun _ hs => hs)
  intro result s hs
  rw [List.append_nil, List.append_nil] at hs
  exact hs

end Claim

end Adapter

end Tith
