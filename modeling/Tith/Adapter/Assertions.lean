import Tith.Adapter.Runs

/-!
This module contains what holds of the adapter's world between its operations, whatever the tosser and
others do, and the rules that carry it through a program.
-/

namespace Tith

namespace Adapter

open Ledger (Record Orphan State)

/--
What the directory and the history of publications say about each other.
-/
structure Tidy (s : Surface) : Prop where
  owned : ∀ (name : String) (file : File) id, s.files[name]? = some file → file.owner = some id →
    ∃ object, object ∈ shownOf id s.events ∧ object.name = name
  foreign : ∀ (name : String) (file : File), s.files[name]? = some file → file.owner = none →
    ∀ id object, .shown id object file.number ∉ s.events
  unrelated : ∀ (name : String) (contents : List UInt8), s.unrelated[name]? = some contents →
    ∃ number, s.files[name]? = some ⟨number, none, contents⟩
  fresh : ∀ id object number, .shown id object number ∈ s.events → number < s.nextNumber
  numbered : ∀ (name : String) (file : File), s.files[name]? = some file → file.number < s.nextNumber

def NoPending (id : String) (orphans : Table String Orphan) : Prop :=
  ∀ orphan notice, orphans[id]? = some orphan → orphan.notice = some notice → orphan.noticePublished = true

/--
What is visible of an item that the ledger has not got as published: companions that are in no one's way.
-/
def Hidden (site : Site) (id : String) (events : List Event) : Prop :=
  ∀ object ∈ shownOf id events, object.kind = .companion ∧ object.name ∉ site.keptNames id

def ItemRests (site : Site) (id : String) (s : Surface) : Prop :=
  if s.settled id then Once id s.events else Hidden site id s.events

structure Books (site : Site) (s : Surface) : Prop where
  hash : ∀ (id : String) (record : Record), s.records[id]? = some record →
    record.payloadHash = (site.queue id).payloadHash
  recorded : ∀ (id : String) (orphan : Orphan), s.orphans[id]? = some orphan → s.records[id]? ≠ none
  pending : ∀ id, s.settled id = true → NoPending id s.orphans

/--
What holds where the adapter may be stopped.
-/
structure Rests (site : Site) (s : Surface) : Prop where
  ordered : Ordered s.events
  books : Books site s
  items : ∀ id, ItemRests site id s

def Resting (site : Site) (s : Surface) : Prop := Tidy s ∧ Rests site s

/--
What holds at every point of every run.
-/
structure Always (site : Site) (s : Surface) : Prop where
  tidy : Tidy s
  ordered : Ordered s.events
  once : ∀ id, Once id s.events
  items : ∀ id, s.attempt ≠ some id → ItemRests site id s

/--
The part of the world that neither others nor the adapter's reads and staging files change.
-/
structure Same (s s' : Surface) : Prop where
  records : s'.records = s.records
  orphans : s'.orphans = s.orphans
  attempt : s'.attempt = s.attempt
  exposed : s'.exposed = s.exposed
  events : s'.events = s.events

def Calm (R : Surface → Prop) : Prop := ∀ s s', Same s s' → R s → R s'

theorem Same.settled {s s' : Surface} (h : Same s s') (id : String) : s'.settled id = s.settled id := by
  unfold Surface.settled
  rw [h.records]

section Calm

variable {R Q : Surface → Prop}

theorem Calm.and (hR : Calm R) (hQ : Calm Q) : Calm (fun s => R s ∧ Q s) := by
  intro s s' hsame hs
  exact ⟨hR s s' hsame hs.1, hQ s s' hsame hs.2⟩

theorem calm_const (P : Prop) : Calm (fun _ => P) := by
  intro s s' _ h
  exact h

theorem calm_events (P : List Event → Prop) : Calm (fun s => P s.events) := by
  intro s s' hsame h
  rwa [hsame.events]

theorem calm_attempt (P : Option String → Prop) : Calm (fun s => P s.attempt) := by
  intro s s' hsame h
  rwa [hsame.attempt]

theorem calm_records (P : Table String Record → Prop) : Calm (fun s => P s.records) := by
  intro s s' hsame h
  rwa [hsame.records]

theorem calm_orphans (P : Table String Orphan → Prop) : Calm (fun s => P s.orphans) := by
  intro s s' hsame h
  rwa [hsame.orphans]

variable {site : Site}

theorem calm_itemRests (id : String) : Calm (ItemRests site id) := by
  intro s s' hsame h
  unfold ItemRests at h ⊢
  rwa [hsame.settled, hsame.events]

theorem calm_books : Calm (Books site) := by
  intro s s' hsame h
  constructor
  . intro id record
    rw [hsame.records]
    exact h.hash id record
  . intro id orphan
    rw [hsame.orphans, hsame.records]
    exact h.recorded id orphan
  . intro id hsettled
    rw [hsame.settled] at hsettled
    rw [hsame.orphans]
    exact h.pending id hsettled

theorem calm_rests : Calm (Rests site) := by
  intro s s' hsame h
  constructor
  . rw [hsame.events]
    exact h.ordered
  . exact calm_books s s' hsame h.books
  . intro id
    exact calm_itemRests id s s' hsame (h.items id)

theorem calm_harmless : Calm (Harmless site) := by
  intro s s' hsame h
  unfold Harmless at h ⊢
  rw [hsame.attempt, hsame.exposed]
  simp only [hsame.settled]
  exact h

end Calm

section Tidy

variable {s : Surface}

theorem same_consume (name : String) : Same s (s.consume name) := ⟨rfl, rfl, rfl, rfl, rfl⟩

theorem same_put (name : String) (contents : List UInt8) : Same s (s.put name contents) := by
  unfold Surface.put
  split <;> exact ⟨rfl, rfl, rfl, rfl, rfl⟩

theorem Tidy.consume (h : Tidy s) (name : String) : Tidy (s.consume name) := by
  have hfiles : ∀ (other : String) (file : File), (s.consume name).files[other]? = some file →
      s.files[other]? = some file := by
    intro other file hfile
    simp only [Surface.consume, Std.ExtTreeMap.getElem?_erase] at hfile
    split at hfile
    . cases hfile
    . exact hfile
  constructor
  . intro other file id hfile
    exact h.owned other file id (hfiles other file hfile)
  . intro other file hfile
    exact h.foreign other file (hfiles other file hfile)
  . intro other contents hother
    simp only [Surface.consume, Std.ExtTreeMap.getElem?_erase] at hother ⊢
    split at hother
    . cases hother
    . next hne =>
      rw [if_neg hne]
      exact h.unrelated other contents hother
  . exact h.fresh
  . intro other file hfile
    exact h.numbered other file (hfiles other file hfile)

theorem Tidy.put (h : Tidy s) (name : String) (contents : List UInt8) : Tidy (s.put name contents) := by
  unfold Surface.put
  split
  . exact h
  . next hfree =>
    constructor
    . intro other file id hfile howner
      obtain ⟨rfl, rfl⟩ | ⟨_, hfile⟩ := Table.getElem?_insert_some hfile
      . cases howner
      . exact h.owned other file id hfile howner
    . intro other file hfile howner
      obtain ⟨rfl, rfl⟩ | ⟨_, hfile⟩ := Table.getElem?_insert_some hfile
      . intro id object hshown
        exact absurd (h.fresh id object _ hshown) (by simp)
      . exact h.foreign other file hfile howner
    . intro other contents' hother
      dsimp only at hother ⊢
      obtain ⟨rfl, rfl⟩ | ⟨hne, hother⟩ := Table.getElem?_insert_some hother
      . exact ⟨s.nextNumber, by simp⟩
      . rw [Table.getElem?_insert_ne _ hne]
        exact h.unrelated other contents' hother
    . intro id object number hshown
      have := h.fresh id object number hshown
      dsimp only
      omega
    . intro other file hfile
      dsimp only at hfile ⊢
      obtain ⟨rfl, rfl⟩ | ⟨_, hfile⟩ := Table.getElem?_insert_some hfile
      . exact Nat.lt_succ_self _
      . have := h.numbered other file hfile
        omega

theorem Tidy.moved {site : Site} (h : Tidy s) (move : Move) : Tidy (site.tasks.moved move s) := by
  cases move with
  | consume name => exact h.consume name
  | put name contents => exact h.put name contents

theorem same_moved {site : Site} (move : Move) : Same s (site.tasks.moved move s) := by
  cases move with
  | consume name => exact same_consume name
  | put name contents => exact same_put name contents

end Tidy

section Rules

variable (site : Site)

/--
An assertion about the part of the world that others do not change. Where an interruption is harmless, it
leaves the adapter at rest.
-/
structure Assertion (R : Surface → Prop) : Prop where
  calm : Calm R
  always : ∀ s, Tidy s → R s → Always site s
  rests : ∀ s, R s → Harmless site s → Rests site s

def Ensures (R : Surface → Prop) (p : Program Op Op.Reply α) (Q : α → Surface → Prop) : Prop :=
  site.world.Triple (Always site) (Resting site) (fun s => Tidy s ∧ R s) p (fun a s => Tidy s ∧ Q a s)

/--
The two postconditions of a program that may fail.
-/
def Ends (Q : α → Surface → Prop) (E : Surface → Prop) (result : Except ε α) (s : Surface) : Prop :=
  match result with
  | .ok a => Q a s
  | .error _ => E s

def EnsuresIo (R : Surface → Prop) (m : Io ε α) (Q : α → Surface → Prop) (E : Surface → Prop) : Prop :=
  Ensures site R m.run (Ends Q E)

variable {site} {R : Surface → Prop}

theorem stable_of_calm (h : Calm R) : site.world.Stable (fun s => Tidy s ∧ R s) := by
  rintro s _ ⟨move, rfl⟩ ⟨htidy, hs⟩
  exact ⟨htidy.moved move, h s _ (same_moved move) hs⟩

theorem ensures_pure (hR : Assertion site R) {a : α} {Q : α → Surface → Prop} (hQ : ∀ s, R s → Q a s)
    : Ensures site R (pure a) Q := by
  apply Program.World.Triple.pure (stable_of_calm hR.calm)
  . intro s hs
    exact hR.always s hs.1 hs.2
  . intro s hs
    exact ⟨hs.1, hQ s hs.2⟩

theorem Ensures.bind {p : Program Op Op.Reply α} {f : α → Program Op Op.Reply β} {mid : α → Surface → Prop}
    {Q : β → Surface → Prop} (hp : Ensures site R p mid) (hf : ∀ a, Ensures site (mid a) (f a) Q)
    : Ensures site R (p >>= f) Q :=
  Program.World.Triple.bind hp hf

theorem Ensures.mono {p : Program Op Op.Reply α} {R' : Surface → Prop} {Q Q' : α → Surface → Prop}
    (h : Ensures site R p Q) (hR : ∀ s, R' s → R s) (hQ : ∀ a s, Q a s → Q' a s)
    : Ensures site R' p Q' := by
  apply Program.World.Triple.mono h
  . intro s hs
    exact ⟨hs.1, hR s hs.2⟩
  . intro a s hs
    exact ⟨hs.1, hQ a s hs.2⟩

theorem ensures_issue {op : Op} {Q : op.Reply → Surface → Prop} (hR : Assertion site R)
    (hQ : ∀ r, Assertion site (Q r))
    (hact : ∀ s around, Tidy s → R s → ((op.interrupts (s.act op around).1 = true) → Harmless site s) →
      Tidy (s.act op around).2 ∧ Q (s.act op around).1 (s.act op around).2)
    : Ensures site R (issue op) Q := by
  apply Program.World.Triple.perform (stable_of_calm hR.calm)
  . intro s hs
    exact hR.always s hs.1 hs.2
  . intro s hs hstop
    exact ⟨hs.1, hR.rests s hs.2 hstop⟩
  . intro s around hs hallowed
    exact hact s around hs.1 hs.2 hallowed
  . intro r
    exact stable_of_calm (hQ r).calm
  . intro r s hs
    exact (hQ r).always s hs.1 hs.2

variable {Q : α → Surface → Prop} {E : Surface → Prop}

theorem ensuresIo_pure (hR : Assertion site R) {a : α} (hQ : ∀ s, R s → Q a s)
    : EnsuresIo site R (pure a : Io ε α) Q E :=
  ensures_pure hR hQ

theorem ensuresIo_throw (hR : Assertion site R) {e : ε} (hE : ∀ s, R s → E s)
    : EnsuresIo site R (throw e : Io ε α) Q E :=
  ensures_pure hR hE

theorem EnsuresIo.bind {m : Io ε α} {f : α → Io ε β} {Q' : β → Surface → Prop} (hE : Assertion site E)
    (hm : EnsuresIo site R m Q E) (hf : ∀ a, EnsuresIo site (Q a) (f a) Q' E)
    : EnsuresIo site R (m >>= f) Q' E := by
  apply Ensures.bind hm
  intro result
  cases result with
  | ok a => exact hf a
  | error e => exact ensures_pure hE (fun _ h => h)

theorem EnsuresIo.mono {m : Io ε α} {R' : Surface → Prop} {Q' : α → Surface → Prop} {E' : Surface → Prop}
    (h : EnsuresIo site R m Q E) (hR : ∀ s, R' s → R s) (hQ : ∀ a s, Q a s → Q' a s) (hE : ∀ s, E s → E' s)
    : EnsuresIo site R' m Q' E' := by
  apply Ensures.mono h hR
  intro result s hs
  cases result with
  | ok a => exact hQ a s hs
  | error e => exact hE s hs

theorem ensuresIo_lift {p : Program Op Op.Reply α} (hQ : ∀ a, Assertion site (Q a)) (h : Ensures site R p Q)
    : EnsuresIo site R (liftM p : Io ε α) Q E := by
  apply Ensures.bind h
  intro a
  exact ensures_pure (hQ a) (fun _ hs => hs)

theorem ensuresIo_adapt {m : Io ε α} {f : ε → ε'} (hQ : ∀ a, Assertion site (Q a)) (hE : Assertion site E)
    (h : EnsuresIo site R m Q E)
    : EnsuresIo site R (ExceptT.adapt f m) Q E := by
  apply Ensures.bind h
  intro result
  cases result with
  | ok a => exact ensures_pure (hQ a) (fun _ hs => hs)
  | error e => exact ensures_pure hE (fun _ hs => hs)

theorem ensuresIo_result (hR : Assertion site R) {result : Except ε α} (hQ : ∀ a s, R s → Q a s)
    (hE : ∀ s, R s → E s)
    : EnsuresIo site R (attempt (.done result)) Q E := by
  cases result with
  | ok a => exact ensures_pure hR (hQ a)
  | error e => exact ensures_pure hR hE

theorem Assertion.and {F : Surface → Prop} (hR : Assertion site R) (hF : Calm F)
    : Assertion site (fun s => R s ∧ F s) where
  calm := hR.calm.and hF
  always s htidy hs := hR.always s htidy hs.1
  rests s hs hharmless := hR.rests s hs.1 hharmless

theorem Assertion.or {R' : Surface → Prop} (hR : Assertion site R) (hR' : Assertion site R')
    : Assertion site (fun s => R s ∨ R' s) where
  calm s s' hsame hs := hs.imp (hR.calm s s' hsame) (hR'.calm s s' hsame)
  always s htidy hs := hs.elim (hR.always s htidy) (hR'.always s htidy)
  rests s hs hharmless := hs.elim (fun h => hR.rests s h hharmless) (fun h => hR'.rests s h hharmless)

theorem once_of_hidden {id : String} {events : List Event} (h : Hidden site id events) : Once id events := by
  constructor
  . rw [List.countP_eq_zero.mpr]
    . omega
    . intro object hobject
      simp [(h object hobject).1, Kind.isMain]
  . rw [List.countP_eq_zero.mpr]
    . omega
    . intro object hobject
      simp [(h object hobject).1]

theorem ItemRests.once {id : String} {s : Surface} (h : ItemRests site id s) : Once id s.events := by
  unfold ItemRests at h
  split at h
  . exact h
  . exact once_of_hidden h

theorem assertion_of_rests (hcalm : Calm R) (h : ∀ s, R s → Rests site s) : Assertion site R where
  calm := hcalm
  always s htidy hs := {
    tidy := htidy
    ordered := (h s hs).ordered
    once := fun id => ((h s hs).items id).once
    items := fun id _ => (h s hs).items id }
  rests s hs _ := h s hs

end Rules

section Quiet

/--
The operations that touch no more than the staging files and the counter.
-/
def Op.isQuiet (op : Op) : Bool :=
  match op with
  | .hardLink _ | .createFinal _ | .writeFinal .. | .stage _ | .stageOrphan .. | .markOrphanNoticePublished _
  | .advance .. | .recordForward .. => false
  | _ => true

theorem act_quiet {op : Op} (h : op.isQuiet = true) (s : Surface) (around : Surroundings)
    : ∃ staging identity, (s.act op around).2 = { s with staging, identity } := by
  unfold Surface.act
  cases around.failure with
  | some text =>
    cases op <;> first
      | exact ⟨_, _, rfl⟩
      | cases h
  | none =>
    cases op <;> first
      | exact ⟨_, _, rfl⟩
      | (dsimp only [Surface.perform]; split <;> exact ⟨_, _, rfl⟩)
      | cases h

theorem Tidy.quiet {s : Surface} (h : Tidy s) (staging : Table String (List UInt8)) (identity : Nat)
    : Tidy { s with staging, identity } :=
  ⟨h.owned, h.foreign, h.unrelated, h.fresh, h.numbered⟩

variable {site : Site} {R : Surface → Prop}

theorem ensures_quiet {op : Op} (hop : op.isQuiet = true) (hR : Assertion site R) {F : op.Reply → Surface → Prop}
    (hcalm : ∀ r, Calm (F r)) (hF : ∀ s around, F (s.act op around).1 s)
    : Ensures site R (issue op) (fun r s => R s ∧ F r s ∧ (op.interrupts r = true → Harmless site s)) := by
  apply ensures_issue hR
  . intro r
    apply hR.and
    apply (hcalm r).and
    intro s s' hsame h hinterrupts
    exact calm_harmless s s' hsame (h hinterrupts)
  . intro s around htidy hs hharmless
    obtain ⟨staging, identity, hact⟩ := act_quiet hop s around
    have hsame : Same s (s.act op around).2 := by
      rw [hact]
      exact ⟨rfl, rfl, rfl, rfl, rfl⟩
    refine ⟨?_, hR.calm s _ hsame hs, hcalm _ s _ hsame (hF s around), ?_⟩
    . rw [hact]
      exact htidy.quiet staging identity
    . intro hinterrupts
      exact calm_harmless s _ hsame (hharmless hinterrupts)

theorem Ensures.attempt {p : Program Op Op.Reply (Except ε α)} {F : Except ε α → Surface → Prop}
    {E : Surface → Prop}
    (h : Ensures site R p (fun r s => R s ∧ F r s ∧ ((!r.isOk) = true → Harmless site s)))
    (hE : ∀ s, R s → Harmless site s → E s)
    : EnsuresIo site R (Adapter.attempt p) (fun a s => R s ∧ F (.ok a) s) E := by
  apply Ensures.mono h (fun _ hs => hs)
  intro result s hs
  cases result with
  | ok a => exact ⟨hs.1, hs.2.1⟩
  | error e => exact hE s hs.1 (hs.2.2 rfl)

theorem ensures_quiet_only {op : Op} (hop : op.isQuiet = true) (hR : Assertion site R)
    : Ensures site R (issue op) (fun r s => R s ∧ True ∧ (op.interrupts r = true → Harmless site s)) :=
  ensures_quiet hop hR (fun _ => calm_const True) (fun _ _ => trivial)

end Quiet

end Adapter

end Tith
