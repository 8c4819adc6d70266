import Mathlib.Logic.Function.Basic
import Tith.Lib.Machine

/-!
This module contains the lock that is taken on a node before its flow files are changed, while any number of takers
and other programs move in any order and may stop at any point, and the proof that one taker at most has it.
-/

namespace Tith

namespace Bso

namespace BusyLock

/--
A file, whether it still has a name or not. The lock on it is that of the operating system.
-/
structure BusyFile where
  modified : Nat
  contents : List UInt8
  lockedBy : Option Nat
  deriving DecidableEq

inductive Refusal where
  | busy
  | failed
  deriving DecidableEq, Repr

/--
What came out of taking the lock: the guard, nothing because another program has it, or an error.
-/
inductive TakeResult where
  | taken
  | refused (refusal : Refusal)
  deriving DecidableEq, Repr

/--
The system call that a taker makes next, with the file that it has open. The files that it creates and the
ones that it finds go through stages of their own.
-/
inductive Stage where
  | idle
  | create (attempts : Nat)
  | lockNew (file : Nat)
  | writeNew (file : Nat)
  | handleNew (file : Nat)
  | removeNew (file : Nat)
  | openOld (attempts : Nat)
  | inspect (file : Nat)
  | lockOld (file : Nat)
  | inspectAgain (file : Nat)
  | writeOld (file : Nat)
  | handleOld (file : Nat)
  | compare (file : Nat)
  | held (file : Nat)
  | release (file : Nat)
  | remove (file : Nat)
  | close (file : Nat) (refusal : Option Refusal)
  deriving DecidableEq, Repr

namespace Stage

def file? (stage : Stage) : Option Nat :=
  match stage with
  | idle | create _ | openOld _ => none
  | lockNew file | writeNew file | handleNew file | removeNew file | inspect file | lockOld file | inspectAgain file
  | writeOld file | handleOld file | compare file | held file | release file | remove file | close file _ => some file

/--
The file that a taker has made, or has found under the name while it had it locked.
-/
def kept? (stage : Stage) : Option Nat :=
  match stage with
  | lockNew file | writeNew file | handleNew file | removeNew file | held file | release file | remove file => some file
  | _ => none

def locked? (stage : Stage) : Option Nat :=
  match stage with
  | writeNew file | handleNew file | removeNew file | inspectAgain file | writeOld file | handleOld file | compare file
  | held file | release file | remove file | close file _ => some file
  | _ => none

/--
The file that bears the owner record of the taker.
-/
def signed? (stage : Stage) : Option Nat :=
  match stage with
  | handleNew file | handleOld file | compare file | held file | release file | remove file => some file
  | _ => none

end Stage

structure State where
  now : Nat
  path : Option Nat
  files : Nat → BusyFile
  next : Nat
  stage : Nat → Stage

/--
What a system call meets with: it may fail, and a write that fails may have been done in part.
-/
structure Luck where
  failed : Bool
  written : Option Nat

def fine : Luck := ⟨false, none⟩

namespace State

def goTo (s : State) (t : Nat) (stage : Stage) : State := { s with stage := Function.update s.stage t stage }

def amend (s : State) (file : Nat) (change : BusyFile → BusyFile) : State :=
  { s with files := Function.update s.files file (change (s.files file)) }

def lock (s : State) (t file : Nat) : State := s.amend file ({ · with lockedBy := some t })

def unlock (s : State) (t file : Nat) : State :=
  if (s.files file).lockedBy = some t then s.amend file ({ · with lockedBy := none }) else s

def write (s : State) (file : Nat) (contents : List UInt8) : State :=
  s.amend file ({ · with modified := s.now, contents })

/--
The owner record, of which a failing write may have written a part. Nothing is changed where the file
could not even be made empty.
-/
def writePart (s : State) (file : Nat) (contents : List UInt8) (written : Option Nat) : State :=
  match written with
  | none => s
  | some n => s.write file (contents.take n)

def create (s : State) (contents : List UInt8) : State :=
  { s with
    path := some s.next
    files := Function.update s.files s.next ⟨s.now, contents, none⟩
    next := s.next + 1 }

def removePath (s : State) (luck : Luck) : State := if luck.failed then s else { s with path := none }

/--
A file from the future is not stale.
-/
def isStale (s : State) (staleAfter file : Nat) : Bool :=
  (s.files file).modified ≤ s.now ∧ staleAfter ≤ s.now - (s.files file).modified

end State

section

variable (staleAfter : Nat) (owner : Nat → List UInt8)

/--
The next system call of a taker.
-/
def call (s : State) (t : Nat) (luck : Luck) : Option TakeResult × State :=
  match s.stage t with
  | .idle | .held _ => (none, s)
  | .create attempts =>
    if luck.failed then
      (some (.refused .failed), s.goTo t .idle)
    else
      match s.path with
      | some _ => (none, s.goTo t (.openOld attempts))
      | none => (none, (s.create []).goTo t (.lockNew s.next))
  | .lockNew file =>
    -- A new file that someone else has locked is an error as well.
    if luck.failed ∨ (s.files file).lockedBy ≠ none then
      (some (.refused .failed), s.goTo t .idle)
    else
      (none, (s.lock t file).goTo t (.writeNew file))
  | .writeNew file =>
    if luck.failed then
      (none, (s.writePart file (owner t) luck.written).goTo t (.removeNew file))
    else
      (none, (s.write file (owner t)).goTo t (.handleNew file))
  | .removeNew file => (none, (s.removePath luck).goTo t (.close file (some .failed)))
  | .handleNew file =>
    if luck.failed then
      (none, s.goTo t (.close file (some .failed)))
    else
      (some .taken, s.goTo t (.held file))
  | .openOld attempts =>
    if luck.failed then
      (some (.refused .failed), s.goTo t .idle)
    else
      match s.path, attempts with
      | some file, _ => (none, s.goTo t (.inspect file))
      | none, attempts + 1 => (none, s.goTo t (.create attempts))
      | none, 0 => (some (.refused .busy), s.goTo t .idle)
  | .inspect file =>
    if luck.failed then
      (some (.refused .failed), s.goTo t .idle)
    else if s.isStale staleAfter file then
      (none, s.goTo t (.lockOld file))
    else
      (some (.refused .busy), s.goTo t .idle)
  | .lockOld file =>
    if luck.failed then
      (some (.refused .failed), s.goTo t .idle)
    else if (s.files file).lockedBy ≠ none then
      (some (.refused .busy), s.goTo t .idle)
    else
      (none, (s.lock t file).goTo t (.inspectAgain file))
  | .inspectAgain file =>
    if luck.failed then
      (none, s.goTo t (.close file (some .failed)))
    else if s.isStale staleAfter file then
      (none, s.goTo t (.writeOld file))
    else
      (none, s.goTo t (.close file (some .busy)))
  | .writeOld file =>
    if luck.failed then
      (none, (s.writePart file (owner t) luck.written).goTo t (.close file (some .failed)))
    else
      (none, (s.write file (owner t)).goTo t (.handleOld file))
  | .handleOld file =>
    if luck.failed then
      (none, s.goTo t (.close file (some .failed)))
    else
      (none, s.goTo t (.compare file))
  | .compare file =>
    if luck.failed ∨ s.path ≠ some file then
      (none, s.goTo t (.close file (some .busy)))
    else
      (some .taken, s.goTo t (.held file))
  | .release file =>
    if luck.failed ∨ s.path ≠ some file then
      (none, s.goTo t (.close file none))
    else
      (none, s.goTo t (.remove file))
  | .remove file => (none, (s.removePath luck).goTo t (.close file none))
  | .close file refusal => (refusal.map .refused, (s.unlock t file).goTo t .idle)

/--
What happens next. The clock may be set to any time. The other programs know the lock by the name of its file
only.
-/
inductive Event where
  | take (t : Nat)
  | call (t : Nat) (luck : Luck)
  | drop (t : Nat)
  | crash (t : Nat)
  | clock (now : Nat)
  | createOther (contents : List UInt8)
  | removeOther

def step (s : State) (e : Event) : Option TakeResult × State :=
  match e with
  | .take t => (none, if s.stage t = .idle then s.goTo t (.create 3) else s)
  | .call t luck => call staleAfter owner s t luck
  | .drop t =>
    match s.stage t with
    | .held file => (none, s.goTo t (.release file))
    | _ => (none, s)
  | .crash t =>
    match (s.stage t).file? with
    | some file => (none, (s.unlock t file).goTo t .idle)
    | none => (none, s.goTo t .idle)
  | .clock now => (none, { s with now })
  | .createOther contents => (none, if s.path = none then s.create contents else s)
  | .removeOther => (none, { s with path := none })

def machine : Machine State Event (Option TakeResult) where
  init := ⟨0, none, fun _ => ⟨0, [], none⟩, 0, fun _ => .idle⟩
  step := step staleAfter owner

end

/--
No file is so old that it is locked as stale before its maker has locked it, and the other programs do not remove
the file that a taker has made or has found under the name.
-/
def Orderly (s : State) (e : Event) : Prop :=
  match e with
  | .call t _ => ∀ file, s.stage t = .lockOld file → ∀ t', s.stage t' ≠ .lockNew file
  | .removeOther => ∀ t, (s.stage t).kept? = none
  | _ => True

/--
What one call of a taker can do. A file that it has locked stays with it until it closes it.
-/
inductive Move (owner : Nat → List UInt8) (s : State) (t : Nat) : State → Prop where
  | stays : Move owner s t s
  | leaves (stage : Stage) (hfree : (s.stage t).locked? = none) (hkept : stage.kept? = none)
      (hlocked : stage.locked? = none)
      (hknown : ∀ file, stage.file? = some file → (s.stage t).file? = some file ∨ s.path = some file)
      : Move owner s t (s.goTo t stage)
  | makes (hfree : (s.stage t).locked? = none) (hpath : s.path = none)
      : Move owner s t ((s.create []).goTo t (.lockNew s.next))
  | locks (file : Nat) (stage : Stage)
      (hfile : s.stage t = .lockNew file ∧ stage = .writeNew file ∨
        s.stage t = .lockOld file ∧ stage = .inspectAgain file)
      (hnone : (s.files file).lockedBy = none)
      : Move owner s t ((s.lock t file).goTo t stage)
  | onward (file : Nat) (stage : Stage) (hlocked : (s.stage t).locked? = some file) (hsame : stage.locked? = some file)
      (hkept : stage.kept? = none ∨ (s.stage t).kept? = some file ∨ s.path = some file)
      (hsigned : stage.signed? = none ∨ (s.stage t).signed? = some file)
      : Move owner s t (s.goTo t stage)
  | writes (file : Nat) (contents : List UInt8) (stage : Stage) (hlocked : (s.stage t).locked? = some file)
      (hsame : stage.locked? = some file) (hkept : stage.kept? = none ∨ (s.stage t).kept? = some file)
      (hsigned : stage.signed? = none ∨ contents = owner t)
      : Move owner s t ((s.write file contents).goTo t stage)
  | removes (file : Nat) (refusal : Option Refusal) (hlocked : (s.stage t).locked? = some file)
      (hkept : (s.stage t).kept? = some file)
      : Move owner s t ({ s with path := none }.goTo t (.close file refusal))
  | closes (file : Nat) (hlocked : ∀ file', (s.stage t).locked? = some file' → file' = file)
      : Move owner s t ((s.unlock t file).goTo t .idle)

/--
What holds between any two events.
-/
structure Inv (owner : Nat → List UInt8) (s : State) : Prop where
  kept : ∀ t file, (s.stage t).kept? = some file → s.path = some file
  locked : ∀ t file, (s.stage t).locked? = some file → (s.files file).lockedBy = some t
  unlocked : ∀ t file, s.stage t = .lockNew file → (s.files file).lockedBy = none
  maker : ∀ t t' file, s.stage t = .lockNew file → s.stage t' = .lockNew file → t = t'
  signed : ∀ t file, (s.stage t).signed? = some file → (s.files file).contents = owner t
  known : ∀ t file, (s.stage t).file? = some file → file < s.next
  named : ∀ file, s.path = some file → file < s.next

variable {staleAfter : Nat} {owner : Nat → List UInt8} {s : State} {t t' file n : Nat} {stage : Stage}

@[simp]
theorem stage_goTo : (s.goTo t stage).stage t' = if t' = t then stage else s.stage t' := by
  unfold State.goTo
  exact Function.update_apply s.stage t stage t'

@[simp]
theorem files_goTo : (s.goTo t stage).files = s.files := rfl

@[simp]
theorem goTo_goTo {stage' : Stage} : (s.goTo t stage).goTo t stage' = s.goTo t stage' := by
  unfold State.goTo
  rw [Function.update_idem]

theorem unlock_goTo : (s.unlock t file).goTo t stage = (s.goTo t stage).unlock t file := by
  unfold State.unlock
  rw [files_goTo]
  split
  . rfl
  . rfl

theorem locked_of_signed (h : stage.signed? = some file) : stage.locked? = some file := by
  cases stage <;> simp_all [Stage.signed?, Stage.locked?]

theorem file_of_locked (h : stage.locked? = some file) : stage.file? = some file := by
  cases stage <;> simp_all [Stage.locked?, Stage.file?]

theorem locked_of_kept (h : stage.kept? = some file) : stage = .lockNew file ∨ stage.locked? = some file := by
  cases stage <;> simp_all [Stage.kept?, Stage.locked?]

theorem files_amend_self {change : BusyFile → BusyFile} : (s.amend file change).files file = change (s.files file) :=
  Function.update_self _ _ _

theorem files_amend_ne {change : BusyFile → BusyFile} {file' : Nat} (h : file' ≠ file)
    : (s.amend file change).files file' = s.files file' := Function.update_of_ne h _ _

theorem contents_amend {change : BusyFile → BusyFile} (h : (change (s.files file)).contents = (s.files file).contents)
    (file' : Nat)
    : ((s.amend file change).files file').contents = (s.files file').contents := by
  by_cases heq : file' = file
  . subst heq
    rw [files_amend_self, h]
  . rw [files_amend_ne heq]

theorem lockedBy_amend {change : BusyFile → BusyFile} (h : (change (s.files file)).lockedBy = (s.files file).lockedBy)
    (file' : Nat)
    : ((s.amend file change).files file').lockedBy = (s.files file').lockedBy := by
  by_cases heq : file' = file
  . subst heq
    rw [files_amend_self, h]
  . rw [files_amend_ne heq]

theorem files_create_self {contents : List UInt8} : (s.create contents).files s.next = ⟨s.now, contents, none⟩ :=
  Function.update_self _ _ _

theorem files_create_ne {contents : List UInt8} (h : file ≠ s.next) : (s.create contents).files file = s.files file :=
  Function.update_of_ne h _ _

theorem files_create_of_lt {contents : List UInt8} (h : file < s.next)
    : (s.create contents).files file = s.files file :=
  files_create_ne (Nat.ne_of_lt h)

theorem Move.idle (h : (s.stage t).locked? = none) : Move owner s t (s.goTo t .idle) := by
  apply Move.leaves .idle h rfl rfl
  intro file hfile
  cases hfile

theorem call_move (s : State) (t : Nat) (luck : Luck) : Move owner s t (call staleAfter owner s t luck).2 := by
  unfold call
  cases hs : s.stage t with
  | idle => exact .stays
  | held file => exact .stays
  | create attempts =>
    have hfree : (s.stage t).locked? = none := congrArg Stage.locked? hs
    dsimp only
    split
    . exact .idle hfree
    . split
      . apply Move.leaves _ hfree rfl rfl
        intro file hfile
        cases hfile
      . next hpath => exact .makes hfree hpath
  | lockNew file =>
    dsimp only
    split
    . exact .idle (congrArg Stage.locked? hs)
    . next hfine => exact .locks file _ (.inl ⟨hs, rfl⟩) (not_not.mp (not_or.mp hfine).2)
  | writeNew file =>
    have hlocked : (s.stage t).locked? = some file := congrArg Stage.locked? hs
    have hkept : (s.stage t).kept? = some file := congrArg Stage.kept? hs
    dsimp only
    split
    . cases luck.written with
      | none => exact .onward file _ hlocked rfl (.inr (.inl hkept)) (.inl rfl)
      | some n => exact .writes file _ _ hlocked rfl (.inr hkept) (.inl rfl)
    . exact .writes file _ _ hlocked rfl (.inr hkept) (.inr rfl)
  | handleNew file =>
    have hlocked : (s.stage t).locked? = some file := congrArg Stage.locked? hs
    dsimp only
    split
    . exact .onward file _ hlocked rfl (.inl rfl) (.inl rfl)
    . exact .onward file _ hlocked rfl (.inr (.inl (congrArg Stage.kept? hs))) (.inr (congrArg Stage.signed? hs))
  | removeNew file =>
    have hlocked : (s.stage t).locked? = some file := congrArg Stage.locked? hs
    dsimp only [State.removePath]
    split
    . exact .onward file _ hlocked rfl (.inl rfl) (.inl rfl)
    . exact .removes file _ hlocked (congrArg Stage.kept? hs)
  | openOld attempts =>
    have hfree : (s.stage t).locked? = none := congrArg Stage.locked? hs
    dsimp only
    split
    . exact .idle hfree
    . split
      . next hpath =>
        apply Move.leaves _ hfree rfl rfl
        intro file hfile
        cases hfile
        exact .inr hpath
      . apply Move.leaves _ hfree rfl rfl
        intro file hfile
        cases hfile
      . exact .idle hfree
  | inspect file =>
    have hfree : (s.stage t).locked? = none := congrArg Stage.locked? hs
    dsimp only
    split
    . exact .idle hfree
    . split
      . apply Move.leaves _ hfree rfl rfl
        intro file' hfile
        cases hfile
        exact .inl (congrArg Stage.file? hs)
      . exact .idle hfree
  | lockOld file =>
    have hfree : (s.stage t).locked? = none := congrArg Stage.locked? hs
    dsimp only
    split
    . exact .idle hfree
    . split
      . exact .idle hfree
      . next hnone => exact .locks file _ (.inr ⟨hs, rfl⟩) (not_not.mp hnone)
  | inspectAgain file =>
    have hlocked : (s.stage t).locked? = some file := congrArg Stage.locked? hs
    dsimp only
    split
    . exact .onward file _ hlocked rfl (.inl rfl) (.inl rfl)
    . split
      . exact .onward file _ hlocked rfl (.inl rfl) (.inl rfl)
      . exact .onward file _ hlocked rfl (.inl rfl) (.inl rfl)
  | writeOld file =>
    have hlocked : (s.stage t).locked? = some file := congrArg Stage.locked? hs
    dsimp only
    split
    . cases luck.written with
      | none => exact .onward file _ hlocked rfl (.inl rfl) (.inl rfl)
      | some n => exact .writes file _ _ hlocked rfl (.inl rfl) (.inl rfl)
    . exact .writes file _ _ hlocked rfl (.inl rfl) (.inr rfl)
  | handleOld file =>
    have hlocked : (s.stage t).locked? = some file := congrArg Stage.locked? hs
    dsimp only
    split
    . exact .onward file _ hlocked rfl (.inl rfl) (.inl rfl)
    . exact .onward file _ hlocked rfl (.inl rfl) (.inr (congrArg Stage.signed? hs))
  | compare file =>
    have hlocked : (s.stage t).locked? = some file := congrArg Stage.locked? hs
    dsimp only
    split
    . exact .onward file _ hlocked rfl (.inl rfl) (.inl rfl)
    . next hsame =>
      -- The name is compared while the file is locked, so no other taker can have put another file there.
      exact .onward file _ hlocked rfl (.inr (.inr (not_not.mp (not_or.mp hsame).2)))
        (.inr (congrArg Stage.signed? hs))
  | release file =>
    have hlocked : (s.stage t).locked? = some file := congrArg Stage.locked? hs
    dsimp only
    split
    . exact .onward file _ hlocked rfl (.inl rfl) (.inl rfl)
    . exact .onward file _ hlocked rfl (.inr (.inl (congrArg Stage.kept? hs))) (.inr (congrArg Stage.signed? hs))
  | remove file =>
    have hlocked : (s.stage t).locked? = some file := congrArg Stage.locked? hs
    dsimp only [State.removePath]
    split
    . exact .onward file _ hlocked rfl (.inl rfl) (.inl rfl)
    . exact .removes file _ hlocked (congrArg Stage.kept? hs)
  | close file refusal =>
    apply Move.closes file
    intro file' hlocked
    rw [hs] at hlocked
    cases hlocked
    rfl

namespace Inv

theorem eq_of_kept (h : Inv owner s) (hkept : (s.stage t).kept?.isSome) (hkept' : (s.stage t').kept?.isSome)
    : t = t' := by
  -- One taker at most has made the file under the name or has found it there.
  obtain ⟨file, hfile⟩ := Option.isSome_iff_exists.mp hkept
  obtain ⟨file', hfile'⟩ := Option.isSome_iff_exists.mp hkept'
  have heq : file = file' := Option.some.inj ((h.kept t file hfile).symm.trans (h.kept t' file' hfile'))
  subst heq
  rcases locked_of_kept hfile with hnew | hlocked
  . rcases locked_of_kept hfile' with hnew' | hlocked'
    . exact h.maker t t' file hnew hnew'
    . have := (h.unlocked t file hnew).symm.trans (h.locked t' file hlocked')
      cases this
  . rcases locked_of_kept hfile' with hnew' | hlocked'
    . have := (h.unlocked t' file hnew').symm.trans (h.locked t file hlocked)
      cases this
    . exact Option.some.inj ((h.locked t file hlocked).symm.trans (h.locked t' file hlocked'))

theorem eq_of_locked (h : Inv owner s) (hlocked : (s.stage t).locked? = some file)
    (hlocked' : (s.stage t').locked? = some file)
    : t = t' :=
  Option.some.inj ((h.locked t file hlocked).symm.trans (h.locked t' file hlocked'))

theorem goTo (h : Inv owner s) (hkept : ∀ file, stage.kept? = some file → s.path = some file)
    (hlocked : ∀ file, stage.locked? = some file → (s.files file).lockedBy = some t)
    (hnew : ∀ file, stage = .lockNew file →
      (s.files file).lockedBy = none ∧ ∀ t', s.stage t' = .lockNew file → t' = t)
    (hsigned : ∀ file, stage.signed? = some file → (s.files file).contents = owner t)
    (hknown : ∀ file, stage.file? = some file → file < s.next)
    : Inv owner (s.goTo t stage) where
  kept t' file := by
    rw [stage_goTo]
    split
    . exact hkept file
    . exact h.kept t' file
  locked t' file := by
    rw [stage_goTo]
    split
    . next heq =>
      subst heq
      exact hlocked file
    . exact h.locked t' file
  unlocked t' file := by
    rw [stage_goTo]
    split
    . exact fun heq => (hnew file heq).1
    . exact h.unlocked t' file
  maker t' t'' file := by
    rw [stage_goTo, stage_goTo]
    intro ht' ht''
    split at ht'
    . next heq =>
      split at ht''
      . next heq' => rw [heq, heq']
      . rw [heq, (hnew file ht').2 t'' ht'']
    . split at ht''
      . next heq' => rw [heq', (hnew file ht'').2 t' ht']
      . exact h.maker t' t'' file ht' ht''
  signed t' file := by
    rw [stage_goTo]
    split
    . next heq =>
      subst heq
      exact hsigned file
    . exact h.signed t' file
  known t' file := by
    rw [stage_goTo]
    split
    . exact hknown file
    . exact h.known t' file
  named := h.named

theorem unbound (h : Inv owner s) (hkept : stage.kept? = none) (hlocked : stage.locked? = none)
    (hknown : ∀ file, stage.file? = some file → file < s.next)
    : Inv owner (s.goTo t stage) := by
  apply h.goTo
  . intro file hfile
    cases hkept.symm.trans hfile
  . intro file hfile
    cases hlocked.symm.trans hfile
  . intro file hfile
    rw [hfile] at hkept
    cases hkept
  . intro file hfile
    cases hlocked.symm.trans (locked_of_signed hfile)
  . exact hknown

theorem idle (h : Inv owner s) (t : Nat) : Inv owner (s.goTo t .idle) := by
  apply h.unbound rfl rfl
  intro file hfile
  cases hfile

theorem onward (h : Inv owner s) (hlocked : (s.stage t).locked? = some file) (hsame : stage.locked? = some file)
    (hkept : stage.kept? = none ∨ s.path = some file)
    (hsigned : stage.signed? = none ∨ (s.files file).contents = owner t)
    : Inv owner (s.goTo t stage) := by
  have heq : ∀ {file'}, stage.locked? = some file' → file' = file := by
    intro file' hfile
    exact Option.some.inj (hfile.symm.trans hsame)
  have hnew : ∀ {file'}, stage ≠ .lockNew file' := by
    intro file' hfile
    rw [hfile] at hsame
    cases hsame
  apply h.goTo
  . intro file' hfile
    rcases locked_of_kept hfile with hlock | hsome
    . exact absurd hlock hnew
    . cases heq hsome
      exact hkept.resolve_left (by simp [hfile])
  . intro file' hfile
    cases heq hfile
    exact h.locked t file hlocked
  . intro file' hfile
    exact absurd hfile hnew
  . intro file' hfile
    cases heq (locked_of_signed hfile)
    exact hsigned.resolve_left (by simp [hfile])
  . intro file' hfile
    cases Option.some.inj ((file_of_locked hsame).symm.trans hfile)
    exact h.known t file (file_of_locked hlocked)

theorem lock (h : Inv owner s) (hnone : (s.files file).lockedBy = none) (hnew : ∀ t', s.stage t' ≠ .lockNew file)
    : Inv owner (s.lock t file) where
  kept := h.kept
  locked t' file' hlocked := by
    have hne : file' ≠ file := by
      intro heq
      subst heq
      cases hnone.symm.trans (h.locked t' file' hlocked)
    rw [State.lock, files_amend_ne hne]
    exact h.locked t' file' hlocked
  unlocked t' file' hfile := by
    have hne : file' ≠ file := by
      intro heq
      subst heq
      exact hnew t' hfile
    rw [State.lock, files_amend_ne hne]
    exact h.unlocked t' file' hfile
  maker := h.maker
  signed t' file' hsigned := by
    rw [State.lock, contents_amend (by rfl)]
    exact h.signed t' file' hsigned
  known := h.known
  named := h.named

theorem unlock (h : Inv owner s) (hidle : s.stage t = .idle) : Inv owner (s.unlock t file) := by
  unfold State.unlock
  split
  . next hmine =>
    constructor
    . exact h.kept
    . intro t' file' (hlocked : (s.stage t').locked? = some file')
      have hne : file' ≠ file := by
        intro heq
        subst heq
        have heq : t' = t := Option.some.inj ((h.locked t' file' hlocked).symm.trans hmine)
        rw [heq, hidle] at hlocked
        cases hlocked
      rw [files_amend_ne hne]
      exact h.locked t' file' hlocked
    . intro t' file' hfile
      by_cases heq : file' = file
      . subst heq
        cases (h.unlocked t' file' hfile).symm.trans hmine
      . rw [files_amend_ne heq]
        exact h.unlocked t' file' hfile
    . exact h.maker
    . intro t' file' hsigned
      rw [contents_amend (by rfl)]
      exact h.signed t' file' hsigned
    . exact h.known
    . exact h.named
  . exact h

theorem write (h : Inv owner s) (hothers : ∀ t', (s.stage t').locked? ≠ some file) (contents : List UInt8)
    : Inv owner (s.write file contents) where
  kept := h.kept
  locked t' file' hlocked := by
    rw [State.write, lockedBy_amend (by rfl)]
    exact h.locked t' file' hlocked
  unlocked t' file' hfile := by
    rw [State.write, lockedBy_amend (by rfl)]
    exact h.unlocked t' file' hfile
  maker := h.maker
  signed t' file' hsigned := by
    have hne : file' ≠ file := by
      intro heq
      subst heq
      exact hothers t' (locked_of_signed hsigned)
    rw [State.write, files_amend_ne hne]
    exact h.signed t' file' hsigned
  known := h.known
  named := h.named

theorem nameless (h : Inv owner s) (hothers : ∀ t', (s.stage t').kept? = none)
    : Inv owner { s with path := none } where
  kept t' file hkept := by
    cases (hothers t').symm.trans hkept
  locked := h.locked
  unlocked := h.unlocked
  maker := h.maker
  signed := h.signed
  known := h.known
  named file hpath := by
    cases hpath

theorem create (h : Inv owner s) (hpath : s.path = none) (contents : List UInt8) : Inv owner (s.create contents) where
  kept t' file hkept := by
  -- A new file is one that no taker has open.
    cases hpath.symm.trans (h.kept t' file hkept)
  locked t' file hlocked := by
    rw [files_create_of_lt (h.known t' file (file_of_locked hlocked))]
    exact h.locked t' file hlocked
  unlocked t' file hfile := by
    have hopen : (s.stage t').file? = some file := congrArg Stage.file? hfile
    rw [files_create_of_lt (h.known t' file hopen)]
    exact h.unlocked t' file hfile
  maker := h.maker
  signed t' file hsigned := by
    rw [files_create_of_lt (h.known t' file (file_of_locked (locked_of_signed hsigned)))]
    exact h.signed t' file hsigned
  known t' file hfile := Nat.lt_succ_of_lt (h.known t' file hfile)
  named file hfile := by
    cases hfile
    exact Nat.lt_succ_self _

theorem locking (h : Inv owner s) (hknown : file < s.next) (hnone : (s.files file).lockedBy = none)
    (hnew : ∀ t', s.stage t' = .lockNew file → t' = t) (hsame : stage.locked? = some file)
    (hkept : stage.kept? = none ∨ s.path = some file) (hsigned : stage.signed? = none)
    : Inv owner ((s.lock t file).goTo t stage) := by
  -- The lock of the operating system, for a taker at the file that it has made or found.
  have hfree : ∀ t', (s.goTo t .idle).stage t' ≠ .lockNew file := by
    intro t' heq
    rw [stage_goTo] at heq
    split at heq
    . cases heq
    . next hne => exact hne (hnew t' heq)
  have hlock : Inv owner ((s.lock t file).goTo t .idle) := (h.idle t).lock hnone hfree
  have hmine : ((s.lock t file).files file).lockedBy = some t := by rw [State.lock, files_amend_self]
  rw [← goTo_goTo]
  apply hlock.goTo
  . intro file' hfile
    rcases locked_of_kept hfile with hlock | hsome
    . rw [hlock] at hsame
      cases hsame
    . cases Option.some.inj (hsome.symm.trans hsame)
      exact hkept.resolve_left (by simp [hfile])
  . intro file' hfile
    cases Option.some.inj (hfile.symm.trans hsame)
    exact hmine
  . intro file' hfile
    rw [hfile] at hsame
    cases hsame
  . intro file' hfile
    cases hsigned.symm.trans hfile
  . intro file' hfile
    cases Option.some.inj (hfile.symm.trans (file_of_locked hsame))
    exact hknown

theorem writing (h : Inv owner s) (hlocked : (s.stage t).locked? = some file) (hsame : stage.locked? = some file)
    (hkept : stage.kept? = none ∨ s.path = some file) {contents : List UInt8}
    (hsigned : stage.signed? = none ∨ contents = owner t)
    : Inv owner ((s.write file contents).goTo t stage) := by
  have hothers : ∀ t', ((s.goTo t .idle).stage t').locked? ≠ some file := by
    intro t' hlocked'
    rw [stage_goTo] at hlocked'
    split at hlocked'
    . cases hlocked'
    . next hne => exact hne (h.eq_of_locked hlocked' hlocked)
  have hwrite : Inv owner ((s.write file contents).goTo t .idle) := (h.idle t).write hothers contents
  rw [← goTo_goTo]
  apply hwrite.goTo
  . intro file' hfile
    rcases locked_of_kept hfile with hlock | hsome
    . rw [hlock] at hsame
      cases hsame
    . cases Option.some.inj (hsome.symm.trans hsame)
      exact hkept.resolve_left (by simp [hfile])
  . intro file' hfile
    cases Option.some.inj (hfile.symm.trans hsame)
    rw [files_goTo, State.write, lockedBy_amend rfl]
    exact h.locked t file hlocked
  . intro file' hfile
    rw [hfile] at hsame
    cases hsame
  . intro file' hfile
    cases Option.some.inj ((locked_of_signed hfile).symm.trans hsame)
    rw [files_goTo, State.write, files_amend_self]
    exact hsigned.resolve_left (by simp [hfile])
  . intro file' hfile
    cases Option.some.inj (hfile.symm.trans (file_of_locked hsame))
    exact h.known t file (file_of_locked hlocked)

theorem removing (h : Inv owner s) (hkept : (s.stage t).kept? = some file) (hlocked : (s.stage t).locked? = some file)
    (refusal : Option Refusal)
    : Inv owner ({ s with path := none }.goTo t (.close file refusal)) := by
  -- The name is removed by the one taker that may do so.
  have hothers : ∀ t', ((s.goTo t .idle).stage t').kept? = none := by
    intro t'
    rw [stage_goTo]
    split
    . rfl
    . next hne =>
      cases hsome : (s.stage t').kept? with
      | none => rfl
      | some file' => exact absurd (h.eq_of_kept (by rw [hsome]; rfl) (by rw [hkept]; rfl)) hne
  have hremove : Inv owner ({ s with path := none }.goTo t .idle) := (h.idle t).nameless hothers
  rw [← goTo_goTo]
  apply hremove.goTo
  . intro file' hfile
    cases hfile
  . intro file' hfile
    cases hfile
    exact h.locked t file hlocked
  . intro file' hfile
    cases hfile
  . intro file' hfile
    cases hfile
  . intro file' hfile
    cases hfile
    exact h.known t file (file_of_locked hlocked)

theorem closing (h : Inv owner s) (t file : Nat) : Inv owner ((s.unlock t file).goTo t .idle) := by
  rw [unlock_goTo]
  apply (h.idle t).unlock
  rw [stage_goTo, if_pos rfl]

theorem making (h : Inv owner s) (hpath : s.path = none) : Inv owner ((s.create []).goTo t (.lockNew s.next)) := by
  have hcreate := h.create hpath []
  apply hcreate.goTo
  . intro file hfile
    cases hfile
    rfl
  . intro file hfile
    cases hfile
  . intro file hfile
    cases hfile
    constructor
    . rw [files_create_self]
    . intro t' hnew
      have hopen : (s.stage t').file? = some s.next := congrArg Stage.file? hnew
      exact absurd (h.known t' s.next hopen) (Nat.lt_irrefl _)
  . intro file hfile
    cases hfile
  . intro file hfile
    cases hfile
    exact Nat.lt_succ_self _

theorem move {s' : State} (h : Inv owner s) (hmove : Move owner s t s')
    (hold : ∀ file, s.stage t = .lockOld file → ∀ t', s.stage t' ≠ .lockNew file)
    : Inv owner s' := by
  cases hmove with
  | stays => exact h
  | leaves stage hfree hkept hlocked hknown =>
    apply h.unbound hkept hlocked
    intro file hfile
    rcases hknown file hfile with hopen | hpath
    . exact h.known t file hopen
    . exact h.named file hpath
  | makes hfree hpath => exact h.making hpath
  | locks file stage hfile hnone =>
    rcases hfile with ⟨hs, rfl⟩ | ⟨hs, rfl⟩
    . have hknown : file < s.next := h.known t file (congrArg Stage.file? hs)
      have hpath : s.path = some file := h.kept t file (congrArg Stage.kept? hs)
      exact h.locking hknown hnone (fun t' hnew => h.maker t' t file hnew hs) rfl (.inr hpath) rfl
    . have hknown : file < s.next := h.known t file (congrArg Stage.file? hs)
      exact h.locking hknown hnone (fun t' hnew => absurd hnew (hold file hs t')) rfl (.inl rfl) rfl
  | onward file stage hlocked hsame hkept hsigned =>
    apply h.onward hlocked hsame
    . rcases hkept with hnone | hkept | hpath
      . exact .inl hnone
      . exact .inr (h.kept t file hkept)
      . exact .inr hpath
    . exact hsigned.imp_right (h.signed t file)
  | writes file contents stage hlocked hsame hkept hsigned =>
    exact h.writing hlocked hsame (hkept.imp_right (h.kept t file)) hsigned
  | removes file refusal hlocked hkept => exact h.removing hkept hlocked refusal
  | closes file hlocked => exact h.closing t file

theorem step (h : Inv owner s) {e : Event} (horderly : Orderly s e)
    : Inv owner (BusyLock.step staleAfter owner s e).2 := by
  cases e with
  | take t =>
    dsimp only [BusyLock.step]
    split
    . apply h.unbound rfl rfl
      intro file hfile
      cases hfile
    . exact h
  | call t luck => exact h.move (call_move s t luck) horderly
  | drop t =>
    dsimp only [BusyLock.step]
    split
    . next file hs =>
      have hpath : s.path = some file := h.kept t file (congrArg Stage.kept? hs)
      have hsigned : (s.files file).contents = owner t := h.signed t file (congrArg Stage.signed? hs)
      exact h.onward (congrArg Stage.locked? hs) rfl (.inr hpath) (.inr hsigned)
    . exact h
  | crash t =>
    dsimp only [BusyLock.step]
    split
    . next file _ => exact h.closing t file
    . exact h.idle t
  | clock now => exact ⟨h.kept, h.locked, h.unlocked, h.maker, h.signed, h.known, h.named⟩
  | createOther contents =>
    dsimp only [BusyLock.step]
    split
    . next hpath => exact h.create hpath contents
    . exact h
  | removeOther => exact h.nameless horderly

theorem start : Inv owner (machine staleAfter owner).init := by
  constructor
  . intro t file hfile
    cases hfile
  . intro t file hfile
    cases hfile
  . intro t file hfile
    cases hfile
  . intro t t' file hfile
    cases hfile
  . intro t file hfile
    cases hfile
  . intro t file hfile
    cases hfile
  . intro file hfile
    cases hfile

end Inv

theorem stage_unlock : (s.unlock t file).stage = s.stage := by
  unfold State.unlock
  split
  . rfl
  . rfl

theorem stage_goTo_ne (h : t' ≠ t) : (s.goTo t stage).stage t' = s.stage t' := by
  rw [stage_goTo, if_neg h]

theorem stage_move_ne {s' : State} (h : Move owner s t s') (hne : t' ≠ t) : s'.stage t' = s.stage t' := by
  cases h with
  | stays => rfl
  | leaves => exact stage_goTo_ne hne
  | makes => exact stage_goTo_ne hne
  | locks => exact stage_goTo_ne hne
  | onward => exact stage_goTo_ne hne
  | writes => exact stage_goTo_ne hne
  | removes => exact stage_goTo_ne hne
  | closes => exact (stage_goTo_ne hne).trans (congrFun stage_unlock t')

theorem stage_call_ne {luck : Luck} (h : t' ≠ t) : (call staleAfter owner s t luck).2.stage t' = s.stage t' :=
  stage_move_ne (call_move s t luck) h

theorem held_step {e : Event} (hs : s.stage t = .held file) (hdrop : e ≠ .drop t) (hcrash : e ≠ .crash t)
    : (step staleAfter owner s e).2.stage t = .held file := by
  -- A guard is given up by its own taker only.
  cases e with
  | take t' =>
    dsimp only [step]
    split
    . next hidle =>
      have hne : t ≠ t' := by
        intro heq
        rw [← heq, hs] at hidle
        cases hidle
      exact (stage_goTo_ne hne).trans hs
    . exact hs
  | call t' luck =>
    by_cases heq : t = t'
    . subst heq
      dsimp only [step]
      unfold call
      rw [hs]
      exact hs
    . exact (stage_call_ne heq).trans hs
  | drop t' =>
    have hne : t ≠ t' := by
      intro heq
      exact hdrop (by rw [heq])
    dsimp only [step]
    split
    . exact (stage_goTo_ne hne).trans hs
    . exact hs
  | crash t' =>
    have hne : t ≠ t' := by
      intro heq
      exact hcrash (by rw [heq])
    dsimp only [step]
    split
    . exact (stage_goTo_ne hne).trans ((congrFun stage_unlock t).trans hs)
    . exact (stage_goTo_ne hne).trans hs
  | clock now => exact hs
  | createOther contents =>
    dsimp only [step]
    split
    . exact hs
    . exact hs
  | removeOther => exact hs

theorem held_run {es : List Event} (hs : s.stage t = .held file) (hdrop : .drop t ∉ es) (hcrash : .crash t ∉ es)
    : ((machine staleAfter owner).run s es).stage t = .held file := by
  induction es generalizing s with
  | nil => exact hs
  | cons e es ih =>
    rw [List.mem_cons, not_or] at hdrop hcrash
    exact ih (held_step hs (Ne.symm hdrop.1) (Ne.symm hcrash.1)) hdrop.2 hcrash.2

theorem held_of_taken {luck : Luck} (h : (call staleAfter owner s t luck).1 = some .taken)
    : (∃ file, (call staleAfter owner s t luck).2.stage t = .held file) ∧ ∀ file, s.stage t ≠ .held file := by
  -- A taker is told that it has the lock when it moves to hold it.
  unfold call at h ⊢
  cases hs : s.stage t with
  | handleNew file =>
    rw [hs] at h
    dsimp only at h ⊢
    split at h
    . cases h
    . next hfine =>
      rw [if_neg hfine]
      constructor
      . exact ⟨file, by rw [stage_goTo, if_pos rfl]⟩
      . intro file' heq
        cases heq
  | compare file =>
    rw [hs] at h
    dsimp only at h ⊢
    split at h
    . cases h
    . next hfine =>
      rw [if_neg hfine]
      constructor
      . exact ⟨file, by rw [stage_goTo, if_pos rfl]⟩
      . intro file' heq
        cases heq
  | close file refusal =>
    rw [hs] at h
    cases refusal with
    | none => cases h
    | some refusal => cases h
  | _ =>
    rw [hs] at h
    dsimp only at h
    repeat' split at h
    all_goals cases h

theorem inv_run {es : List Event} (h : (machine staleAfter owner).Along Orderly (machine staleAfter owner).init es)
    : Inv owner ((machine staleAfter owner).run (machine staleAfter owner).init es) := by
  apply Machine.invariant_along Orderly (Inv owner) _ Inv.start h
  intro s e hs horderly
  exact hs.step horderly

/--
The taker is told so at the end of the run over the past.
-/
def Takes (staleAfter : Nat) (owner : Nat → List UInt8) (past : List Event) (t : Nat) (luck : Luck) : Prop :=
  (call staleAfter owner ((machine staleAfter owner).run (machine staleAfter owner).init past) t luck).1 = some .taken

theorem dropped_or_crashed {past middle : List Event} {luck luck' : Luck}
    (h : (machine staleAfter owner).Along Orderly (machine staleAfter owner).init
      (past ++ .call t luck :: (middle ++ [.call t' luck'])))
    (htakes : Takes staleAfter owner past t luck)
    (htakes' : Takes staleAfter owner (past ++ .call t luck :: middle) t' luck')
    : .drop t ∈ middle ∨ .crash t ∈ middle := by
  by_contra hneither
  rw [not_or] at hneither
  have hinv := inv_run h
  obtain ⟨⟨file, hfile⟩, -⟩ := held_of_taken htakes
  obtain ⟨⟨file', hfile'⟩, hnew⟩ := held_of_taken htakes'
  rw [Machine.run_append, Machine.run_cons, Machine.run_append] at hinv
  rw [Machine.run_append, Machine.run_cons] at hfile' hnew
  have hheld : ((machine staleAfter owner).run _ middle).stage t = .held file :=
    held_run hfile hneither.1 hneither.2
  have hne : t ≠ t' := by
    intro heq
    subst heq
    exact hnew file hheld
  -- Both would have the lock behind the second call.
  have hboth : (call staleAfter owner _ t' luck').2.stage t = .held file := (stage_call_ne hne).trans hheld
  apply hne
  apply hinv.eq_of_kept
  . exact Option.isSome_iff_exists.mpr ⟨file, congrArg Stage.kept? hboth⟩
  . exact Option.isSome_iff_exists.mpr ⟨file', congrArg Stage.kept? hfile'⟩

/--
No taker is told that it has the lock while another one has it. Whoever has it has the file under the name, with
the lock of the operating system and its own owner record, and removes no other file.
-/
theorem lock_is_exclusive (staleAfter : Nat) (owner : Nat → List UInt8) {es : List Event}
    (h : (machine staleAfter owner).Along Orderly (machine staleAfter owner).init es)
    : (∀ past middle after t t' luck luck', es = past ++ .call t luck :: (middle ++ .call t' luck' :: after) →
        Takes staleAfter owner past t luck → Takes staleAfter owner (past ++ .call t luck :: middle) t' luck' →
          .drop t ∈ middle ∨ .crash t ∈ middle) ∧
      let s := (machine staleAfter owner).run (machine staleAfter owner).init es
      (∀ t file, s.stage t = .held file →
        s.path = some file ∧ (s.files file).lockedBy = some t ∧ (s.files file).contents = owner t) ∧
        ∀ t file, s.stage t = .remove file ∨ s.stage t = .removeNew file →
          s.path = some file ∧ (s.files file).lockedBy = some t := by
  have hinv := inv_run h
  refine ⟨?_, ?_, ?_⟩
  . intro past middle after t t' luck luck' heq htakes htakes'
    subst heq
    have hsplit : past ++ .call t luck :: (middle ++ .call t' luck' :: after) =
        (past ++ .call t luck :: (middle ++ [.call t' luck'])) ++ after := by simp
    rw [hsplit, Machine.along_append] at h
    exact dropped_or_crashed h.1 htakes htakes'
  . intro t file hs
    exact ⟨hinv.kept t file (congrArg Stage.kept? hs), hinv.locked t file (congrArg Stage.locked? hs),
      hinv.signed t file (congrArg Stage.signed? hs)⟩
  . rintro t file (hs | hs)
    . exact ⟨hinv.kept t file (congrArg Stage.kept? hs), hinv.locked t file (congrArg Stage.locked? hs)⟩
    . exact ⟨hinv.kept t file (congrArg Stage.kept? hs), hinv.locked t file (congrArg Stage.locked? hs)⟩

namespace Handover

def own (t : Nat) : List UInt8 := [UInt8.ofNat t]

def calls (t n : Nat) : List Event := List.replicate n (.call t fine)

/--
A taker takes the lock and crashes, another one takes the stale file over and gives it back, and a third one makes
a new file.
-/
def events : List Event :=
  .take 0 :: calls 0 4 ++ .crash 0 :: .clock 3600 :: .take 1 :: calls 1 8 ++ .drop 1 :: calls 1 3 ++
    .take 2 :: calls 2 4

/--
A taker is held up between making its file and locking it, for so long that the file is taken from it.
-/
def overtaken : List Event :=
  .take 0 :: calls 0 1 ++ .clock 3600 :: .take 1 :: calls 1 8 ++ .drop 1 :: calls 1 3 ++ .take 2 :: calls 2 4 ++
    calls 0 3

theorem orderly_events : (machine 3600 own).Along Orderly (machine 3600 own).init events := by
  unfold events calls
  repeat' apply And.intro
  all_goals first
    | trivial
    | intro file hfile
      cases hfile
      try
        intro t hnew
        rcases t with _ | _ | t
        . cases hnew
        . cases hnew
        . cases hnew

end Handover

theorem lock_is_exclusive_handover
    : (∀ past middle after t t' luck luck',
        Handover.events = past ++ .call t luck :: (middle ++ .call t' luck' :: after) →
          Takes 3600 Handover.own past t luck → Takes 3600 Handover.own (past ++ .call t luck :: middle) t' luck' →
            .drop t ∈ middle ∨ .crash t ∈ middle) ∧
      let s := (machine 3600 Handover.own).run (machine 3600 Handover.own).init Handover.events
      s.path = some 1 ∧ (s.files 1).lockedBy = some 2 ∧ (s.files 1).contents = Handover.own 2 := by
  obtain ⟨hapart, hheld, -⟩ := lock_is_exclusive 3600 Handover.own Handover.orderly_events
  exact ⟨hapart, hheld 2 1 (by decide)⟩

/--
A taker that is held up after it has made its file gets the lock of a file without a name, while another one has
the lock of the node.
-/
theorem held_up_maker
    : let s := (machine 3600 Handover.own).run (machine 3600 Handover.own).init Handover.overtaken
      s.stage 0 = .held 0 ∧ s.stage 2 = .held 1 := by decide

end BusyLock

end Bso

end Tith
