import Tith.Bso.BusyLock

/-!
This module contains the proof that a crash blocks a node no longer than until its busy file is stale.
-/

namespace Tith

namespace Bso

namespace BusyLock

variable {staleAfter : Nat} {owner : Nat → List UInt8} {s : State} {t file n : Nat} {stage : Stage}

/--
A file is locked only for a taker that knows of it.
-/
def Owned (s : State) : Prop := ∀ file t, (s.files file).lockedBy = some t → (s.stage t).locked? = some file

namespace Owned

theorem onward (h : Owned s) (hsame : stage.locked? = (s.stage t).locked?) : Owned (s.goTo t stage) := by
  intro file t' hlocked
  rw [stage_goTo]
  split
  . next heq =>
    subst heq
    rw [hsame]
    exact h file t' hlocked
  . exact h file t' hlocked

theorem locking (h : Owned s) (hfree : (s.stage t).locked? = none) (hlocked : stage.locked? = some file)
    : Owned ((s.lock t file).goTo t stage) := by
  intro file' t' hmine
  rw [stage_goTo]
  rw [files_goTo, State.lock] at hmine
  by_cases heq : file' = file
  . subst heq
    rw [files_amend_self] at hmine
    cases hmine
    rw [if_pos rfl, hlocked]
  . rw [files_amend_ne heq] at hmine
    have hne : t' ≠ t := by
      intro hsame
      subst hsame
      cases hfree.symm.trans (h file' t' hmine)
    rw [if_neg hne]
    exact h file' t' hmine

theorem write (h : Owned s) (contents : List UInt8) : Owned (s.write file contents) := by
  intro file' t' hmine
  rw [State.write, lockedBy_amend rfl] at hmine
  exact h file' t' hmine

theorem nameless (h : Owned s) : Owned { s with path := none } := h

theorem create (h : Owned s) (contents : List UInt8) : Owned (s.create contents) := by
  intro file t' hmine
  by_cases heq : file = s.next
  . subst heq
    rw [files_create_self] at hmine
    cases hmine
  . rw [files_create_ne heq] at hmine
    exact h file t' hmine

theorem closing (h : Owned s) (hfile : ∀ file', (s.stage t).locked? = some file' → file' = file)
    : Owned ((s.unlock t file).goTo t .idle) := by
  intro file' t' hmine
  rw [files_goTo] at hmine
  have hbefore : (s.files file').lockedBy = some t' ∧ t' ≠ t := by
    unfold State.unlock at hmine
    split at hmine
    . next hlocked =>
      by_cases heq : file' = file
      . subst heq
        rw [files_amend_self] at hmine
        cases hmine
      . rw [files_amend_ne heq] at hmine
        refine ⟨hmine, ?_⟩
        intro hsame
        subst hsame
        exact heq (hfile file' (h file' t' hmine))
    . next hunlocked =>
      refine ⟨hmine, ?_⟩
      intro hsame
      subst hsame
      cases hfile file' (h file' t' hmine)
      exact hunlocked hmine
  rw [stage_goTo, if_neg hbefore.2, stage_unlock]
  exact h file' t' hbefore.1

theorem move {s' : State} (h : Owned s) (hmove : Move owner s t s') : Owned s' := by
  cases hmove with
  | stays => exact h
  | leaves stage hfree hkept hlocked hknown => exact h.onward (hlocked.trans hfree.symm)
  | makes hfree hpath => exact (h.create []).onward hfree.symm
  | locks file stage hfile hnone =>
    rcases hfile with ⟨hs, rfl⟩ | ⟨hs, rfl⟩
    . exact h.locking (congrArg Stage.locked? hs) rfl
    . exact h.locking (congrArg Stage.locked? hs) rfl
  | onward file stage hlocked hsame hkept hsigned => exact h.onward (hsame.trans hlocked.symm)
  | writes file contents stage hlocked hsame hkept hsigned =>
    exact (h.write contents).onward (hsame.trans hlocked.symm)
  | removes file refusal hlocked hkept => exact h.nameless.onward hlocked.symm
  | closes file hlocked => exact h.closing hlocked

theorem step (h : Owned s) (e : Event) : Owned (BusyLock.step staleAfter owner s e).2 := by
  cases e with
  | take t =>
    dsimp only [BusyLock.step]
    split
    . next hidle =>
      have hfree : (s.stage t).locked? = none := congrArg Stage.locked? hidle
      exact h.onward hfree.symm
    . exact h
  | call t luck => exact h.move (call_move s t luck)
  | drop t =>
    dsimp only [BusyLock.step]
    split
    . next file hs =>
      have hlocked : (s.stage t).locked? = some file := congrArg Stage.locked? hs
      exact h.onward hlocked.symm
    . exact h
  | crash t =>
    dsimp only [BusyLock.step]
    split
    . next file hfile =>
      apply h.closing
      intro file' hlocked
      exact Option.some.inj ((file_of_locked hlocked).symm.trans hfile)
    . next hfile =>
      have hfree : (s.stage t).locked? = none := by
        cases hlocked : (s.stage t).locked? with
        | none => rfl
        | some file => cases hfile.symm.trans (file_of_locked hlocked)
      exact h.onward hfree.symm
  | clock now => exact h
  | createOther contents =>
    dsimp only [BusyLock.step]
    split
    . exact h.create contents
    . exact h
  | removeOther => exact h.nameless

end Owned

theorem owned_run (es : List Event) : Owned ((machine staleAfter owner).run (machine staleAfter owner).init es) := by
  apply Machine.invariant Owned
  . intro s e h
    exact h.step e
  . intro file t hlocked
    cases hlocked

theorem stage_goTo_self : (s.goTo t stage).stage t = stage := by rw [stage_goTo, if_pos rfl]

theorem isStale_goTo : (s.goTo t stage).isStale staleAfter file = s.isStale staleAfter file := rfl

theorem isStale_lock : (s.lock t file).isStale staleAfter file = s.isStale staleAfter file := by
  unfold State.isStale State.lock
  rw [files_amend_self]
  rfl

theorem create_goTo {contents : List UInt8} : (s.goTo t stage).create contents = (s.create contents).goTo t stage := rfl

theorem lock_goTo : (s.goTo t stage).lock t file = (s.lock t file).goTo t stage := rfl

theorem write_goTo {contents : List UInt8}
    : (s.goTo t stage).write file contents = (s.write file contents).goTo t stage := rfl

theorem lockedBy_made {contents : List UInt8} : (((s.create contents).goTo t stage).files s.next).lockedBy = none := by
  rw [files_goTo, files_create_self]

theorem run_call {s' : State} (h : (call staleAfter owner s t fine).2 = s') (es : List Event)
    : (machine staleAfter owner).run s (.call t fine :: es) = (machine staleAfter owner).run s' es := by
  subst h
  rfl

theorem call_create (hs : s.stage t = .create n) (hpath : s.path = none)
    : (call staleAfter owner s t fine).2 = (s.create []).goTo t (.lockNew s.next) := by
  simp [call, fine, hs, hpath]

theorem call_lockNew (hs : s.stage t = .lockNew file) (hfree : (s.files file).lockedBy = none)
    : (call staleAfter owner s t fine).2 = (s.lock t file).goTo t (.writeNew file) := by
  simp [call, fine, hs, hfree]

theorem call_writeNew (hs : s.stage t = .writeNew file)
    : (call staleAfter owner s t fine).2 = (s.write file (owner t)).goTo t (.handleNew file) := by
  simp [call, fine, hs]

theorem call_handleNew (hs : s.stage t = .handleNew file)
    : (call staleAfter owner s t fine).2 = s.goTo t (.held file) := by
  simp [call, fine, hs]

theorem call_held {luck : Luck} (hs : s.stage t = .held file) : (call staleAfter owner s t luck).2 = s := by
  simp [call, hs]

theorem call_exists (hs : s.stage t = .create n) (hpath : s.path = some file)
    : (call staleAfter owner s t fine).2 = s.goTo t (.openOld n) := by
  simp [call, fine, hs, hpath]

theorem call_openOld (hs : s.stage t = .openOld n) (hpath : s.path = some file)
    : (call staleAfter owner s t fine).2 = s.goTo t (.inspect file) := by
  simp [call, fine, hs, hpath]

theorem call_inspect (hs : s.stage t = .inspect file) (hstale : s.isStale staleAfter file = true)
    : (call staleAfter owner s t fine).2 = s.goTo t (.lockOld file) := by
  simp [call, fine, hs, hstale]

theorem call_lockOld (hs : s.stage t = .lockOld file) (hfree : (s.files file).lockedBy = none)
    : (call staleAfter owner s t fine).2 = (s.lock t file).goTo t (.inspectAgain file) := by
  simp [call, fine, hs, hfree]

theorem call_inspectAgain (hs : s.stage t = .inspectAgain file) (hstale : s.isStale staleAfter file = true)
    : (call staleAfter owner s t fine).2 = s.goTo t (.writeOld file) := by
  simp [call, fine, hs, hstale]

theorem call_writeOld (hs : s.stage t = .writeOld file)
    : (call staleAfter owner s t fine).2 = (s.write file (owner t)).goTo t (.handleOld file) := by
  simp [call, fine, hs]

theorem call_handleOld (hs : s.stage t = .handleOld file)
    : (call staleAfter owner s t fine).2 = s.goTo t (.compare file) := by
  simp [call, fine, hs]

theorem call_compare (hs : s.stage t = .compare file) (hpath : s.path = some file)
    : (call staleAfter owner s t fine).2 = s.goTo t (.held file) := by
  simp [call, fine, hs, hpath]

theorem run_held (hs : s.stage t = .held file) (n : Nat)
    : (machine staleAfter owner).run s (List.replicate n (.call t fine)) = s := by
  induction n with
  | zero => rfl
  | succ n ih => rw [List.replicate_succ, run_call (call_held hs), ih]

/--
A take that meets with no failure and with no one else ends with the lock where there is no file, or a stale one that
nobody has locked.
-/
theorem take_alone (hidle : s.stage t = .idle)
    (hfree : ∀ file, s.path = some file → (s.files file).lockedBy = none ∧ s.isStale staleAfter file = true)
    : ∃ file,
        ((machine staleAfter owner).run s (.take t :: List.replicate 8 (.call t fine))).stage t = .held file := by
  have htake : (machine staleAfter owner).step s (.take t) = (none, s.goTo t (.create 3)) := by
    simp [machine, step, hidle]
  rw [Machine.run_cons, htake]
  cases hpath : s.path with
  | none =>
    have hmake : (call staleAfter owner (s.goTo t (.create 3)) t fine).2 = (s.create []).goTo t (.lockNew s.next) := by
      rw [call_create stage_goTo_self hpath, create_goTo, goTo_goTo]
      rfl
    refine ⟨s.next, ?_⟩
    change ((machine staleAfter owner).run _ (_ :: _ :: _ :: _ :: List.replicate 4 _)).stage t = _
    rw [run_call hmake, run_call (call_lockNew stage_goTo_self lockedBy_made), run_call (call_writeNew stage_goTo_self),
      run_call (call_handleNew stage_goTo_self), run_held stage_goTo_self, stage_goTo_self]
  | some file =>
    obtain ⟨hnone, hstale⟩ := hfree file hpath
    have hexists : (call staleAfter owner (s.goTo t (.create 3)) t fine).2 = s.goTo t (.openOld 3) :=
      (call_exists stage_goTo_self hpath).trans goTo_goTo
    have hopen : (call staleAfter owner (s.goTo t (.openOld 3)) t fine).2 = s.goTo t (.inspect file) :=
      (call_openOld stage_goTo_self hpath).trans goTo_goTo
    have hinspect : (call staleAfter owner (s.goTo t (.inspect file)) t fine).2 = s.goTo t (.lockOld file) :=
      (call_inspect stage_goTo_self hstale).trans goTo_goTo
    have hlock : (call staleAfter owner (s.goTo t (.lockOld file)) t fine).2 =
        (s.lock t file).goTo t (.inspectAgain file) := by
      rw [call_lockOld stage_goTo_self hnone, lock_goTo, goTo_goTo]
    have hagain : (call staleAfter owner ((s.lock t file).goTo t (.inspectAgain file)) t fine).2 =
        (s.lock t file).goTo t (.writeOld file) :=
      (call_inspectAgain stage_goTo_self (isStale_goTo.trans (isStale_lock.trans hstale))).trans goTo_goTo
    have hwrite : (call staleAfter owner ((s.lock t file).goTo t (.writeOld file)) t fine).2 =
        ((s.lock t file).write file (owner t)).goTo t (.handleOld file) := by
      rw [call_writeOld stage_goTo_self, write_goTo, goTo_goTo]
    have hhandle : (call staleAfter owner (((s.lock t file).write file (owner t)).goTo t (.handleOld file)) t fine).2 =
        ((s.lock t file).write file (owner t)).goTo t (.compare file) :=
      (call_handleOld stage_goTo_self).trans goTo_goTo
    have hnamed : (((s.lock t file).write file (owner t)).goTo t (.compare file)).path = some file := hpath
    have hcompare : (call staleAfter owner (((s.lock t file).write file (owner t)).goTo t (.compare file)) t fine).2 =
        ((s.lock t file).write file (owner t)).goTo t (.held file) := by
      rw [call_compare stage_goTo_self hnamed, goTo_goTo]
    refine ⟨file, ?_⟩
    change ((machine staleAfter owner).run _ (_ :: _ :: _ :: _ :: _ :: _ :: _ :: _ :: [])).stage t = _
    rw [run_call hexists, run_call hopen, run_call hinspect, run_call hlock, run_call hagain, run_call hwrite,
      run_call hhandle, run_call hcompare, Machine.run_nil, stage_goTo_self]

/--
A crash at any point blocks a node no longer than until its file is stale: the next take that is alone gets the lock.
-/
theorem lock_recovers (staleAfter : Nat) (owner : Nat → List UInt8) {es : List Event} {now : Nat}
    (hidle : ∀ t, ((machine staleAfter owner).run (machine staleAfter owner).init es).stage t = .idle)
    (hlate : ∀ file, ((machine staleAfter owner).run (machine staleAfter owner).init es).path = some file →
      (((machine staleAfter owner).run (machine staleAfter owner).init es).files file).modified + staleAfter ≤ now)
    (t : Nat)
    : ∃ file, ((machine staleAfter owner).run (machine staleAfter owner).init
        (es ++ .clock now :: .take t :: List.replicate 8 (.call t fine))).stage t = .held file := by
  have howned : Owned ((machine staleAfter owner).run (machine staleAfter owner).init es) := owned_run es
  rw [Machine.run_append, Machine.run_cons]
  generalize (machine staleAfter owner).run (machine staleAfter owner).init es = s at *
  apply take_alone
  . exact hidle t
  . intro file hpath
    have hstale := hlate file hpath
    constructor
    . cases hlocked : (s.files file).lockedBy with
      | none => exact hlocked
      | some t' =>
        have hfile := howned file t' hlocked
        rw [hidle t'] at hfile
        cases hfile
    . change decide ((s.files file).modified ≤ now ∧ staleAfter ≤ now - (s.files file).modified) = true
      rw [decide_eq_true_iff]
      omega

theorem lock_recovers_crashed
    : ∃ file, ((machine 3600 Handover.own).run (machine 3600 Handover.own).init
        (Handover.events.take 6 ++ .clock 3600 :: .take 1 :: List.replicate 8 (.call 1 fine))).stage 1 =
          .held file := by
  apply lock_recovers 3600 Handover.own
  . intro t
    rcases t with _ | t
    . rfl
    . rfl
  . intro file hpath
    cases hpath
    decide

end BusyLock

end Bso

end Tith
