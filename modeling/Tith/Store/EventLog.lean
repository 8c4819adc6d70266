import Tith.Store.Lemmas.Writes

/-!
This module contains the event logs over whole runs of the store.
-/

namespace Tith

/--
The events of a job are a chain from its creation to the state it is stored with.
-/
def LogChained (s : Store) (job : OutboundJob) : Prop :=
  ∃ log, IsLog s.events job.jobId log ∧ Chained log job.state

theorem run_logChained (c : Crypto) (ops : List Op)
    (hguard : (storeMachine c).Along SnapshotGuard .empty ops)
    : ∀ (key : String) job, ((storeMachine c).run .empty ops).jobs[key]? = some job →
        LogChained ((storeMachine c).run .empty ops) job := by
  have hinv : LedgerInv True ((storeMachine c).run .empty ops).ledger := by
    apply Machine.invariant_along SnapshotGuard (fun (s : Store) => LedgerInv True s.ledger) _
      (empty_ledgerInv True) hguard
    intro s op hinv hstep
    exact step_ledgerInv c hinv (fun _ => hstep)
  intro key job hjob
  obtain ⟨log, hlog, hchained⟩ := hinv.logs key job hjob
  obtain ⟨rfl, _⟩ := hinv.jobs key job hjob
  exact ⟨log, hlog, hchained trivial⟩

/--
A job with two copies to one next hop, which a poll then takes.
-/
def Sample.pollTwice : List Op :=
  [submit "k" (delivery "hub") (some (delivery "hub")) 7,
   .claimPollSnapshot "hub" none [.netMail] 5 [draw 1, draw 2]]

/--
The second claim of the snapshot still names the state from before the first one.
-/
theorem pollTwice_not_logChained
    : ¬∀ (c : Crypto) (ops : List Op) (key : String) job,
        ((storeMachine c).run .empty ops).jobs[key]? = some job →
        LogChained ((storeMachine c).run .empty ops) job := by
  intro h
  have hinv := run_ledgerInv Sample.crypto Sample.pollTwice
  generalize hs : (storeMachine Sample.crypto).run .empty Sample.pollTwice = s at hinv
  obtain ⟨job, hjob⟩ : ∃ job, s.jobs[identifierOf 'J' (Sample.draw 7)]? = some job := by
    rw [← hs]
    apply Option.isSome_iff_exists.mp
    decide
  obtain ⟨hid, hfree, _⟩ := hinv.jobs _ job hjob
  obtain ⟨log, hlog, hchained⟩ := h Sample.crypto Sample.pollTwice _ job (by rw [hs]; exact hjob)
  rw [hs, hid] at hlog
  have hlength : log.length = 3 := by
    rw [← hlog.lastSequence hinv.events hfree, ← hs]
    decide
  match log, hlength with
  | [first, second, third], _ =>
    obtain ⟨entry, hentry, rfl⟩ := hlog.stored second (by simp)
    obtain ⟨entry', hentry', rfl⟩ := hlog.stored third (by simp)
    rw [(hlog.ids 1 _ rfl).1, ← hs] at hentry
    rw [(hlog.ids 2 _ rfl).1, ← hs] at hentry'
    have hcurrent := congrArg (Option.map (fun entry => entry.event.current)) hentry
    have hprevious := congrArg (Option.map (fun entry => entry.event.previous)) hentry'
    have hlink : entry'.event.previous = some entry.event.current := hchained.2.2.1
    simp only [Option.map_some, hlink] at hcurrent hprevious
    rw [← hcurrent] at hprevious
    revert hprevious
    decide

def Sample.pollOnce : List Op :=
  [submit "k" (delivery "hub") none 7, .claimPollSnapshot "hub" none [.netMail] 5 [draw 1]]

theorem run_logChained_pollOnce
    : ∃ job, ((storeMachine Sample.crypto).run .empty Sample.pollOnce).jobs[
          identifierOf 'J' (Sample.draw 7)]? = some job ∧
        LogChained ((storeMachine Sample.crypto).run .empty Sample.pollOnce) job := by
  obtain ⟨job, hjob⟩ := Option.isSome_iff_exists.mp
    (by decide : ((storeMachine Sample.crypto).run .empty Sample.pollOnce).jobs[
      identifierOf 'J' (Sample.draw 7)]?.isSome)
  refine ⟨job, hjob, run_logChained Sample.crypto Sample.pollOnce ?_ _ job hjob⟩
  refine ⟨trivial, ?_, trivial⟩
  intro key job hjob
  have hlength :
      ∀ pair ∈ ((storeMachine Sample.crypto).run .empty
        [Sample.submit "k" (Sample.delivery "hub") none 7]).jobs.toList,
        pair.2.deliveries.length = 1 := by
    decide
  have hone := hlength (key, job) ((Table.mem_toList _ _ _).mpr hjob)
  left
  intro i j a b hi hj _ _
  have hi := (List.getElem?_eq_some_iff.mp hi).1
  have hj := (List.getElem?_eq_some_iff.mp hj).1
  dsimp only at hone
  omega

end Tith
