import Tith.Store.Lemmas.Events
import Tith.Store.Lemmas.Jobs

/-!
This module contains the ledger: the jobs together with the log of their events. `Write` lists
everything that any operation can do to it, the invariants of jobs and logs are then proved once.
-/

namespace Tith

structure Ledger where
  jobs : Table String OutboundJob
  events : Table String EventEntry

def Store.ledger (s : Store) : Ledger where
  jobs := s.jobs
  events := s.events

/--
One write of an operation that has started in `origin`: it works on the jobs as it has read them
there, other writes of the same operation may have come first. If `chained` holds, then none of
them has changed the state of the job that is written. New jobs are only written if `creating`
holds.
-/
inductive Write (chained creating : Prop) (origin : Ledger) : Ledger → Ledger → Prop where
  | advance {l : Ledger} {old job : OutboundJob} {events : Table String EventEntry}
      (hold : origin.jobs[old.jobId]? = some old) (hadvance : Advance old job)
      (hcurrent : chained → ∃ stored, l.jobs[old.jobId]? = some stored ∧ stored.state = old.state)
      (hevents : appendEvent l.events job (some old.state) = .ok events) :
      Write chained creating origin l ⟨l.jobs.insert job.jobId job, events⟩
  | create {l : Ledger} {events : Table String EventEntry} (jobId : String) (value : NewOutboundJob)
      (hcreating : creating) (hfree : ColonFree jobId) (hnew : l.jobs[jobId]? = none)
      (hevents : appendEvent l.events (makeJob jobId value) none = .ok events) :
      Write chained creating origin l ⟨l.jobs.insert jobId (makeJob jobId value), events⟩
  | acknowledge {l : Ledger} {key : String} {entry : EventEntry}
      (hentry : l.events[key]? = some entry) :
      Write chained creating origin l ⟨l.jobs, l.events.insert key { entry with acknowledged := true }⟩

abbrev Writes (chained creating : Prop) (origin : Ledger) : Ledger → Ledger → Prop :=
  Relation.ReflTransGen (Write chained creating origin)

/--
The log of a job leads from no state at all to the state the job is in.
-/
def Chained (log : List OutboundEvent) (state : JobState) : Prop :=
  log.Leads OutboundEvent.previous (fun event => some event.current) none (some state)

structure LedgerInv (chained : Prop) (l : Ledger) : Prop where
  jobs : ∀ (key : String) job, l.jobs[key]? = some job →
    job.jobId = key ∧ ColonFree key ∧ JobInv job
  events : EventsInv l.events
  owned : ∀ (key : String) (entry : EventEntry), l.events[key]? = some entry →
    ∃ job, l.jobs[entry.event.jobId]? = some job
  logs : ∀ (key : String) job, l.jobs[key]? = some job →
    ∃ log, IsLog l.events key log ∧ (chained → Chained log job.state)

/--
Every job of the ledger is still there, and at most one operation has rewritten it.
-/
def Derived (origin l : Ledger) : Prop :=
  ∀ (key : String) old, origin.jobs[key]? = some old →
    ∃ job, l.jobs[key]? = some job ∧ (job = old ∨ Advance old job)

theorem derived_refl (l : Ledger) : Derived l l := by
  intro key old hold
  exact ⟨old, hold, .inl rfl⟩

theorem empty_ledgerInv (chained : Prop) : LedgerInv chained Store.empty.ledger := by
  constructor
  . intro key job h
    simp [Store.empty, Store.ledger] at h
  . intro key entry h
    simp [Store.empty, Store.ledger] at h
  . intro key entry h
    simp [Store.empty, Store.ledger] at h
  . intro key job h
    simp [Store.empty, Store.ledger] at h

theorem LedgerInv.isLog_nil {chained : Prop} {l : Ledger} (hinv : LedgerInv chained l)
    {jobId : String} (hnew : l.jobs[jobId]? = none)
    : IsLog l.events jobId [] := by
  refine ⟨by simp, by simp, by simp, ?_⟩
  intro key entry hentry hjob
  obtain ⟨job, hjob'⟩ := hinv.owned key entry hentry
  rw [hjob, hnew] at hjob'
  cases hjob'

theorem LedgerInv.insert {chained : Prop} {l : Ledger} (hinv : LedgerInv chained l)
    {job : OutboundJob} {previous : Option JobState} {events : Table String EventEntry}
    {log : List OutboundEvent} (hfree : ColonFree job.jobId) (hjob : JobInv job)
    (hlog : IsLog l.events job.jobId log)
    (hchained : chained →
      log.Leads OutboundEvent.previous (fun event => some event.current) none previous)
    (hevents : appendEvent l.events job previous = .ok events)
    : LedgerInv chained ⟨l.jobs.insert job.jobId job, events⟩ := by
  refine ⟨?_, appendEvent_eventsInv hinv.events hfree hevents, ?_, ?_⟩
  . intro key job' hget
    rcases Table.getElem?_insert_some hget with ⟨rfl, rfl⟩ | ⟨_, hold⟩
    . exact ⟨rfl, hfree, hjob⟩
    . exact hinv.jobs key job' hold
  . intro key entry hentry
    dsimp only at hentry ⊢
    rw [Table.getElem?_insert]
    split
    . exact ⟨_, rfl⟩
    . next hne =>
      obtain ⟨sequence, _, rfl⟩ := appendEvent_cases hevents
      rcases Table.getElem?_insert_some hentry with ⟨_, rfl⟩ | ⟨_, hold⟩
      . exact absurd rfl hne
      . exact hinv.owned key entry hold
  . intro key job' hget
    rcases Table.getElem?_insert_some hget with ⟨rfl, rfl⟩ | ⟨hne, hold⟩
    . refine ⟨_, appendEvent_isLog hlog hinv.events hfree hevents, ?_⟩
      intro h
      exact (hchained h).append_singleton (t := nextEvent job previous log) rfl
    . obtain ⟨log', hlog', hchained'⟩ := hinv.logs key job' hold
      exact ⟨log', appendEvent_isLog_ne hinv.events hfree hevents hne hlog', hchained'⟩

theorem Write.inv {chained creating : Prop} {origin l l' : Ledger} (h : Write chained creating origin l l')
    (horigin : LedgerInv chained origin) (hinv : LedgerInv chained l) (hderived : Derived origin l)
    : LedgerInv chained l' := by
  cases h with
  | @advance old job events hold hadvance hcurrent hevents =>
    obtain ⟨_, hfree, hjob⟩ := horigin.jobs _ old hold
    obtain ⟨stored, hstored, _⟩ := hderived _ old hold
    obtain ⟨log, hlog, hchained⟩ := hinv.logs _ stored hstored
    rw [← hadvance.jobId] at hfree hlog
    apply hinv.insert hfree (hadvance.inv hjob) hlog _ hevents
    intro h
    obtain ⟨stored', hstored', hstate⟩ := hcurrent h
    rw [hstored] at hstored'
    injection hstored' with heq
    rw [← hstate, ← heq]
    exact hchained h
  | create jobId value _ hfree hnew hevents =>
    apply hinv.insert hfree (makeJob_inv jobId value) (hinv.isLog_nil hnew) _ hevents
    intro _
    rfl
  | @acknowledge key entry hentry =>
    refine ⟨hinv.jobs, acknowledge_eventsInv hinv.events hentry, ?_, ?_⟩
    . intro key' entry' hget
      rcases Table.getElem?_insert_some hget with ⟨_, rfl⟩ | ⟨_, hold⟩
      . exact hinv.owned key entry hentry
      . exact hinv.owned key' entry' hold
    . intro key' job hjob
      obtain ⟨log, hlog, hchained⟩ := hinv.logs key' job hjob
      exact ⟨log, acknowledge_isLog hlog hentry, hchained⟩

theorem Write.derived {chained creating : Prop} {origin l l' : Ledger} (h : Write chained creating origin l l')
    (hderived : Derived origin l)
    : Derived origin l' := by
  intro key old' hold'
  cases h with
  | @advance old job events hold hadvance hcurrent hevents =>
    dsimp only
    rw [Table.getElem?_insert, hadvance.jobId]
    split
    . next heq =>
      rw [heq, hold'] at hold
      injection hold with heq
      exact ⟨job, rfl, .inr (heq ▸ hadvance)⟩
    . exact hderived key old' hold'
  | create jobId value _ hfree hnew hevents =>
    dsimp only
    rw [Table.getElem?_insert]
    split
    . next heq =>
      obtain ⟨job, hjob, _⟩ := hderived key old' hold'
      rw [← heq, hnew] at hjob
      cases hjob
    . exact hderived key old' hold'
  | acknowledge => exact hderived key old' hold'

theorem Writes.inv {chained creating : Prop} {origin l : Ledger} (h : Writes chained creating origin origin l)
    (horigin : LedgerInv chained origin)
    : LedgerInv chained l ∧ Derived origin l := by
  induction h with
  | refl => exact ⟨horigin, derived_refl origin⟩
  | tail _ hwrite ih => exact ⟨hwrite.inv horigin ih.1 ih.2, hwrite.derived ih.2⟩

theorem Writes.jobs_none {chained creating : Prop} {origin l : Ledger}
    (h : Writes chained creating origin origin l) (hcreating : ¬creating) {key : String}
    (hnone : origin.jobs[key]? = none)
    : l.jobs[key]? = none := by
  induction h with
  | refl => exact hnone
  | tail _ hwrite ih =>
    cases hwrite with
    | advance hold hadvance =>
      refine (Table.getElem?_insert_ne _ ?_ _).trans ih
      rintro rfl
      rw [hadvance.jobId, hold] at hnone
      cases hnone
    | create _ _ h => exact absurd h hcreating
    | acknowledge => exact ih

theorem Writes.jobs_kept {chained creating : Prop} {origin l l' : Ledger}
    (h : Writes chained creating origin l l') (hread : ∀ key : String, origin.jobs[key]? = none)
    {key : String} {job : OutboundJob} (hjob : l.jobs[key]? = some job)
    : l'.jobs[key]? = some job := by
  induction h with
  | refl => exact hjob
  | tail _ hwrite ih =>
    cases hwrite with
    | advance hold =>
      rw [hread] at hold
      cases hold
    | create jobId value _ _ hnew =>
      refine (Table.getElem?_insert_ne _ ?_ _).trans ih
      rintro rfl
      rw [hnew] at ih
      cases ih
    | acknowledge => exact ih

end Tith
