import Tith.Lib.Chain
import Tith.Lib.List
import Tith.Store.Outbound

/-!
This module contains the event table: the keys of the events of one job, the highest number in use
and the log that the events of a job form.
-/

namespace Tith

/--
No colon stands in the identifier of a job, so the key of an event can be taken apart again.
-/
def ColonFree (jobId : String) : Prop := ':' ∉ jobId.toList

theorem digitChar_ne_colon {n : Nat} (h : n < 16) : Nat.digitChar n ≠ ':' := by
  interval_cases n <;> decide

theorem identifierOf_colonFree {kind : Char} (hkind : kind ≠ ':') (bytes : Vector UInt8 16)
    : ColonFree (identifierOf kind bytes) := by
  unfold ColonFree identifierOf
  rw [String.toList_ofList]
  simp only [List.mem_cons, List.mem_flatMap, hexDigits, not_or, not_exists, not_and]
  refine ⟨hkind.symm, ?_⟩
  intro byte _
  have hbyte := byte.toNat_lt
  have hhigh := digitChar_ne_colon (n := byte.toNat / 16) (by omega)
  have hlow := digitChar_ne_colon (n := byte.toNat % 16) (by omega)
  exact ⟨hhigh.symm, hlow.symm, by simp⟩

theorem freshIdentifier_cases {kind : Char} {taken : String → Bool} {rng rng' : Rng} {id : String}
    (h : freshIdentifier kind taken rng = .ok (id, rng'))
    : taken id = false ∧ ∃ bytes, id = identifierOf kind bytes := by
  induction rng with
  | nil => cases h
  | cons bytes rng ih =>
    unfold freshIdentifier at h
    split at h
    . exact ih h
    . next htaken =>
      simp only [Except.ok.injEq, Prod.mk.injEq] at h
      obtain ⟨rfl, -⟩ := h
      exact ⟨by simpa using htaken, bytes, rfl⟩

theorem toList_eventId (jobId : String) (n : UInt64)
    : (eventId jobId n).toList = jobId.toList ++ ':' :: Nat.toDigits 10 n.toNat := by
  simp [eventId, eventPrefix]

theorem append_colon_inj {a b x y : List Char} (ha : ':' ∉ a) (hb : ':' ∉ b)
    (h : a ++ ':' :: x = b ++ ':' :: y)
    : a = b ∧ x = y := by
  induction a generalizing b with
  | nil =>
    cases b with
    | nil => simpa using h
    | cons d b =>
      simp only [List.nil_append, List.cons_append, List.cons.injEq] at h
      exact absurd (by rw [h.1]; simp) hb
  | cons c a ih =>
    cases b with
    | nil =>
      simp only [List.nil_append, List.cons_append, List.cons.injEq] at h
      exact absurd (by rw [h.1]; simp) ha
    | cons d b =>
      simp only [List.cons_append, List.cons.injEq] at h
      simp only [List.mem_cons, not_or] at ha hb
      obtain ⟨rfl, rfl⟩ := ih ha.2 hb.2 h.2
      exact ⟨by rw [h.1], rfl⟩

theorem keySequence_eq_some {jobId key : String} {n : UInt64}
    : keySequence jobId key = some n ↔
        ∃ number, key.toList = jobId.toList ++ ':' :: number ∧ Text.parseU64 number = some n := by
  unfold keySequence
  split
  . next hnone =>
    simp only [reduceCtorEq, false_iff, not_exists, not_and]
    intro number hkey
    have hprefixed : key.toList = eventPrefix jobId ++ number := by
      rw [hkey]
      simp [eventPrefix]
    rw [List.isPrefixOf?_eq_some.mpr hprefixed] at hnone
    cases hnone
  . next number hsome =>
    rw [List.isPrefixOf?_eq_some] at hsome
    simp only [eventPrefix, List.append_assoc, List.singleton_append] at hsome
    constructor
    . intro hn
      exact ⟨number, hsome, hn⟩
    . rintro ⟨number', hkey, hn⟩
      rw [hkey] at hsome
      simp only [List.append_cancel_left_eq, List.cons.injEq, true_and] at hsome
      exact hsome ▸ hn

@[simp]
theorem keySequence_eventId (jobId : String) (n : UInt64)
    : keySequence jobId (eventId jobId n) = some n := by
  rw [keySequence_eq_some]
  exact ⟨_, toList_eventId jobId n, Text.parseU64_toDigits n⟩

theorem eq_of_keySequence_eventId {jobId jobId' : String} (h : ColonFree jobId)
    (h' : ColonFree jobId') {m n : UInt64} (hkey : keySequence jobId (eventId jobId' m) = some n)
    : jobId = jobId' ∧ m = n := by
  obtain ⟨number, hlist, hn⟩ := keySequence_eq_some.mp hkey
  rw [toList_eventId] at hlist
  obtain ⟨hid, rfl⟩ := append_colon_inj h' h hlist
  rw [Text.parseU64_toDigits, Option.some.injEq] at hn
  exact ⟨String.toList_inj.mp hid.symm, hn⟩

theorem eventId_inj {jobId jobId' : String} (h : ColonFree jobId) (h' : ColonFree jobId')
    {m n : UInt64} (heq : eventId jobId m = eventId jobId' n)
    : jobId = jobId' ∧ m = n := by
  have hkey := keySequence_eventId jobId m
  rw [heq] at hkey
  obtain ⟨hid, hn⟩ := eq_of_keySequence_eventId h h' hkey
  exact ⟨hid, hn.symm⟩

theorem mem_keys {events : Table String EventEntry} {key : String}
    : key ∈ events.keys ↔ ∃ entry, events[key]? = some entry := by
  rw [Std.ExtTreeMap.mem_keys]
  constructor
  . intro hmem
    exact ⟨events[key], Std.ExtTreeMap.getElem?_eq_some_getElem hmem⟩
  . rintro ⟨entry, hget⟩
    rw [Std.ExtTreeMap.mem_iff_isSome_getElem?, hget]
    rfl

theorem max_cases (m n : UInt64) : (m ≤ n ∧ max m n = n) ∨ (n ≤ m ∧ max m n = m) := by
  by_cases h : m ≤ n
  . exact .inl ⟨h, if_pos h⟩
  . refine .inr ⟨?_, if_neg h⟩
    rw [UInt64.le_iff_toNat_le] at h ⊢
    omega

/--
One turn of the loop over the keys.
-/
def maxSequence (jobId : String) (sequence : UInt64) (key : String) : UInt64 :=
  match keySequence jobId key with
  | none => sequence
  | some number => max sequence number

theorem le_foldl_maxSequence (jobId : String) (keys : List String) (start : UInt64)
    : start ≤ keys.foldl (maxSequence jobId) start ∧
        ∀ key ∈ keys, ∀ n, keySequence jobId key = some n →
          n ≤ keys.foldl (maxSequence jobId) start := by
  induction keys generalizing start with
  | nil => simp
  | cons key keys ih =>
    obtain ⟨hstart, hkeys⟩ := ih (maxSequence jobId start key)
    refine ⟨?_, ?_⟩
    . apply UInt64.le_trans _ hstart
      unfold maxSequence
      split
      . exact UInt64.le_refl _
      . next n _ =>
        rcases max_cases start n with ⟨hle, heq⟩ | ⟨_, heq⟩
        . rw [heq]
          exact hle
        . rw [heq]
          exact UInt64.le_refl _
    . intro key' hmem n hn
      rcases List.mem_cons.mp hmem with rfl | hmem
      . apply UInt64.le_trans _ hstart
        simp only [maxSequence, hn]
        rcases max_cases start n with ⟨_, heq⟩ | ⟨hle, heq⟩
        . rw [heq]
          exact UInt64.le_refl _
        . rw [heq]
          exact hle
      . exact hkeys key' hmem n hn

theorem foldl_maxSequence_attained (jobId : String) (keys : List String) (start : UInt64)
    : keys.foldl (maxSequence jobId) start = start ∨
        ∃ key ∈ keys, keySequence jobId key = some (keys.foldl (maxSequence jobId) start) := by
  induction keys generalizing start with
  | nil => simp
  | cons key keys ih =>
    rw [List.foldl_cons]
    rcases ih (maxSequence jobId start key) with heq | ⟨key', hmem, hkey'⟩
    . rw [heq]
      unfold maxSequence
      split
      . exact .inl rfl
      . next n hn =>
        rcases max_cases start n with ⟨_, hmax⟩ | ⟨_, hmax⟩
        . exact .inr ⟨key, by simp, by rw [hmax, hn]⟩
        . exact .inl hmax
    . exact .inr ⟨key', by simp [hmem], hkey'⟩

theorem le_lastSequence {events : Table String EventEntry} {jobId key : String} {entry : EventEntry}
    (hentry : events[key]? = some entry) {n : UInt64} (hn : keySequence jobId key = some n)
    : n ≤ lastSequence events jobId :=
  (le_foldl_maxSequence jobId events.keys 0).2 key (mem_keys.mpr ⟨entry, hentry⟩) n hn

theorem lastSequence_attained (events : Table String EventEntry) (jobId : String)
    : lastSequence events jobId = 0 ∨
        ∃ key entry, events[key]? = some entry ∧
          keySequence jobId key = some (lastSequence events jobId) := by
  rcases foldl_maxSequence_attained jobId events.keys 0 with hzero | ⟨key, hmem, hkey⟩
  . exact .inl hzero
  . obtain ⟨entry, hentry⟩ := mem_keys.mp hmem
    exact .inr ⟨key, entry, hentry, hkey⟩

theorem appendEvent_cases {events events' : Table String EventEntry} {job : OutboundJob}
    {previous : Option JobState} (h : appendEvent events job previous = .ok events')
    : ∃ sequence, checkedAdd (lastSequence events job.jobId) 1 = some sequence ∧
        events' = events.insert (eventId job.jobId sequence) (eventOf job previous sequence) := by
  simp only [appendEvent, Except.bind_ok_iff, Option.okOr_eq_ok, Except.ok.injEq] at h
  obtain ⟨sequence, hsequence, heq⟩ := h
  exact ⟨sequence, hsequence, heq.symm⟩

/--
Every event is stored under its own identifier, which is one of its job.
-/
def EventsInv (events : Table String EventEntry) : Prop :=
  ∀ (key : String) (entry : EventEntry), events[key]? = some entry →
    entry.event.eventId = key ∧ ColonFree entry.event.jobId ∧
      ∃ n, key = eventId entry.event.jobId n

/--
The log of a job: all of its events, numbered from one without a gap.
-/
structure IsLog (events : Table String EventEntry) (jobId : String) (log : List OutboundEvent)
    : Prop where
  length_lt : log.length < 2 ^ 64
  ids : ∀ (i : Nat) event, log[i]? = some event →
    event.eventId = eventId jobId (UInt64.ofNat (i + 1)) ∧ event.jobId = jobId
  stored : ∀ event ∈ log, ∃ entry : EventEntry, events[event.eventId]? = some entry ∧ entry.event = event
  complete : ∀ (key : String) (entry : EventEntry), events[key]? = some entry → entry.event.jobId = jobId →
    entry.event ∈ log

theorem toNat_succ {n : Nat} (h : n + 1 < 2 ^ 64) : (UInt64.ofNat (n + 1)).toNat = n + 1 := by
  rw [UInt64.toNat_ofNat']
  exact Nat.mod_eq_of_lt h

theorem IsLog.lastSequence {events : Table String EventEntry} {jobId : String}
    {log : List OutboundEvent} (hlog : IsLog events jobId log) (hevents : EventsInv events)
    (hid : ColonFree jobId)
    : (lastSequence events jobId).toNat = log.length := by
  have hlt := hlog.length_lt
  apply Nat.le_antisymm
  . rcases lastSequence_attained events jobId with hzero | ⟨key, entry, hentry, hkey⟩
    . rw [hzero]
      exact Nat.zero_le _
    . obtain ⟨_, hfree, n, rfl⟩ := hevents key entry hentry
      obtain ⟨heq, rfl⟩ := eq_of_keySequence_eventId hid hfree hkey
      obtain ⟨i, hi⟩ := List.getElem?_of_mem (hlog.complete _ entry hentry heq.symm)
      have hilt : i < log.length := (List.getElem?_eq_some_iff.mp hi).1
      have hids := (hlog.ids i _ hi).1
      rw [(hevents _ entry hentry).1] at hids
      rw [(eventId_inj hfree hid hids).2, toNat_succ (by omega)]
      exact hilt
  . rcases Nat.eq_zero_or_pos log.length with hzero | hpos
    . omega
    . have hlt : log.length - 1 < log.length := by omega
      have hget : log[log.length - 1]? = some log[log.length - 1] := List.getElem?_eq_getElem hlt
      obtain ⟨entry, hentry, _⟩ := hlog.stored _ (List.mem_of_getElem? hget)
      rw [(hlog.ids _ _ hget).1] at hentry
      have hle := le_lastSequence hentry (keySequence_eventId jobId _)
      rw [UInt64.le_iff_toNat_le, toNat_succ (by omega)] at hle
      omega

/--
What `append_event` appends to the log of a job.
-/
def nextEvent (job : OutboundJob) (previous : Option JobState) (log : List OutboundEvent)
    : OutboundEvent :=
  (eventOf job previous (UInt64.ofNat (log.length + 1))).event

theorem appendEvent_eq {events : Table String EventEntry} (job : OutboundJob)
    {log : List OutboundEvent} (hlog : IsLog events job.jobId log) (hevents : EventsInv events)
    (hid : ColonFree job.jobId) (previous : Option JobState)
    : appendEvent events job previous =
        if log.length + 1 < 2 ^ 64 then
          .ok (events.insert (eventId job.jobId (UInt64.ofNat (log.length + 1)))
            ⟨job.application, false, nextEvent job previous log⟩)
        else
          .error .corruptRecord := by
  have hlast := hlog.lastSequence hevents hid
  have hone : (1 : UInt64).toNat = 1 := rfl
  unfold appendEvent checkedAdd
  rw [hlast, hone]
  split
  . next hlt =>
    have heq : Tith.lastSequence events job.jobId + 1 = UInt64.ofNat (log.length + 1) := by
      apply UInt64.toNat_inj.mp
      rw [toNat_succ hlt, UInt64.toNat_add, hlast, hone]
      exact Nat.mod_eq_of_lt hlt
    rw [heq]
    rfl
  . rfl

theorem IsLog.fresh {events : Table String EventEntry} {jobId : String} {log : List OutboundEvent}
    (hlog : IsLog events jobId log) (hevents : EventsInv events) (hid : ColonFree jobId)
    (hlt : log.length + 1 < 2 ^ 64)
    : events[eventId jobId (UInt64.ofNat (log.length + 1))]? = none := by
  -- The key of the next event of a job is not in use.
  cases hget : events[eventId jobId (UInt64.ofNat (log.length + 1))]? with
  | none => rfl
  | some entry =>
    have hle := le_lastSequence hget (keySequence_eventId jobId _)
    rw [UInt64.le_iff_toNat_le, toNat_succ hlt, hlog.lastSequence hevents hid] at hle
    omega

section Append

variable {events events' : Table String EventEntry} {job : OutboundJob} {previous : Option JobState}
variable {log : List OutboundEvent}

variable (job) in
theorem appendEvent_ok (hlog : IsLog events job.jobId log) (hevents : EventsInv events)
    (hid : ColonFree job.jobId) (happend : appendEvent events job previous = .ok events')
    : log.length + 1 < 2 ^ 64 ∧
        events' = events.insert (eventId job.jobId (UInt64.ofNat (log.length + 1)))
          ⟨job.application, false, nextEvent job previous log⟩ := by
  rw [appendEvent_eq job hlog hevents hid] at happend
  split at happend
  . next hlt =>
    injection happend with heq
    exact ⟨hlt, heq.symm⟩
  . cases happend

theorem appendEvent_eventsInv (hevents : EventsInv events) (hid : ColonFree job.jobId)
    (happend : appendEvent events job previous = .ok events')
    : EventsInv events' := by
  obtain ⟨sequence, _, rfl⟩ := appendEvent_cases happend
  intro key entry hentry
  rcases Table.getElem?_insert_some hentry with ⟨rfl, rfl⟩ | ⟨_, hold⟩
  . exact ⟨rfl, hid, sequence, rfl⟩
  . exact hevents key entry hold

theorem appendEvent_isLog (hlog : IsLog events job.jobId log) (hevents : EventsInv events)
    (hid : ColonFree job.jobId) (happend : appendEvent events job previous = .ok events')
    : IsLog events' job.jobId (log ++ [nextEvent job previous log]) := by
  obtain ⟨hlt, rfl⟩ := appendEvent_ok job hlog hevents hid happend
  have hfresh := hlog.fresh hevents hid hlt
  refine ⟨by simpa using hlt, ?_, ?_, ?_⟩
  . intro i event hget
    rcases Nat.lt_trichotomy i log.length with hi | hi | hi
    . rw [List.getElem?_append_left hi] at hget
      exact hlog.ids i event hget
    . subst hi
      simp only [List.getElem?_concat_length, Option.some.injEq] at hget
      subst hget
      exact ⟨rfl, rfl⟩
    . rw [List.getElem?_eq_none (by simpa using hi)] at hget
      cases hget
  . intro event hmem
    rcases List.mem_append.mp hmem with hmem | hmem
    . obtain ⟨entry, hentry, heq⟩ := hlog.stored event hmem
      refine ⟨entry, ?_, heq⟩
      rw [Table.getElem?_insert_ne, hentry]
      intro hkey
      rw [← hkey, hfresh] at hentry
      cases hentry
    . rw [List.mem_singleton] at hmem
      subst hmem
      refine ⟨_, ?_, rfl⟩
      exact Std.ExtTreeMap.getElem?_insert_self
  . intro key entry hentry hjob
    rcases Table.getElem?_insert_some hentry with ⟨_, rfl⟩ | ⟨_, hold⟩
    . simp
    . exact List.mem_append_left _ (hlog.complete key entry hold hjob)

theorem appendEvent_isLog_ne (hevents : EventsInv events) (hid : ColonFree job.jobId)
    (happend : appendEvent events job previous = .ok events') {jobId : String}
    (hne : job.jobId ≠ jobId) {log' : List OutboundEvent} (hlog' : IsLog events jobId log')
    : IsLog events' jobId log' := by
  obtain ⟨sequence, _, rfl⟩ := appendEvent_cases happend
  refine ⟨hlog'.length_lt, hlog'.ids, ?_, ?_⟩
  . intro event hmem
    obtain ⟨entry, hentry, heq⟩ := hlog'.stored event hmem
    refine ⟨entry, ?_, heq⟩
    rw [Table.getElem?_insert_ne, hentry]
    -- The key of the new event belongs to another job.
    intro hkey
    obtain ⟨_, hfree, n, hn⟩ := hevents _ entry hentry
    rw [hn] at hkey
    obtain ⟨i, hi⟩ := List.getElem?_of_mem hmem
    have hjob := (hlog'.ids i event hi).2
    rw [← heq] at hjob
    exact hne ((eventId_inj hid hfree hkey).1.trans hjob)
  . intro key entry hentry hjob
    rcases Table.getElem?_insert_some hentry with ⟨_, rfl⟩ | ⟨_, hold⟩
    . exact absurd hjob hne
    . exact hlog'.complete key entry hold hjob

end Append

theorem acknowledge_eventsInv {events : Table String EventEntry} (hevents : EventsInv events)
    {key : String} {entry : EventEntry} (hentry : events[key]? = some entry)
    : EventsInv (events.insert key { entry with acknowledged := true }) := by
  intro key' entry' hget
  rcases Table.getElem?_insert_some hget with ⟨rfl, rfl⟩ | ⟨_, hold⟩
  . exact hevents key entry hentry
  . exact hevents key' entry' hold

theorem acknowledge_isLog {events : Table String EventEntry} {jobId key : String}
    {log : List OutboundEvent} (hlog : IsLog events jobId log) {entry : EventEntry}
    (hentry : events[key]? = some entry)
    : IsLog (events.insert key { entry with acknowledged := true }) jobId log := by
  refine ⟨hlog.length_lt, hlog.ids, ?_, ?_⟩
  . intro event hmem
    obtain ⟨entry', hentry', heq⟩ := hlog.stored event hmem
    rw [Table.getElem?_insert]
    split
    . next hkey =>
      rw [← hkey, hentry] at hentry'
      injection hentry' with hsame
      subst hsame
      exact ⟨_, rfl, heq⟩
    . exact ⟨entry', hentry', heq⟩
  . intro key' entry' hget hjob
    rcases Table.getElem?_insert_some hget with ⟨rfl, rfl⟩ | ⟨_, hold⟩
    . exact hlog.complete key entry hentry hjob
    . exact hlog.complete key' entry' hold hjob

end Tith
