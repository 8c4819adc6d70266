import Tith.Config.Parse
import Tith.Legacy.Calendar
import Tith.Lib.Except
import Tith.Lib.Machine

/-!
This module contains the scheduler: when the activations of the schedules begin and end.
-/

namespace Tith

def saturatingAdd (a b : Nat) : Nat := min (a + b) (2 ^ 64 - 1)

def saturatingMul (a b : Nat) : Nat := min (a * b) (2 ^ 64 - 1)

structure Activation where
  schedule : Nat
  beginning : Nat
  nominalEnd : Nat
  deriving DecidableEq, Repr

inductive ScheduleError where
  | missingLocalOffset
  | unrepresentableStart
  deriving DecidableEq, Repr

/--
The first nominal beginning: the Start time on the date at which the configuration took effect, in the zone of the
schedule.
-/
def firstBeginning (schedule : Config.Schedule) (effective : Nat) (offset : Int) : Except ScheduleError Nat :=
  let localTime := (effective : Int) + offset
  if 2 ^ 63 ≤ effective ∨ ¬(-2 ^ 63 ≤ localTime ∧ localTime < 2 ^ 63) then
    .error .unrepresentableStart
  else
    let civil := Legacy.civilFromLocal localTime
    let midnight := localTime - civil.hour * 3600 - civil.minute * 60 - civil.second
    -- The sum of the source overflows if the local time is on the last day that an `i64` can tell.
    let beginning := midnight + schedule.startMinutes.toNat * 60 - offset
    if 0 ≤ beginning then .ok beginning.toNat else .error .unrepresentableStart

namespace Scheduler

structure State where
  nextBeginning : Nat
  activeUntil : Option Nat
  deriving DecidableEq, Repr

def State.expire (state : State) (now : Nat) : State :=
  if state.activeUntil.any (· ≤ now) then { state with activeUntil := none } else state

/--
One schedule of a poll: its activation ends, and another one begins if one is due.
-/
def State.poll (schedule : Config.Schedule) (index : Nat) (state : State) (now : Nat) : State × Option Activation :=
  let state := state.expire now
  if state.activeUntil.isSome ∨ now < state.nextBeginning then
    (state, none)
  else
    let duration := saturatingMul schedule.durationMinutes.toNat 60
    let period := saturatingAdd duration (saturatingMul schedule.repeatAfterMinutes.toNat 60)
    let beginning :=
      if period = 0 then
        state.nextBeginning
      else
        state.nextBeginning + (now - state.nextBeginning) / period * period
    let nominalEnd := saturatingAdd beginning duration
    ({ nextBeginning := saturatingAdd beginning (max period 1)
       activeUntil := if now < nominalEnd then some nominalEnd else none },
      some { schedule := index, beginning, nominalEnd })

def State.wakeup (state : State) : Nat :=
  match state.activeUntil with
  | some stop => min stop state.nextBeginning
  | none => state.nextBeginning

end Scheduler

structure Scheduler where
  states : List Scheduler.State
  deriving DecidableEq, Repr

namespace Scheduler

def offsetOf (schedule : Config.Schedule) (localOffset : Option Int) : Except ScheduleError Int :=
  if schedule.startLocal then localOffset.okOr .missingLocalOffset else .ok 0

def firstState (effective : Nat) (localOffset : Option Int) (schedule : Config.Schedule) : Except ScheduleError State := do
  let offset ← offsetOf schedule localOffset
  let beginning ← firstBeginning schedule effective offset
  .ok { nextBeginning := beginning, activeUntil := none }

def new (schedules : List Config.Schedule) (effective : Nat) (localOffset : Option Int)
    : Except ScheduleError Scheduler := do
  let states ← schedules.mapM (firstState effective localOffset)
  .ok { states }

/--
Every schedule has a state at its index.
-/
def polled (schedules : List Config.Schedule) (scheduler : Scheduler) (now : Nat) : List (State × Option Activation) :=
  (schedules.zip scheduler.states).zipIdx.map fun ((schedule, state), index) => state.poll schedule index now

def poll (schedules : List Config.Schedule) (scheduler : Scheduler) (now : Nat) : List Activation × Scheduler :=
  let polled := scheduler.polled schedules now
  (polled.filterMap (·.2), { states := polled.map (·.1) })

def finished (scheduler : Scheduler) (activation : Activation) (now : Nat) : Scheduler :=
  { states := scheduler.states.modify activation.schedule (·.expire now) }

def nextBeginning (scheduler : Scheduler) (schedule : Nat) : Option Nat :=
  scheduler.states[schedule]?.map (·.nextBeginning)

def nextWakeup (scheduler : Scheduler) : Option Nat := (scheduler.states.map State.wakeup).min?

end Scheduler

/--
What happens to a scheduler.
-/
inductive Tick where
  | poll (now : Nat)
  | finished (activation : Activation) (now : Nat)

def Tick.now (tick : Tick) : Nat :=
  match tick with
  | .poll now | .finished _ now => now

def schedulerMachine (schedules : List Config.Schedule) (scheduler : Scheduler)
    : Machine Scheduler Tick (List Activation) where
  init := scheduler
  step s tick :=
    match tick with
    | .poll now => s.poll schedules now
    | .finished activation now => ([], s.finished activation now)

def begun (schedules : List Config.Schedule) (s : Scheduler) (tick : Tick) : List (Nat × Activation) :=
  match tick with
  | .poll now => (s.poll schedules now).1.map (now, ·)
  | .finished _ _ => []

namespace Config.Schedule

def duration (schedule : Schedule) : Nat := schedule.durationMinutes.toNat * 60

def period (schedule : Schedule) : Nat := schedule.duration + schedule.repeatAfterMinutes.toNat * 60

end Config.Schedule

section Accepted

open Config

/--
The parser refuses a repetition without an interval.
-/
structure RepeatsLater (state : SchedulesState) : Prop where
  output : ∀ schedule ∈ state.output, 0 < schedule.repeatAfterMinutes.toNat
  block : ∀ block ∈ state.block, ∀ minutes ∈ block.repeatAfterMinutes, minutes ≠ 0

theorem start_repeatAfter {block block' : ScheduleBlock} {line : Line} {values : List String}
    (h : start block line values = .ok block')
    : block'.repeatAfterMinutes = block.repeatAfterMinutes := by
  have hset {isLocal : Bool} {value : String}
      (h : (startTime "schedules" line.number value >>= fun minutes =>
        .ok { block with start := some (isLocal, minutes) }) = .ok block')
      : block'.repeatAfterMinutes = block.repeatAfterMinutes := by
    obtain ⟨_, _, h⟩ := Except.bind_ok_iff.mp h
    injection h with h
    rw [← h]
  unfold start at h
  dsimp only at h
  split at h
  . exact hset h
  . exact hset h
  . cases h

theorem scheduleDirective_repeatAfter {block block' : ScheduleBlock} {line : Line}
    (h : scheduleDirective block line = .ok block')
    : block'.repeatAfterMinutes = block.repeatAfterMinutes ∨ ∃ minutes ≠ 0, block'.repeatAfterMinutes = some minutes := by
  unfold scheduleDirective at h
  dsimp only at h
  split at h
  . split at h
    . cases h
    . obtain ⟨_, _, h⟩ := Except.bind_ok_iff.mp h
      injection h with h
      exact .inl (by rw [← h])
  . split at h
    . cases h
    . split at h
      . cases h
      . injection h with h
        exact .inl (by rw [← h])
  . unfold nextHop at h
    simp only [Except.bind_ok_iff, Prod.exists] at h
    obtain ⟨_, _, _, h⟩ := h
    split at h
    . cases h
    . injection h with h
      exact .inl (by rw [← h])
  . obtain ⟨_, _, h⟩ := Except.bind_ok_iff.mp h
    split at h
    . cases h
    . injection h with h
      exact .inl (by rw [← h])
  . split at h
    . cases h
    . exact .inl (start_repeatAfter h)
  . split at h
    . cases h
    . obtain ⟨_, _, h⟩ := Except.bind_ok_iff.mp h
      injection h with h
      exact .inl (by rw [← h])
  . split at h
    . cases h
    . obtain ⟨minutes, _, h⟩ := Except.bind_ok_iff.mp h
      split at h
      . cases h
      . next hne =>
        injection h with h
        exact .inr ⟨minutes, hne, by rw [← h]⟩
  . cases h

theorem repeatsLater_schedulesLine {state state' : SchedulesState} {line : Line}
    (hstate : RepeatsLater state) (h : schedulesLine state line = .ok state')
    : RepeatsLater state' := by
  unfold schedulesLine at h
  split at h
  . unfold scheduleStart at h
    split at h
    . split at h
      . cases h
      . injection h with h
        subst h
        refine ⟨hstate.output, ?_⟩
        intro block hblock minutes hminutes
        injection hblock with hblock
        rw [← hblock] at hminutes
        cases hminutes
    . cases h
  . next block hblock =>
    split at h
    . unfold scheduleEnd at h
      obtain ⟨_, _, h⟩ := Except.bind_ok_iff.mp h
      injection h with h
      subst h
      refine ⟨?_, nofun⟩
      intro schedule hschedule
      rcases List.mem_append.mp hschedule with hschedule | hschedule
      . exact hstate.output schedule hschedule
      . rw [List.mem_singleton.mp hschedule]
        dsimp only
        cases hminutes : block.repeatAfterMinutes with
        | none => exact Nat.one_pos
        | some minutes =>
          have hne := hstate.block block hblock minutes hminutes
          exact Nat.pos_of_ne_zero (fun hzero => hne (UInt64.toNat_inj.mp hzero))
    . obtain ⟨block', hdirective, h⟩ := Except.bind_ok_iff.mp h
      injection h with h
      subst h
      refine ⟨hstate.output, ?_⟩
      intro block'' hblock'' minutes hminutes
      injection hblock'' with hblock''
      rw [← hblock''] at hminutes
      rcases scheduleDirective_repeatAfter hdirective with hsame | ⟨minutes', hne, hsome⟩
      . rw [hsame] at hminutes
        exact hstate.block block hblock minutes hminutes
      . rw [hsome] at hminutes
        injection hminutes with hminutes
        exact hminutes ▸ hne

theorem repeatAfter_pos {text : String} {schedules : List Config.Schedule} (h : parseSchedules text = .ok schedules)
    : ∀ schedule ∈ schedules, 0 < schedule.repeatAfterMinutes.toNat := by
  unfold parseSchedules at h
  obtain ⟨lines, _, h⟩ := Except.bind_ok_iff.mp h
  obtain ⟨state, hstate, h⟩ := Except.bind_ok_iff.mp h
  split at h
  . cases h
  . injection h with h
    subst h
    have hstart : RepeatsLater ⟨[], none⟩ :=
      ⟨fun _ hmem => (List.not_mem_nil hmem).elim, fun _ hmem => (Option.not_mem_none _ hmem).elim⟩
    refine (Except.foldlM_invariant (P := RepeatsLater) ?_ hstart hstate).output
    intro line _ state state' hstate hline
    exact repeatsLater_schedulesLine hstate hline

end Accepted

section Poll

variable {schedule : Config.Schedule} {index now : Nat} {state state' : Scheduler.State}

namespace Scheduler.State

theorem expire_nextBeginning (state : State) (now : Nat) : (state.expire now).nextBeginning = state.nextBeginning := by
  unfold expire
  split <;> rfl

theorem expire_cases (state : State) (now : Nat)
    : state.expire now = { state with activeUntil := none } ∨ state.expire now = state := by
  unfold expire
  split
  . exact .inl rfl
  . exact .inr rfl

theorem expire_of_lt {now : Nat} (h : ∀ stop ∈ state.activeUntil, now < stop) : state.expire now = state := by
  unfold expire
  rw [if_neg]
  rw [Bool.not_eq_true, Option.any_eq_false]
  intro stop hstop
  rw [decide_eq_false_iff_not, not_le]
  exact h stop hstop

theorem expire_of_le {now : Nat} (h : ∀ stop ∈ state.activeUntil, stop ≤ now) : (state.expire now).activeUntil = none := by
  unfold expire
  cases hstop : state.activeUntil with
  | none => rw [if_neg (by simp), hstop]
  | some stop =>
    rw [if_pos]
    rw [Option.any_some, decide_eq_true_eq]
    exact h stop hstop

theorem poll_of_lt (schedule : Config.Schedule) (index : Nat) (h : now < state.nextBeginning)
    : state.poll schedule index now = (state.expire now, none) := by
  unfold poll
  dsimp only
  rw [expire_nextBeginning, if_pos (.inr h)]

theorem poll_of_le (index : Nat) (hactive : ∀ stop ∈ state.activeUntil, stop ≤ state.nextBeginning)
    (hrepeat : 0 < schedule.repeatAfterMinutes.toNat) (hbound : now + schedule.period < 2 ^ 64)
    (h : state.nextBeginning ≤ now)
    : ∃ turns, let beginning := state.nextBeginning + turns * schedule.period
        beginning ≤ now ∧ now < beginning + schedule.period ∧
          state.poll schedule index now =
            ({ nextBeginning := beginning + schedule.period
               activeUntil := if now < beginning + schedule.duration then some (beginning + schedule.duration) else none },
              some ⟨index, beginning, beginning + schedule.duration⟩) := by
  have hperiod : schedule.period = schedule.duration + schedule.repeatAfterMinutes.toNat * 60 := rfl
  have hduration : saturatingMul schedule.durationMinutes.toNat 60 = schedule.duration := by
    have hduration : schedule.duration = schedule.durationMinutes.toNat * 60 := rfl
    unfold saturatingMul
    omega
  have hsaturated : saturatingAdd schedule.duration (saturatingMul schedule.repeatAfterMinutes.toNat 60) =
      schedule.period := by
    unfold saturatingAdd saturatingMul
    omega
  have hpos : 0 < schedule.period := by omega
  refine ⟨(now - state.nextBeginning) / schedule.period, ?_⟩
  have hle := Nat.div_mul_le_self (now - state.nextBeginning) schedule.period
  have hlt := Nat.lt_div_mul_add (a := now - state.nextBeginning) hpos
  have hinactive := expire_of_le (fun stop hstop => (hactive stop hstop).trans h)
  dsimp only
  set beginning := state.nextBeginning + (now - state.nextBeginning) / schedule.period * schedule.period with hbeginning
  have hend : saturatingAdd beginning schedule.duration = beginning + schedule.duration := by
    unfold saturatingAdd
    omega
  have hnext : saturatingAdd beginning (max schedule.period 1) = beginning + schedule.period := by
    unfold saturatingAdd
    omega
  refine ⟨by omega, by omega, ?_⟩
  unfold poll
  dsimp only
  rw [expire_nextBeginning, hinactive, if_neg (by simp; omega), hduration, hsaturated, if_neg (by omega), ← hbeginning,
    hend, hnext]

end Scheduler.State

end Poll

section Run

variable {schedules : List Config.Schedule} {s : Scheduler} {now : Nat}

namespace Scheduler

theorem getElem?_polled_eq_some {index : Nat} {result : State × Option Activation}
    : (s.polled schedules now)[index]? = some result ↔ ∃ schedule state, schedules[index]? = some schedule ∧
        s.states[index]? = some state ∧ State.poll schedule index state now = result := by
  unfold polled
  rw [List.getElem?_map, List.getElem?_zipIdx, Option.map_map, Option.map_eq_some_iff]
  constructor
  . rintro ⟨⟨schedule, state⟩, hpair, hresult⟩
    rw [List.getElem?_zip_eq_some] at hpair
    rw [Function.comp_apply, Nat.zero_add] at hresult
    exact ⟨schedule, state, hpair.1, hpair.2, hresult⟩
  . rintro ⟨schedule, state, hschedule, hstate, hresult⟩
    refine ⟨(schedule, state), List.getElem?_zip_eq_some.mpr ⟨hschedule, hstate⟩, ?_⟩
    rw [Function.comp_apply, Nat.zero_add]
    exact hresult

theorem mem_poll {activation : Activation}
    : activation ∈ (s.poll schedules now).1 ↔ ∃ index schedule state, schedules[index]? = some schedule ∧
        s.states[index]? = some state ∧ (State.poll schedule index state now).2 = some activation := by
  unfold poll
  dsimp only
  rw [List.mem_filterMap]
  constructor
  . rintro ⟨result, hmem, hactivation⟩
    obtain ⟨index, hindex⟩ := List.mem_iff_getElem?.mp hmem
    obtain ⟨schedule, state, hschedule, hstate, rfl⟩ := getElem?_polled_eq_some.mp hindex
    exact ⟨index, schedule, state, hschedule, hstate, hactivation⟩
  . rintro ⟨index, schedule, state, hschedule, hstate, hactivation⟩
    exact ⟨_, List.mem_iff_getElem?.mpr ⟨index, getElem?_polled_eq_some.mpr ⟨schedule, state, hschedule, hstate, rfl⟩⟩,
      hactivation⟩

theorem getElem?_poll_eq_some {index : Nat} {state' : State}
    : (s.poll schedules now).2.states[index]? = some state' ↔ ∃ schedule state, schedules[index]? = some schedule ∧
        s.states[index]? = some state ∧ (State.poll schedule index state now).1 = state' := by
  unfold poll
  dsimp only
  rw [List.getElem?_map, Option.map_eq_some_iff]
  constructor
  . rintro ⟨result, hresult, hstate'⟩
    obtain ⟨schedule, state, hschedule, hstate, rfl⟩ := getElem?_polled_eq_some.mp hresult
    exact ⟨schedule, state, hschedule, hstate, hstate'⟩
  . rintro ⟨schedule, state, hschedule, hstate, hstate'⟩
    exact ⟨_, getElem?_polled_eq_some.mpr ⟨schedule, state, hschedule, hstate, rfl⟩, hstate'⟩

theorem length_poll (h : s.states.length = schedules.length)
    : (s.poll schedules now).2.states.length = schedules.length := by
  unfold poll polled
  rw [List.length_map, List.length_map, List.length_zipIdx, List.length_zip, h, Nat.min_self]

theorem State.schedule_of_poll {schedule : Config.Schedule} {index : Nat} {state : State} {activation : Activation}
    (h : (State.poll schedule index state now).2 = some activation)
    : activation.schedule = index := by
  unfold State.poll at h
  dsimp only at h
  split at h
  . cases h
  . injection h with h
    rw [← h]

theorem pairwise_poll : (s.poll schedules now).1.Pairwise fun a b => a.schedule ≠ b.schedule := by
  -- A poll reports at most one activation of a schedule.
  unfold poll
  dsimp only
  rw [List.pairwise_filterMap, List.pairwise_iff_getElem]
  intro i j hi hj hlt a ha b hb
  obtain ⟨_, _, _, _, hpollI⟩ := getElem?_polled_eq_some.mp (List.getElem?_eq_getElem hi)
  obtain ⟨_, _, _, _, hpollJ⟩ := getElem?_polled_eq_some.mp (List.getElem?_eq_getElem hj)
  rw [← hpollI] at ha
  rw [← hpollJ] at hb
  rw [State.schedule_of_poll ha, State.schedule_of_poll hb]
  omega

end Scheduler

variable {effective : Nat} {localOffset : Option Int} {log : List (Nat × Activation)}

def StartsAt (effective : Nat) (localOffset : Option Int) (schedule : Config.Schedule) (first : Nat) : Prop :=
  ∃ offset, Scheduler.offsetOf schedule localOffset = .ok offset ∧ firstBeginning schedule effective offset = .ok first

/--
An activation that a poll reports is the latest one of its schedule that has begun by then.
-/
def OnTime (schedules : List Config.Schedule) (effective : Nat) (localOffset : Option Int) (now : Nat)
    (activation : Activation) : Prop :=
  ∃ schedule first turns, schedules[activation.schedule]? = some schedule ∧
    StartsAt effective localOffset schedule first ∧ activation.beginning = first + turns * schedule.period ∧
      activation.nominalEnd = activation.beginning + schedule.duration ∧ activation.beginning ≤ now ∧
        now < first + (turns + 1) * schedule.period

/--
An activation that is reported after another one of its schedule begins later, and not before that one has ended.
-/
def Follows (earlier later : Nat × Activation) : Prop :=
  earlier.2.schedule = later.2.schedule →
    earlier.2.beginning < later.2.beginning ∧ earlier.2.nominalEnd ≤ later.1

/--
The clock of a schedule stands at one of its beginnings, behind the activation that is open and all that it reported.
-/
structure Clocked (effective : Nat) (localOffset : Option Int) (log : List (Nat × Activation)) (index : Nat)
    (schedule : Config.Schedule) (state : Scheduler.State) : Prop where
  member : ∃ first turns, StartsAt effective localOffset schedule first ∧
    state.nextBeginning = first + turns * schedule.period
  active : ∀ stop ∈ state.activeUntil, stop ≤ state.nextBeginning
  behind : ∀ entry ∈ log, entry.2.schedule = index → entry.2.beginning + schedule.period ≤ state.nextBeginning

structure Timed (schedules : List Config.Schedule) (effective : Nat) (localOffset : Option Int)
    (log : List (Nat × Activation)) (s : Scheduler) : Prop where
  length : s.states.length = schedules.length
  clocked : ∀ index schedule state, schedules[index]? = some schedule → s.states[index]? = some state →
    Clocked effective localOffset log index schedule state
  onTime : ∀ entry ∈ log, OnTime schedules effective localOffset entry.1 entry.2
  follows : log.Pairwise Follows

theorem timed_new (h : Scheduler.new schedules effective localOffset = .ok s)
    : Timed schedules effective localOffset [] s := by
  unfold Scheduler.new at h
  obtain ⟨states, hstates, h⟩ := Except.bind_ok_iff.mp h
  injection h with h
  subst h
  have hall := Except.mapM_forall₂ hstates
  refine ⟨hall.length_eq.symm, ?_, by simp, .nil⟩
  intro index schedule state hschedule hstate
  obtain ⟨hscheduleLt, rfl⟩ := List.getElem?_eq_some_iff.mp hschedule
  obtain ⟨hstateLt, rfl⟩ := List.getElem?_eq_some_iff.mp hstate
  have hfirst := hall.get hscheduleLt hstateLt
  unfold Scheduler.firstState at hfirst
  simp only [Except.bind_ok_iff] at hfirst
  obtain ⟨offset, hoffset, first, hbeginning, heq⟩ := hfirst
  injection heq with heq
  rw [List.get_eq_getElem] at heq
  rw [← heq]
  exact ⟨⟨first, 0, ⟨offset, hoffset, hbeginning⟩, by rw [Nat.zero_mul, Nat.add_zero]⟩, by simp, by simp⟩

theorem Clocked.expire {index : Nat} {schedule : Config.Schedule} {state : Scheduler.State}
    (h : Clocked effective localOffset log index schedule state) (now : Nat)
    : Clocked effective localOffset log index schedule (state.expire now) := by
  obtain ⟨hmember, hactive, hbehind⟩ := h
  constructor
  . rw [Scheduler.State.expire_nextBeginning]
    exact hmember
  . rw [Scheduler.State.expire_nextBeginning]
    rcases Scheduler.State.expire_cases state now with heq | heq
    . rw [heq]
      exact nofun
    . rw [heq]
      exact hactive
  . rw [Scheduler.State.expire_nextBeginning]
    exact hbehind

theorem timed_finished (h : Timed schedules effective localOffset log s) (activation : Activation) (now : Nat)
    : Timed schedules effective localOffset log (s.finished activation now) := by
  obtain ⟨hlength, hclocked, honTime, hfollows⟩ := h
  refine ⟨by rw [Scheduler.finished, List.length_modify, hlength], ?_, honTime, hfollows⟩
  intro index schedule state hschedule hstate
  unfold Scheduler.finished at hstate
  dsimp only at hstate
  rw [List.getElem?_modify, Option.map_eq_map, Option.map_eq_some_iff] at hstate
  obtain ⟨state, hstate, rfl⟩ := hstate
  have hclock := hclocked index schedule state hschedule hstate
  split
  . exact hclock.expire now
  . exact hclock

theorem Clocked.poll {index : Nat} {schedule : Config.Schedule} {state : Scheduler.State}
    (h : Clocked effective localOffset log index schedule state) (hrepeat : 0 < schedule.repeatAfterMinutes.toNat)
    (hbound : now + schedule.period < 2 ^ 64)
    : Clocked effective localOffset
          (log ++ (Scheduler.State.poll schedule index state now).2.toList.map (now, ·)) index schedule
          (Scheduler.State.poll schedule index state now).1 ∧
        ∀ activation, (Scheduler.State.poll schedule index state now).2 = some activation →
          (state.nextBeginning ≤ activation.beginning ∧ state.nextBeginning ≤ now) ∧
            ∃ first turns, StartsAt effective localOffset schedule first ∧
              activation.beginning = first + turns * schedule.period ∧
                activation.nominalEnd = activation.beginning + schedule.duration ∧ activation.beginning ≤ now ∧
                  now < first + (turns + 1) * schedule.period := by
  rcases Nat.lt_or_ge now state.nextBeginning with hlt | hle
  . rw [Scheduler.State.poll_of_lt schedule index hlt]
    refine ⟨?_, nofun⟩
    rw [Option.toList_none, List.map_nil, List.append_nil]
    exact h.expire now
  . obtain ⟨⟨first, turns, hstarts, hmember⟩, hactive, hbehind⟩ := h
    obtain ⟨more, hlow, hhigh, hpoll⟩ := Scheduler.State.poll_of_le index hactive hrepeat hbound hle
    have hperiod : schedule.period = schedule.duration + schedule.repeatAfterMinutes.toNat * 60 := rfl
    have hbeginning : state.nextBeginning + more * schedule.period = first + (turns + more) * schedule.period := by
      rw [hmember, Nat.add_mul, Nat.add_assoc]
    have hnext : state.nextBeginning + more * schedule.period + schedule.period =
        first + (turns + more + 1) * schedule.period := by
      rw [hbeginning, Nat.add_mul _ 1, Nat.one_mul, Nat.add_assoc]
    rw [hpoll]
    constructor
    . refine ⟨⟨first, turns + more + 1, hstarts, hnext⟩, ?_, ?_⟩
      . intro stop hstop
        dsimp only at hstop ⊢
        split at hstop
        . injection hstop with hstop
          omega
        . cases hstop
      . intro entry hentry hindex
        rcases List.mem_append.mp hentry with hentry | hentry
        . have hold := hbehind entry hentry hindex
          dsimp only
          omega
        . rw [Option.toList_some, List.map_singleton, List.mem_singleton] at hentry
          rw [hentry]
    . intro activation hactivation
      injection hactivation with hactivation
      subst hactivation
      dsimp only
      refine ⟨⟨by omega, hle⟩, first, turns + more, hstarts, hbeginning, rfl, hlow, ?_⟩
      rw [← hnext]
      exact hhigh

theorem timed_poll (hrepeat : ∀ schedule ∈ schedules, 0 < schedule.repeatAfterMinutes.toNat)
    (hbound : ∀ schedule ∈ schedules, now + schedule.period < 2 ^ 64)
    (h : Timed schedules effective localOffset log s)
    : Timed schedules effective localOffset (log ++ (s.poll schedules now).1.map (now, ·)) (s.poll schedules now).2 := by
  obtain ⟨hlength, hclocked, honTime, hfollows⟩ := h
  have hown {index : Nat} {schedule : Config.Schedule} {state : Scheduler.State}
      (hschedule : schedules[index]? = some schedule) (hstate : s.states[index]? = some state)
      {activation : Activation} (hmem : activation ∈ (s.poll schedules now).1) (hindex : activation.schedule = index)
      : (Scheduler.State.poll schedule index state now).2 = some activation := by
    obtain ⟨index', schedule', state', hschedule', hstate', hpoll⟩ := Scheduler.mem_poll.mp hmem
    rw [Scheduler.State.schedule_of_poll hpoll] at hindex
    subst hindex
    rw [hschedule] at hschedule'
    rw [hstate] at hstate'
    injection hschedule' with hschedule'
    injection hstate' with hstate'
    rw [hschedule', hstate']
    exact hpoll
  refine ⟨Scheduler.length_poll hlength, ?_, ?_, ?_⟩
  . intro index schedule state' hschedule hstate'
    obtain ⟨schedule', state, hschedule', hstate, rfl⟩ := Scheduler.getElem?_poll_eq_some.mp hstate'
    rw [hschedule] at hschedule'
    injection hschedule' with hschedule'
    subst hschedule'
    obtain ⟨hstep, _⟩ := (hclocked index schedule state hschedule hstate).poll
      (hrepeat schedule (List.mem_of_getElem? hschedule)) (hbound schedule (List.mem_of_getElem? hschedule))
    obtain ⟨hmember, hactive, hbehind⟩ := hstep
    refine ⟨hmember, hactive, ?_⟩
    intro entry hentry hindex
    rcases List.mem_append.mp hentry with hentry | hentry
    . exact hbehind entry (List.mem_append_left _ hentry) hindex
    . obtain ⟨activation, hmem, rfl⟩ := List.mem_map.mp hentry
      have hpoll := hown hschedule hstate hmem hindex
      refine hbehind (now, activation) (List.mem_append_right _ ?_) hindex
      rw [hpoll]
      exact List.mem_singleton.mpr rfl
  . intro entry hentry
    rcases List.mem_append.mp hentry with hentry | hentry
    . exact honTime entry hentry
    . obtain ⟨activation, hmem, rfl⟩ := List.mem_map.mp hentry
      obtain ⟨index, schedule, state, hschedule, hstate, hpoll⟩ := Scheduler.mem_poll.mp hmem
      obtain ⟨_, hreport⟩ := (hclocked index schedule state hschedule hstate).poll
        (hrepeat schedule (List.mem_of_getElem? hschedule)) (hbound schedule (List.mem_of_getElem? hschedule))
      obtain ⟨_, first, turns, hstarts, hbeginning, hend, hlow, hhigh⟩ := hreport activation hpoll
      rw [← Scheduler.State.schedule_of_poll hpoll] at hschedule
      exact ⟨schedule, first, turns, hschedule, hstarts, hbeginning, hend, hlow, hhigh⟩
  . rw [List.pairwise_append]
    refine ⟨hfollows, ?_, ?_⟩
    . rw [List.pairwise_map]
      refine Scheduler.pairwise_poll.imp ?_
      intro a b hne hsame
      exact absurd hsame hne
    . intro earlier hearlier later hlater hsame
      obtain ⟨activation, hmem, rfl⟩ := List.mem_map.mp hlater
      obtain ⟨index, schedule, state, hschedule, hstate, hpoll⟩ := Scheduler.mem_poll.mp hmem
      have hclock := hclocked index schedule state hschedule hstate
      have hpositive := hrepeat schedule (List.mem_of_getElem? hschedule)
      obtain ⟨_, hreport⟩ := hclock.poll hpositive (hbound schedule (List.mem_of_getElem? hschedule))
      obtain ⟨⟨hfrom, hdue⟩, _⟩ := hreport activation hpoll
      have hindex : earlier.2.schedule = index := hsame.trans (Scheduler.State.schedule_of_poll hpoll)
      have hbehind := hclock.behind earlier hearlier hindex
      obtain ⟨schedule', _, _, hschedule', _, _, hend, _⟩ := honTime earlier hearlier
      rw [hindex, hschedule] at hschedule'
      injection hschedule' with hschedule'
      subst hschedule'
      have hperiod : schedule.period = schedule.duration + schedule.repeatAfterMinutes.toNat * 60 := rfl
      constructor
      . show earlier.2.beginning < activation.beginning
        omega
      . show earlier.2.nominalEnd ≤ now
        omega

theorem poll_of_lt_wakeup {wakeup : Nat} (hlength : s.states.length = schedules.length)
    (hwakeup : s.nextWakeup = some wakeup) (h : now < wakeup)
    : s.poll schedules now = ([], s) := by
  have hquiet (index : Nat) (schedule : Config.Schedule) (state : Scheduler.State) (hstate : s.states[index]? = some state)
      : Scheduler.State.poll schedule index state now = (state, none) := by
    unfold Scheduler.nextWakeup at hwakeup
    have hle := (List.min?_eq_some_iff.mp hwakeup).2 state.wakeup
      (List.mem_map.mpr ⟨state, List.mem_of_getElem? hstate, rfl⟩)
    unfold Scheduler.State.wakeup at hle
    cases hactive : state.activeUntil with
    | none =>
      rw [hactive] at hle
      dsimp only at hle
      rw [Scheduler.State.poll_of_lt schedule index (by omega), Scheduler.State.expire_of_lt (by rw [hactive]; exact nofun)]
    | some stop =>
      rw [hactive] at hle
      dsimp only at hle
      rw [Scheduler.State.poll_of_lt schedule index (by omega), Scheduler.State.expire_of_lt]
      intro stop' hstop'
      rw [hactive] at hstop'
      injection hstop' with hstop'
      omega
  have hpolled : s.polled schedules now = s.states.map (·, none) := by
    apply List.ext_getElem?
    intro index
    rw [List.getElem?_map]
    cases hstate : s.states[index]? with
    | none =>
      rw [List.getElem?_eq_none_iff] at hstate
      rw [Option.map_none, List.getElem?_eq_none_iff]
      unfold Scheduler.polled
      rw [List.length_map, List.length_zipIdx, List.length_zip]
      omega
    | some state =>
      have hlt := (List.getElem?_eq_some_iff.mp hstate).1
      have hschedule := List.getElem?_eq_getElem (show index < schedules.length by omega)
      exact Scheduler.getElem?_polled_eq_some.mpr ⟨_, state, hschedule, hstate, hquiet index _ state hstate⟩
  have hreported : (s.states.map (·, (none : Option Activation))).filterMap (·.2) = [] := by
    rw [List.filterMap_map]
    exact List.filterMap_eq_nil_iff.mpr (fun _ _ => rfl)
  have hstates : (s.states.map (·, (none : Option Activation))).map (·.1) = s.states := by
    rw [List.map_map]
    exact List.map_id _
  unfold Scheduler.poll
  dsimp only
  rw [hpolled, hreported, hstates]

theorem lt_nextBeginning (hrepeat : ∀ schedule ∈ schedules, 0 < schedule.repeatAfterMinutes.toNat)
    (hbound : ∀ schedule ∈ schedules, now + schedule.period < 2 ^ 64)
    (h : Timed schedules effective localOffset log s) {activation : Activation}
    (hmem : activation ∈ (s.poll schedules now).1)
    : ∃ next, (s.poll schedules now).2.nextBeginning activation.schedule = some next ∧ now < next := by
  -- A schedule that began waits for a beginning that is still to come.
  obtain ⟨index, schedule, state, hschedule, hstate, hpoll⟩ := Scheduler.mem_poll.mp hmem
  have hafter : (s.poll schedules now).2.states[index]? = some (Scheduler.State.poll schedule index state now).1 :=
    Scheduler.getElem?_poll_eq_some.mpr ⟨schedule, state, hschedule, hstate, rfl⟩
  have hclock := h.clocked index schedule state hschedule hstate
  unfold Scheduler.nextBeginning
  rw [Scheduler.State.schedule_of_poll hpoll, hafter, Option.map_some]
  refine ⟨_, rfl, ?_⟩
  rcases Nat.lt_or_ge now state.nextBeginning with hlt | hle
  . rw [Scheduler.State.poll_of_lt schedule index hlt] at hpoll
    cases hpoll
  . obtain ⟨_, _, hhigh, heq⟩ := Scheduler.State.poll_of_le index hclock.active
      (hrepeat schedule (List.mem_of_getElem? hschedule)) (hbound schedule (List.mem_of_getElem? hschedule)) hle
    rw [heq]
    exact hhigh

theorem begins_of_le (hrepeat : ∀ schedule ∈ schedules, 0 < schedule.repeatAfterMinutes.toNat)
    (hbound : ∀ schedule ∈ schedules, now + schedule.period < 2 ^ 64)
    (h : Timed schedules effective localOffset log s) {index next : Nat} (hnext : s.nextBeginning index = some next)
    (hle : next ≤ now)
    : ∃ activation ∈ (s.poll schedules now).1, activation.schedule = index := by
  -- A beginning that is due is not passed over.
  unfold Scheduler.nextBeginning at hnext
  obtain ⟨state, hstate, rfl⟩ := Option.map_eq_some_iff.mp hnext
  have hlt := (List.getElem?_eq_some_iff.mp hstate).1
  rw [h.length] at hlt
  have hschedule := List.getElem?_eq_getElem hlt
  have hclock := h.clocked index _ state hschedule hstate
  obtain ⟨_, _, _, heq⟩ := Scheduler.State.poll_of_le index hclock.active
    (hrepeat _ (List.mem_of_getElem? hschedule)) (hbound _ (List.mem_of_getElem? hschedule)) hle
  exact ⟨_, Scheduler.mem_poll.mpr ⟨index, _, state, hschedule, hstate, by rw [heq]⟩, rfl⟩

theorem run_timed (hrepeat : ∀ schedule ∈ schedules, 0 < schedule.repeatAfterMinutes.toNat)
    (hnew : Scheduler.new schedules effective localOffset = .ok s) {ticks : List Tick}
    (hbounds : ∀ tick ∈ ticks, ∀ schedule ∈ schedules, tick.now + schedule.period < 2 ^ 64)
    : Timed schedules effective localOffset ((schedulerMachine schedules s).emitted (begun schedules) s ticks)
        ((schedulerMachine schedules s).run s ticks) := by
  apply Machine.emitted_along (begun schedules)
    (fun _ tick => ∀ schedule ∈ schedules, tick.now + schedule.period < 2 ^ 64)
    (Timed schedules effective localOffset)
  . intro past s tick hpast hbound
    cases tick with
    | poll now => exact timed_poll hrepeat hbound hpast
    | finished activation now =>
      show Timed _ _ _ (past ++ []) _
      rw [List.append_nil]
      exact timed_finished hpast activation now
  . exact timed_new hnew
  . exact Machine.along_of_forall _ hbounds _

end Run

def nightlyText : String := "Schedule nightly\nOrigin fidonet#1:2/3\nStart 02:00\nDuration 60\nRepeat-After 1380\nEnd\n"

def nightly : List Config.Schedule := ((Config.parseSchedules nightlyText).toOption).getD []

theorem parseSchedules_nightly : Config.parseSchedules nightlyText = .ok nightly := by
  have hok : (Config.parseSchedules nightlyText).isOk = true := by decide
  unfold nightly
  cases hparse : Config.parseSchedules nightlyText with
  | ok schedules => rfl
  | error e =>
    rw [hparse] at hok
    cases hok

end Tith
