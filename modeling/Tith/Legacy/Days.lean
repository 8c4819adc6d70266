import Mathlib
import Tith.Legacy.Calendar

/-!
This module contains the proof that the conversions between days and civil dates are inverse to each
other. Years begin in March here, so that the leap day is the last one of its year.
-/

namespace Tith

namespace Legacy

section Era

/--
The years before a day of an era, as 365 times as many days and a rest.
-/
def shortened (dayOfEra : Nat) : Nat := dayOfEra - dayOfEra / 1460 + dayOfEra / 36524 - dayOfEra / 146096

def yearStart (yearOfEra : Nat) : Nat := 365 * yearOfEra + yearOfEra / 4 - yearOfEra / 100

def lastDay (yearOfEra : Nat) : Nat :=
  if (yearOfEra + 1) % 4 = 0 ∧ ((yearOfEra + 1) % 100 ≠ 0 ∨ (yearOfEra + 1) % 400 = 0) then 365 else 364

theorem shortened_mono : Monotone shortened := by
  apply monotone_nat_of_le_succ
  intro n
  unfold shortened
  omega

theorem shortened_bounds
    : ∀ year < 400, 365 * year ≤ shortened (yearStart year) ∧
        shortened (yearStart year + lastDay year) < 365 * (year + 1) := by
  decide +kernel

theorem yearOfEra_eq {year day : Nat} (hyear : year < 400) (hday : day ≤ lastDay year)
    : shortened (yearStart year + day) / 365 = year := by
  obtain ⟨hlow, hhigh⟩ := shortened_bounds year hyear
  have hstart := shortened_mono (Nat.le_add_right (yearStart year) day)
  have hend := shortened_mono (Nat.add_le_add_left hday (yearStart year))
  omega

theorem lastDay_le (year : Nat) : lastDay year ≤ 365 := by
  unfold lastDay
  split <;> omega

theorem yearEnd_lt : ∀ year < 400, yearStart year + lastDay year < 146097 := by decide +kernel

theorem yearStart_succ {year : Nat} (h : year < 399) : yearStart (year + 1) = yearStart year + lastDay year + 1 := by
  unfold yearStart lastDay
  split <;> omega

theorem exists_yearOfEra {dayOfEra : Nat} (h : dayOfEra < 146097)
    : ∃ year day, year < 400 ∧ day ≤ lastDay year ∧ dayOfEra = yearStart year + day := by
  induction dayOfEra with
  | zero => exact ⟨0, 0, by decide, by decide, by decide⟩
  | succ n ih =>
    obtain ⟨year, day, hyear, hday, hn⟩ := ih (by omega)
    by_cases hlast : day < lastDay year
    . exact ⟨year, day + 1, hyear, hlast, by omega⟩
    . have hnext : year < 399 := by
        by_contra hend
        have hyear : year = 399 := by omega
        subst hyear
        have hstart : yearStart 399 = 145731 := by decide
        have hlength : lastDay 399 = 365 := by decide
        omega
      refine ⟨year + 1, 0, by omega, Nat.zero_le _, ?_⟩
      rw [yearStart_succ hnext]
      omega

end Era

section Months

def monthStart (month : Nat) : Nat := (153 * month + 2) / 5

/--
The day lies in the month and in the year.
-/
def InMonth (month day : Nat) : Prop :=
  month < 12 ∧ monthStart month + day ≤ 365 ∧ (month < 11 → monthStart month + day < monthStart (month + 1))

theorem monthOfDay_eq {month day : Nat} (h : InMonth month day)
    : (5 * (monthStart month + day) + 2) / 153 = month := by
  obtain ⟨hmonth, hyear, hnext⟩ := h
  unfold monthStart at *
  omega

theorem exists_month {dayOfYear : Nat} (h : dayOfYear ≤ 365)
    : ∃ month day, InMonth month day ∧ dayOfYear = monthStart month + day := by
  refine ⟨(5 * dayOfYear + 2) / 153, dayOfYear - monthStart ((5 * dayOfYear + 2) / 153), ⟨?_, ?_, ?_⟩, ?_⟩
  . omega
  . unfold monthStart
    omega
  . unfold monthStart
    omega
  . unfold monthStart
    omega

end Months

section Civil

theorem tdiv_floor (a : Int) : (if 0 ≤ a then a else a - 146096).tdiv 146097 = a / 146097 := by
  split
  . next h => exact Int.tdiv_eq_ediv_of_nonneg h
  . have hneg : a - 146096 = -(146096 - a) := by omega
    rw [hneg, Int.neg_tdiv, Int.tdiv_eq_ediv_of_nonneg (by omega)]
    omega

theorem tdiv_floor_year (a : Int) : (if 0 ≤ a then a else a - 399).tdiv 400 = a / 400 := by
  split
  . next h => exact Int.tdiv_eq_ediv_of_nonneg h
  . have hneg : a - 399 = -(399 - a) := by omega
    rw [hneg, Int.neg_tdiv, Int.tdiv_eq_ediv_of_nonneg (by omega)]
    omega

/--
The month of the civil calendar, and the years that it lies behind the year that begins in March.
-/
def civilMonth (month : Nat) : Nat := if month < 10 then month + 3 else month - 9

def civilYear (era : Int) (year month : Nat) : Int := year + era * 400 + if month < 10 then 0 else 1

def clamped (year : Int) : Int := if -2 ^ 31 ≤ year ∧ year < 2 ^ 31 then year else 2 ^ 31 - 1

theorem civilFromDays_eq {era : Int} {year month day : Nat} (hyear : year < 400) (hmonth : InMonth month day)
    (hlast : monthStart month + day ≤ lastDay year)
    : civilFromDays (era * 146097 + (yearStart year + (monthStart month + day) : Nat) - 719468) =
        (clamped (civilYear era year month), civilMonth month, day + 1) := by
  -- The civil date of a day that is known by its era, its year and its month.
  have hend := yearEnd_lt year hyear
  have hyearOfEra := yearOfEra_eq hyear hlast
  have hmonthOfDay := monthOfDay_eq hmonth
  unfold civilFromDays
  dsimp only
  rw [tdiv_floor]
  have hera : (era * 146097 + (yearStart year + (monthStart month + day) : Nat) - 719468 + 719468) / 146097 = era := by
    omega
  have hday : era * 146097 + (yearStart year + (monthStart month + day) : Nat) - 719468 + 719468 - era * 146097 =
      (yearStart year + (monthStart month + day) : Nat) := by
    omega
  rw [hera, hday]
  generalize hn : yearStart year + (monthStart month + day) = n at *
  have hquot (k : Nat) : (n : Int).tdiv k = (n / k : Nat) := (Int.ofNat_tdiv n k).symm
  have hshort : (n : Int) - (n : Int).tdiv 1460 + (n : Int).tdiv 36524 - (n : Int).tdiv 146096 = (shortened n : Nat) := by
    have h1460 := hquot 1460
    have h36524 := hquot 36524
    have h146096 := hquot 146096
    push_cast at h1460 h36524 h146096
    rw [h1460, h36524, h146096]
    unfold shortened
    omega
  have hyears : (shortened n : Int).tdiv 365 = year := by
    have h365 := Int.ofNat_tdiv (shortened n) 365
    rw [hyearOfEra] at h365
    exact h365.symm
  rw [hshort, hyears]
  have hrest : (n : Int) - (365 * year + (year : Int).tdiv 4 - (year : Int).tdiv 100) = (monthStart month + day : Nat) := by
    have h4 := Int.ofNat_tdiv year 4
    have h100 := Int.ofNat_tdiv year 100
    push_cast at h4 h100
    rw [← h4, ← h100, ← hn]
    unfold yearStart
    omega
  rw [hrest]
  have hprime : (5 * ((monthStart month + day : Nat) : Int) + 2).tdiv 153 = month := by
    have h153 := Int.ofNat_tdiv (5 * (monthStart month + day) + 2) 153
    rw [hmonthOfDay] at h153
    push_cast at h153 ⊢
    exact h153.symm
  rw [hprime]
  have hstart : (153 * (month : Int) + 2).tdiv 5 = (monthStart month : Nat) := by
    have h5 := Int.ofNat_tdiv (153 * month + 2) 5
    push_cast at h5
    exact h5.symm
  rw [hstart]
  have hday : ((monthStart month + day : Nat) : Int) - (monthStart month : Nat) + 1 = (day + 1 : Nat) := by
    push_cast
    ring
  rw [hday]
  have hcivil : (month : Int) + (if (month : Int) < 10 then 3 else -9) = (civilMonth month : Nat) := by
    unfold civilMonth
    split <;> split <;> omega
  have hturn : (year : Int) + era * 400 + (if ((civilMonth month : Nat) : Int) ≤ 2 then 1 else 0) =
      civilYear era year month := by
    unfold civilYear civilMonth
    have hsmall := hmonth.1
    split <;> split <;> omega
  rw [hcivil, hturn, Int.toNat_natCast, Int.toNat_natCast]
  rfl

theorem daysFromCivil_eq {era : Int} {year month day : Nat} (hyear : year < 400) (hmonth : month < 12)
    : daysFromCivil (civilYear era year month) (civilMonth month) (day + 1) =
        era * 146097 + (yearStart year + (monthStart month + day) : Nat) - 719468 := by
  unfold daysFromCivil
  dsimp only
  have hturn : civilYear era year month - (if civilMonth month ≤ 2 then 1 else 0) = year + era * 400 := by
    unfold civilYear civilMonth
    split <;> split <;> omega
  rw [hturn, tdiv_floor_year]
  have hera : ((year : Int) + era * 400) / 400 = era := by omega
  have hrest : (year : Int) + era * 400 - era * 400 = year := by omega
  rw [hera, hrest]
  have hprime : ((civilMonth month : Nat) : Int) + (if 2 < civilMonth month then -3 else 9) = month := by
    unfold civilMonth
    split <;> split <;> omega
  rw [hprime]
  have hstart : (153 * (month : Int) + 2).tdiv 5 = (monthStart month : Nat) := by
    have h5 := Int.ofNat_tdiv (153 * month + 2) 5
    push_cast at h5
    exact h5.symm
  have h4 := Int.ofNat_tdiv year 4
  have h100 := Int.ofNat_tdiv year 100
  push_cast at h4 h100
  rw [hstart, ← h4, ← h100]
  unfold yearStart
  omega

end Civil

section Date

def isLeap (year : Int) : Bool := year % 4 = 0 && (year % 100 ≠ 0 || year % 400 = 0)

def monthLength (year : Int) (month : Nat) : Nat :=
  if month = 2 then (if isLeap year then 29 else 28) else if [4, 6, 9, 11].contains month then 30 else 31

/--
The dates of the proleptic Gregorian calendar.
-/
def IsDate (year : Int) (month day : Nat) : Prop :=
  1 ≤ month ∧ month ≤ 12 ∧ 1 ≤ day ∧ day ≤ monthLength year month

theorem lastDay_eq (era : Int) (year : Nat)
    : lastDay year = if isLeap (civilYear era year 11) then 365 else 364 := by
  unfold lastDay isLeap civilYear
  simp only [Bool.and_eq_true, Bool.or_eq_true, decide_eq_true_eq]
  congr 1
  rw [eq_iff_iff, if_neg (by decide)]
  omega

theorem monthLength_civilMonth (year : Int) {month : Nat} (h : month < 11)
    : monthStart month + monthLength year (civilMonth month) = monthStart (month + 1) := by
  interval_cases month <;> rfl

theorem monthLength_february (year : Int) : monthLength year (civilMonth 11) = if isLeap year then 29 else 28 := rfl

theorem isDate_civil {era : Int} {year month day : Nat} (hmonth : month < 12)
    : IsDate (civilYear era year month) (civilMonth month) (day + 1) ↔
        InMonth month day ∧ monthStart month + day ≤ lastDay year := by
  have hcivil : 1 ≤ civilMonth month ∧ civilMonth month ≤ 12 := by
    unfold civilMonth
    split <;> omega
  have hlast := lastDay_eq era year
  unfold IsDate InMonth
  rcases Nat.lt_or_ge month 11 with hlt | hge
  . have hlength := monthLength_civilMonth (civilYear era year month) hlt
    have hstart : monthStart (month + 1) ≤ 337 := by
      unfold monthStart
      omega
    have hlastDay : 364 ≤ lastDay year := by
      unfold lastDay
      split <;> omega
    omega
  . have hfebruary : month = 11 := by omega
    subst hfebruary
    rw [monthLength_february]
    have hstart : monthStart 11 = 337 := rfl
    split at hlast <;> simp_all <;> omega

theorem exists_civil (year : Int) {month : Nat} (hlow : 1 ≤ month) (hhigh : month ≤ 12)
    : ∃ era yearOfEra monthPrime, yearOfEra < 400 ∧ monthPrime < 12 ∧ year = civilYear era yearOfEra monthPrime ∧
        month = civilMonth monthPrime := by
  set turned := year - (if month ≤ 2 then 1 else 0) with hturned
  refine ⟨turned / 400, (turned % 400).toNat, if 2 < month then month - 3 else month + 9, ?_, ?_, ?_, ?_⟩
  . omega
  . split <;> omega
  . unfold civilYear
    rw [hturned]
    split <;> split <;> omega
  . unfold civilMonth
    split <;> split <;> omega

theorem civilFromDays_daysFromCivil {year : Int} {month day : Nat} (h : IsDate year month day)
    : civilFromDays (daysFromCivil year month day) = (clamped year, month, day) := by
  obtain ⟨era, yearOfEra, monthPrime, hyear, hmonth, rfl, rfl⟩ :=
    exists_civil year h.1 h.2.1
  obtain ⟨rest, rfl⟩ : ∃ rest, day = rest + 1 := ⟨day - 1, by have := h.2.2.1; omega⟩
  obtain ⟨hin, hlast⟩ := (isDate_civil hmonth).mp h
  rw [daysFromCivil_eq hyear hmonth, civilFromDays_eq hyear hin hlast]

theorem exists_date (days : Int) : ∃ year month day, IsDate year month day ∧ daysFromCivil year month day = days := by
  set era := (days + 719468) / 146097 with hera
  obtain ⟨year, dayOfYear, hyear, hlast, hday⟩ := exists_yearOfEra
    (show ((days + 719468) % 146097).toNat < 146097 by omega)
  obtain ⟨month, rest, hin, rfl⟩ := exists_month (hlast.trans (lastDay_le year))
  refine ⟨civilYear era year month, civilMonth month, rest + 1, (isDate_civil hin.1).mpr ⟨hin, hlast⟩, ?_⟩
  rw [daysFromCivil_eq hyear hin.1, ← hday]
  omega

def marchDays (year : Int) : Int := 365 * year + year / 4 - year / 100 + year / 400

theorem marchDays_lt {a b : Int} (h : a < b) : marchDays a + 365 ≤ marchDays b := by
  unfold marchDays
  omega

theorem exists_march {year : Int} {month day : Nat} (h : IsDate year month day)
    : ∃ turned : Int, ∃ passed : Nat, daysFromCivil year month day = marchDays turned + passed - 719468 ∧
        (year = turned ∧ passed < 306 ∨ year = turned + 1 ∧ 306 ≤ passed ∧ passed ≤ 365) := by
  obtain ⟨era, yearOfEra, monthPrime, hyear, hmonth, rfl, rfl⟩ :=
    exists_civil year h.1 h.2.1
  obtain ⟨rest, rfl⟩ : ∃ rest, day = rest + 1 := ⟨day - 1, by have := h.2.2.1; omega⟩
  obtain ⟨⟨_, hwithin, hnext⟩, _⟩ := (isDate_civil hmonth).mp h
  refine ⟨yearOfEra + era * 400, monthStart monthPrime + rest, ?_, ?_⟩
  . rw [daysFromCivil_eq hyear hmonth]
    unfold marchDays yearStart
    omega
  . unfold civilYear
    split
    . next hlt =>
      have hnext := hnext (by omega)
      left
      unfold monthStart at *
      omega
    . right
      unfold monthStart at *
      omega

theorem daysFromCivil_january (year : Int) : daysFromCivil year 1 1 = marchDays (year - 1) + 306 - 719468 := by
  obtain ⟨era, yearOfEra, monthPrime, hyear, hmonth, rfl, hjanuary⟩ :=
    exists_civil year (Nat.le_refl 1) (by decide)
  have hprime : monthPrime = 10 := by
    unfold civilMonth at hjanuary
    split at hjanuary <;> omega
  subst hprime
  have hdays := @daysFromCivil_eq era yearOfEra 10 0 hyear hmonth
  rw [← hjanuary] at hdays
  rw [hdays]
  unfold marchDays yearStart civilYear monthStart
  simp only [if_neg (show ¬10 < 10 by decide)]
  omega

theorem le_year_iff {year : Int} {month day : Nat} (h : IsDate year month day) (bound : Int)
    : bound ≤ year ↔ daysFromCivil bound 1 1 ≤ daysFromCivil year month day := by
  obtain ⟨turned, passed, hdays, hpassed⟩ := exists_march h
  rw [hdays, daysFromCivil_january]
  have hup : bound - 1 < turned → marchDays (bound - 1) + 365 ≤ marchDays turned := marchDays_lt
  have hdown : turned < bound - 1 → marchDays turned + 365 ≤ marchDays (bound - 1) := marchDays_lt
  have hsame : turned = bound - 1 → marchDays turned = marchDays (bound - 1) := congrArg marchDays
  omega

theorem year_bounds_iff {year : Int} {month day : Nat} (h : IsDate year month day)
    : 1970 ≤ year ∧ year ≤ 2069 ↔
        0 ≤ daysFromCivil year month day ∧ daysFromCivil year month day < 36525 := by
  have hlow := le_year_iff h 1970
  have hhigh := le_year_iff h 2070
  have hfirst : daysFromCivil 1970 1 1 = 0 := by decide
  have hend : daysFromCivil 2070 1 1 = 36525 := by decide
  omega

end Date

end Legacy

end Tith
