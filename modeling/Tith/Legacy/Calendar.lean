import Tith.Legacy.Control

/-!
This module contains the civil dates of the legacy formats.
-/

namespace Tith

namespace Legacy

structure CivilTime where
  year : Int
  month : Nat
  day : Nat
  hour : Nat
  minute : Nat
  second : Nat
  deriving DecidableEq, Repr

def daysFromCivil (year : Int) (month day : Nat) : Int :=
  let year := year - (if month ≤ 2 then 1 else 0)
  let era := (if 0 ≤ year then year else year - 399).tdiv 400
  let yearOfEra := year - era * 400
  let dayOfYear := (153 * ((month : Int) + (if 2 < month then -3 else 9)) + 2).tdiv 5 + day - 1
  let dayOfEra := yearOfEra * 365 + yearOfEra.tdiv 4 - yearOfEra.tdiv 100 + dayOfYear
  era * 146097 + dayOfEra - 719468

def civilFromDays (days : Int) : Int × Nat × Nat :=
  let days := days + 719468
  let era := (if 0 ≤ days then days else days - 146096).tdiv 146097
  let dayOfEra := days - era * 146097
  let yearOfEra := (dayOfEra - dayOfEra.tdiv 1460 + dayOfEra.tdiv 36524 - dayOfEra.tdiv 146096).tdiv 365
  let year := yearOfEra + era * 400
  let dayOfYear := dayOfEra - (365 * yearOfEra + yearOfEra.tdiv 4 - yearOfEra.tdiv 100)
  let monthPrime := (5 * dayOfYear + 2).tdiv 153
  let day := dayOfYear - (153 * monthPrime + 2).tdiv 5 + 1
  let month := monthPrime + (if monthPrime < 10 then 3 else -9)
  let year := year + (if month ≤ 2 then 1 else 0)
  -- A year beyond an `i32` is replaced by the greatest one.
  (if -2 ^ 31 ≤ year ∧ year < 2 ^ 31 then year else 2 ^ 31 - 1, month.toNat, day.toNat)

def civilFromLocal (localSeconds : Int) : CivilTime :=
  let days := localSeconds / 86400
  let within := (localSeconds % 86400).toNat
  let (year, month, day) := civilFromDays days
  { year, month, day, hour := within / 3600, minute := within / 60 % 60, second := within % 60 }

def months : List (List Char) :=
  ["Jan", "Feb", "Mar", "Apr", "May", "Jun", "Jul", "Aug", "Sep", "Oct", "Nov", "Dec"].map String.toList

/--
`{:0width}` of a number.
-/
def padded (width n : Nat) : List Char :=
  let digits := Nat.toDigits 10 n
  List.replicate (width - digits.length) '0' ++ digits

def formatDateTime (localSeconds : Int) : Except ExportError (List Char) :=
  let time := civilFromLocal localSeconds
  if 1970 ≤ time.year ∧ time.year ≤ 2069 then
    let month := months.getD (time.month - 1) []
    .ok (padded 2 time.day ++ ' ' :: month ++ ' ' :: padded 2 (time.year.toNat % 100) ++ "  ".toList ++
      padded 2 time.hour ++ ':' :: padded 2 time.minute ++ ':' :: padded 2 time.second)
  else
    .error .timestampOutOfRange

def parseNumber (text : List Char) : Except ExportError Nat := (Text.digits? text).okOr .malformedDateTime

/--
Reads a canonical `DateTime` back. A canonical one is ASCII, and characters stand for bytes here.
-/
def parseDateTime (value : List Char) : Except ExportError Int :=
  if value.length ≠ 19 ∨ value[2]? ≠ some ' ' ∨ value[6]? ≠ some ' ' then
    .error .malformedDateTime
  else if (value.drop 9).take 2 ≠ "  ".toList ∨ value[13]? ≠ some ':' ∨ value[16]? ≠ some ':' then
    .error .malformedDateTime
  else do
    let day ← parseNumber (value.take 2)
    let month ← (months.findIdx? (· = (value.drop 3).take 3)).okOr .malformedDateTime
    let month := month + 1
    let twoDigitYear ← parseNumber ((value.drop 7).take 2)
    let year := if 70 ≤ twoDigitYear then 1900 + twoDigitYear else 2000 + twoDigitYear
    let hour ← parseNumber ((value.drop 11).take 2)
    let minute ← parseNumber ((value.drop 14).take 2)
    let second ← parseNumber ((value.drop 17).take 2)
    if day = 0 ∨ 23 < hour ∨ 59 < minute ∨ 59 < second then
      .error .malformedDateTime
    else
      let days := daysFromCivil year month day
      if civilFromDays days ≠ ((year : Int), month, day) then
        .error .malformedDateTime
      else
        .ok (days * 86400 + (hour : Int) * 3600 + (minute : Int) * 60 + second)

example : (formatDateTime 1767225599).bind parseDateTime = .ok 1767225599 := by decide

end Legacy

end Tith
