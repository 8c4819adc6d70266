import Tith.Legacy.Body
import Tith.Legacy.Days

/-!
This module contains the codec of the DateTime of a legacy message: its texts are those of the instants
of the years 1970 to 2069, each of one instant.
-/

namespace Tith

namespace Legacy

section Text

theorem padded_two : ∀ n < 100, (padded 2 n).length = 2 ∧ Text.digits? (padded 2 n) = some n := by decide

theorem padded_digits
    : ∀ i < 10, ∀ j < 10, Text.digits? [Nat.digitChar i, Nat.digitChar j] = some (10 * i + j) ∧
        padded 2 (10 * i + j) = [Nat.digitChar i, Nat.digitChar j] := by
  decide

theorem eq_padded_of_digits {text : List Char} {n : Nat} (hlength : text.length = 2) (h : Text.digits? text = some n)
    : n < 100 ∧ text = padded 2 n := by
  match text, hlength with
  | [a, b], _ =>
    have hdigits : a.isDigit = true ∧ b.isDigit = true := by
      unfold Text.digits? at h
      split at h
      . next hall => simpa using hall.2
      . cases h
    have hvalue {c : Char} (hc : c.isDigit = true) : ∃ i < 10, Nat.digitChar i = c := by
      refine ⟨c.toNat - '0'.toNat, ?_, Text.digitChar_of_isDigit hc⟩
      simp only [Char.isDigit, Bool.and_eq_true, decide_eq_true_eq] at hc
      have hhigh : c.toNat ≤ 57 := hc.2
      have hzero : '0'.toNat = 48 := rfl
      omega
    obtain ⟨i, hi, rfl⟩ := hvalue hdigits.1
    obtain ⟨j, hj, rfl⟩ := hvalue hdigits.2
    obtain ⟨hread, hpadded⟩ := padded_digits i hi j hj
    rw [hread] at h
    injection h with h
    exact ⟨by omega, by rw [← h, hpadded]⟩

theorem month_name
    : ∀ index < 12, (months.getD index []).length = 3 ∧ months.findIdx? (· = months.getD index []) = some index := by
  decide

theorem eq_month_of_findIdx {text : List Char} {index : Nat} (h : months.findIdx? (· = text) = some index)
    : index < 12 ∧ text = months.getD index [] := by
  obtain ⟨hbound, hfound, _⟩ := List.findIdx?_eq_some_iff_getElem.mp h
  have hlength : months.length = 12 := rfl
  refine ⟨by omega, ?_⟩
  rw [List.getD_eq_getElem _ _ hbound]
  exact (of_decide_eq_true hfound).symm

def dateTimeText (year : Int) (month day hour minute second : Nat) : List Char :=
  padded 2 day ++ ' ' :: months.getD (month - 1) [] ++ ' ' :: padded 2 (year.toNat % 100) ++ "  ".toList ++
    padded 2 hour ++ ':' :: padded 2 minute ++ ':' :: padded 2 second

/--
The text is the one of the instant, which lies in the years that two digits can tell.
-/
def IsDateTime (value : List Char) (instant : Int) : Prop :=
  ∃ year month day hour minute second, IsDate year month day ∧ 1970 ≤ year ∧ year ≤ 2069 ∧ hour < 24 ∧
    minute < 60 ∧ second < 60 ∧ value = dateTimeText year month day hour minute second ∧
    instant = daysFromCivil year month day * 86400 + (hour : Int) * 3600 + (minute : Int) * 60 + second

end Text

section Format

theorem clamped_eq {year : Int} (h : 1970 ≤ clamped year ∧ clamped year ≤ 2069) : clamped year = year := by
  unfold clamped at *
  split at h
  . next hrange => rw [if_pos hrange]
  . omega

theorem formatDateTime_iff {instant : Int} {value : List Char}
    : formatDateTime instant = .ok value ↔ IsDateTime value instant := by
  constructor
  . intro h
    obtain ⟨year, month, day, hdate, hdays⟩ := exists_date (instant / 86400)
    have hcivil := civilFromDays_daysFromCivil hdate
    rw [hdays] at hcivil
    unfold formatDateTime civilFromLocal at h
    dsimp only at h
    rw [hcivil] at h
    dsimp only at h
    split at h
    . next hrange =>
      injection h with h
      have hyear := clamped_eq hrange
      rw [hyear] at hrange h
      refine ⟨year, month, day, (instant % 86400).toNat / 3600, (instant % 86400).toNat / 60 % 60,
        (instant % 86400).toNat % 60, hdate, hrange.1, hrange.2, ?_, ?_, ?_, h.symm, ?_⟩
      . omega
      . omega
      . omega
      . rw [hdays]
        omega
    . cases h
  . rintro ⟨year, month, day, hour, minute, second, hdate, hlow, hhigh, hhour, hminute, hsecond, rfl, rfl⟩
    set days := daysFromCivil year month day with hdays
    have hday : (days * 86400 + (hour : Int) * 3600 + (minute : Int) * 60 + second) / 86400 = days := by omega
    have hwithin : ((days * 86400 + (hour : Int) * 3600 + (minute : Int) * 60 + second) % 86400).toNat =
        hour * 3600 + minute * 60 + second := by
      omega
    have hyear : clamped year = year := by
      unfold clamped
      rw [if_pos (by omega)]
    have hcivil := civilFromDays_daysFromCivil hdate
    rw [hyear] at hcivil
    unfold formatDateTime civilFromLocal
    dsimp only
    rw [hday, hwithin, hcivil]
    dsimp only
    have hhours : (hour * 3600 + minute * 60 + second) / 3600 = hour := by omega
    have hminutes : (hour * 3600 + minute * 60 + second) / 60 % 60 = minute := by omega
    have hseconds : (hour * 3600 + minute * 60 + second) % 60 = second := by omega
    rw [if_pos ⟨hlow, hhigh⟩, hhours, hminutes, hseconds]
    rfl

theorem day_lt {year : Int} {month day : Nat} (h : IsDate year month day) : day < 100 := by
  have hlast := h.2.2.2
  unfold monthLength at hlast
  split at hlast <;> (split at hlast <;> omega)

theorem text_of_isDateTime {value : List Char} {instant : Int} (h : IsDateTime value instant)
    : '\x00' ∉ value ∧ value.length = 19 := by
  -- The text of an instant has 19 characters, and no NUL.
  obtain ⟨year, month, day, hour, minute, second, hdate, _, _, hhour, hminute, hsecond, rfl, _⟩ := h
  have hpadded : ∀ n < 100, '\x00' ∉ padded 2 n ∧ (padded 2 n).length = 2 := by decide
  have hmonths : ∀ index < 12, '\x00' ∉ months.getD index [] ∧ (months.getD index []).length = 3 := by decide
  have hmonth := hmonths (month - 1) (by have := hdate.2.1; omega)
  have hday := hpadded day (day_lt hdate)
  have hyear := hpadded (year.toNat % 100) (by omega)
  have hhour := hpadded hour (by omega)
  have hminute := hpadded minute (by omega)
  have hsecond := hpadded second (by omega)
  unfold dateTimeText
  rw [List.getD_eq_getElem?_getD] at hmonth ⊢
  constructor
  . simp [hmonth.1, hday.1, hyear.1, hhour.1, hminute.1, hsecond.1]
  . simp [hmonth.2, hday.2, hyear.2, hhour.2, hminute.2, hsecond.2]

end Format

section Parse

theorem parseNumber_eq_ok {text : List Char} {n : Nat} : parseNumber text = .ok n ↔ Text.digits? text = some n :=
  Option.okOr_eq_ok

def fullYear (twoDigitYear : Nat) : Nat := if 70 ≤ twoDigitYear then 1900 + twoDigitYear else 2000 + twoDigitYear

theorem fullYear_bounds {twoDigitYear : Nat} (h : twoDigitYear < 100)
    : 1970 ≤ fullYear twoDigitYear ∧ fullYear twoDigitYear ≤ 2069 ∧ fullYear twoDigitYear % 100 = twoDigitYear := by
  unfold fullYear
  split <;> omega

theorem fullYear_mod {year : Nat} (hlow : 1970 ≤ year) (hhigh : year ≤ 2069) : fullYear (year % 100) = year := by
  unfold fullYear
  split <;> omega

theorem isDate_of_civil {year : Int} {month day : Nat} (hlow : 1970 ≤ year) (hhigh : year ≤ 2069)
    (h : civilFromDays (daysFromCivil year month day) = (year, month, day))
    : IsDate year month day := by
  obtain ⟨year', month', day', hdate, hdays⟩ := exists_date (daysFromCivil year month day)
  have hcivil := civilFromDays_daysFromCivil hdate
  rw [hdays, h, Prod.mk.injEq, Prod.mk.injEq] at hcivil
  obtain ⟨hyear, rfl, rfl⟩ := hcivil
  rw [hyear, clamped_eq (by omega)]
  exact hdate

/--
The parts of a date and a time, with what separates them.
-/
def layout (day month year hour minute second : List Char) : List Char :=
  day ++ ' ' :: (month ++ ' ' :: (year ++ ' ' :: ' ' :: (hour ++ ':' :: (minute ++ ':' :: second))))

theorem dateTimeText_eq (year : Int) (month day hour minute second : Nat)
    : dateTimeText year month day hour minute second =
        layout (padded 2 day) (months.getD (month - 1) []) (padded 2 (year.toNat % 100)) (padded 2 hour)
          (padded 2 minute) (padded 2 second) := by
  have hspaces : "  ".toList = [' ', ' '] := rfl
  unfold dateTimeText layout
  rw [hspaces]
  simp only [List.append_assoc, List.cons_append, List.nil_append]

def parseParts (dayText monthText yearText hourText minuteText secondText : List Char) : Except ExportError Int := do
  let day ← parseNumber dayText
  let month ← (months.findIdx? (· = monthText)).okOr .malformedDateTime
  let year ← parseNumber yearText
  let hour ← parseNumber hourText
  let minute ← parseNumber minuteText
  let second ← parseNumber secondText
  if day = 0 ∨ 23 < hour ∨ 59 < minute ∨ 59 < second then
    .error .malformedDateTime
  else
    let days := daysFromCivil (fullYear year : Nat) (month + 1) day
    if civilFromDays days ≠ (((fullYear year : Nat) : Int), month + 1, day) then
      .error .malformedDateTime
    else
      .ok (days * 86400 + (hour : Int) * 3600 + (minute : Int) * 60 + second)

variable {dayText monthText yearText hourText minuteText secondText : List Char} {instant : Int}

theorem isDateTime_of_parseParts (hday : dayText.length = 2) (hyear : yearText.length = 2) (hhour : hourText.length = 2)
    (hminute : minuteText.length = 2) (hsecond : secondText.length = 2)
    (h : parseParts dayText monthText yearText hourText minuteText secondText = .ok instant)
    : IsDateTime (layout dayText monthText yearText hourText minuteText secondText) instant := by
  unfold parseParts at h
  simp only [Except.bind_ok_iff, parseNumber_eq_ok, Option.okOr_eq_ok] at h
  obtain ⟨day, hdayRead, month, hmonthRead, year, hyearRead, hour, hhourRead, minute, hminuteRead, second,
    hsecondRead, h⟩ := h
  split at h
  . cases h
  . next hbounds =>
    simp only [not_or] at hbounds
    split at h
    . cases h
    . next hcivil =>
      injection h with h
      obtain ⟨_, rfl⟩ := eq_padded_of_digits hday hdayRead
      obtain ⟨hindex, rfl⟩ := eq_month_of_findIdx hmonthRead
      obtain ⟨hyearBound, rfl⟩ := eq_padded_of_digits hyear hyearRead
      obtain ⟨_, rfl⟩ := eq_padded_of_digits hhour hhourRead
      obtain ⟨_, rfl⟩ := eq_padded_of_digits hminute hminuteRead
      obtain ⟨_, rfl⟩ := eq_padded_of_digits hsecond hsecondRead
      obtain ⟨hlow, hhigh, hmod⟩ := fullYear_bounds hyearBound
      refine ⟨fullYear year, month + 1, day, hour, minute, second,
        isDate_of_civil (by omega) (by omega) (not_not.mp hcivil), by omega, by omega, by omega, by omega,
        by omega, ?_, h.symm⟩
      rw [dateTimeText_eq, Nat.add_sub_cancel, Int.toNat_natCast, hmod]

theorem exists_parts_of_isDateTime {value : List Char} (h : IsDateTime value instant)
    : ∃ dayText monthText yearText hourText minuteText secondText,
        value = layout dayText monthText yearText hourText minuteText secondText ∧ dayText.length = 2 ∧
          monthText.length = 3 ∧ yearText.length = 2 ∧ hourText.length = 2 ∧ minuteText.length = 2 ∧
          secondText.length = 2 ∧
          parseParts dayText monthText yearText hourText minuteText secondText = .ok instant := by
  obtain ⟨year, month, day, hour, minute, second, hdate, hlow, hhigh, hhour, hminute, hsecond, rfl, rfl⟩ := h
  obtain ⟨year, rfl⟩ := Int.eq_ofNat_of_zero_le (show 0 ≤ year by omega)
  have hfull : fullYear (year % 100) = year := fullYear_mod (by omega) (by omega)
  have hcivil := civilFromDays_daysFromCivil hdate
  obtain ⟨hdayLength, hdayRead⟩ := padded_two day (day_lt hdate)
  obtain ⟨hmonthLow, hmonthHigh, hdayLow, hdayHigh⟩ := hdate
  obtain ⟨hyearLength, hyearRead⟩ := padded_two (year % 100) (by omega)
  obtain ⟨hhourLength, hhourRead⟩ := padded_two hour (by omega)
  obtain ⟨hminuteLength, hminuteRead⟩ := padded_two minute (by omega)
  obtain ⟨hsecondLength, hsecondRead⟩ := padded_two second (by omega)
  obtain ⟨hmonthLength, hmonthRead⟩ := month_name (month - 1) (by omega)
  have hclamped : clamped (year : Int) = year := by
    unfold clamped
    rw [if_pos (by omega)]
  rw [hclamped] at hcivil
  refine ⟨_, _, _, _, _, _, dateTimeText_eq _ _ _ _ _ _, hdayLength, hmonthLength, hyearLength, hhourLength,
    hminuteLength, hsecondLength, ?_⟩
  unfold parseParts
  rw [Int.toNat_natCast]
  simp only [parseNumber_eq_ok.mpr hdayRead, parseNumber_eq_ok.mpr hyearRead, parseNumber_eq_ok.mpr hhourRead,
    parseNumber_eq_ok.mpr hminuteRead, parseNumber_eq_ok.mpr hsecondRead, hmonthRead, Option.okOr_some,
    Except.bind_of_ok]
  rw [hfull, Nat.sub_add_cancel hmonthLow, if_neg (by omega), if_neg (not_not.mpr hcivil)]

theorem parseDateTime_layout (hday : dayText.length = 2) (hmonth : monthText.length = 3)
    (hyear : yearText.length = 2) (hhour : hourText.length = 2) (hminute : minuteText.length = 2)
    (hsecond : secondText.length = 2)
    : parseDateTime (layout dayText monthText yearText hourText minuteText secondText) =
        parseParts dayText monthText yearText hourText minuteText secondText := by
  match dayText, hday, monthText, hmonth, yearText, hyear, hourText, hhour, minuteText, hminute, secondText,
    hsecond with
  | [d1, d2], _, [m1, m2, m3], _, [y1, y2], _, [h1, h2], _, [n1, n2], _, [s1, s2], _ =>
    unfold parseDateTime
    rw [if_neg (by simp [layout]), if_neg (by simp [layout])]
    rfl

theorem parseDateTime_iff {value : List Char} : parseDateTime value = .ok instant ↔ IsDateTime value instant := by
  constructor
  . intro h
    have hread := h
    unfold parseDateTime at h
    split at h
    . cases h
    . next hshape =>
      split at h
      . cases h
      . next hseparators =>
        simp only [not_or, not_not] at hshape hseparators
        obtain ⟨hlength, hfirst, hsecond⟩ := hshape
        obtain ⟨hspaces, hcolon, hcolon'⟩ := hseparators
        match value, hlength with
        | [c0, c1, c2, c3, c4, c5, c6, c7, c8, c9, c10, c11, c12, c13, c14, c15, c16, c17, c18], _ =>
          simp only [List.getElem?_cons_succ, List.getElem?_cons_zero, Option.some.injEq, List.drop_succ_cons,
            List.drop_zero, List.take_succ_cons, List.take_zero] at hfirst hsecond hspaces hcolon hcolon'
          obtain ⟨rfl, rfl, _⟩ : c9 = ' ' ∧ c10 = ' ' ∧ True := by
            injection hspaces with h9 hrest
            injection hrest with h10 _
            exact ⟨h9, h10, trivial⟩
          subst hfirst hsecond hcolon hcolon'
          have heq := @parseDateTime_layout [c0, c1] [c3, c4, c5] [c7, c8] [c11, c12] [c14, c15] [c17, c18] rfl rfl rfl
            rfl rfl rfl
          exact isDateTime_of_parseParts rfl rfl rfl rfl rfl (heq.symm.trans hread)
  . intro h
    obtain ⟨_, _, _, _, _, _, rfl, hday, hmonth, hyear, hhour, hminute, hsecond, hparts⟩ :=
      exists_parts_of_isDateTime h
    rw [parseDateTime_layout hday hmonth hyear hhour hminute hsecond, hparts]

end Parse

section Slices

/--
The text in front of a byte and the text from it on, if a character begins there or the text ends.
-/
def splitAtByte (offset : Nat) (text : List Char) : Option (List Char × List Char) :=
  match offset, text with
  | 0, text => some ([], text)
  | _ + 1, [] => none
  | offset + 1, c :: rest =>
    if c.utf8Size ≤ offset + 1 then
      (splitAtByte (offset + 1 - c.utf8Size) rest).map fun (front, back) => (c :: front, back)
    else
      none

def IsBoundary (text : List Char) (offset : Nat) : Prop := (splitAtByte offset text).isSome = true

/--
`&text[start..stop]`. There is nothing where the source panics.
-/
def slice (text : List Char) (start stop : Nat) : Option (List Char) := do
  let (front, _) ← splitAtByte stop text
  let (_, middle) ← splitAtByte start front
  some middle

/--
A function that may fail, and that panics where there is nothing.
-/
abbrev Slicing (α : Type) := ExceptT ExportError Option α

def Slicing.ofExcept (x : Except ExportError α) : Slicing α := ExceptT.mk (some x)

def Slicing.ofOption (x : Option α) : Slicing α := ExceptT.mk (x.map .ok)

def numberAt (value : List Char) (start stop : Nat) : Slicing Nat := do
  let text ← Slicing.ofOption (slice value start stop)
  Slicing.ofExcept (parseNumber text)

def monthAt (value : List Char) (start stop : Nat) : Slicing Nat := do
  let text ← Slicing.ofOption (slice value start stop)
  Slicing.ofExcept ((months.findIdx? (· = text)).okOr .malformedDateTime)

def parseDateTimeText (value : List Char) : Slicing Int :=
  let bytes := utf8 value
  if bytes.length ≠ 19 ∨ bytes[2]? ≠ some 32 ∨ bytes[6]? ≠ some 32 then
    Slicing.ofExcept (.error .malformedDateTime)
  else do
    let spaces ← Slicing.ofOption (slice value 9 11)
    if spaces ≠ "  ".toList ∨ bytes[13]? ≠ some 58 ∨ bytes[16]? ≠ some 58 then
      Slicing.ofExcept (.error .malformedDateTime)
    else do
      let day ← numberAt value 0 2
      let month ← monthAt value 3 6
      let month := month + 1
      let twoDigitYear ← numberAt value 7 9
      let year := if 70 ≤ twoDigitYear then 1900 + twoDigitYear else 2000 + twoDigitYear
      let hour ← numberAt value 11 13
      let minute ← numberAt value 14 16
      let second ← numberAt value 17 19
      if day = 0 ∨ 23 < hour ∨ 59 < minute ∨ 59 < second then
        Slicing.ofExcept (.error .malformedDateTime)
      else
        let days := daysFromCivil year month day
        if civilFromDays days ≠ ((year : Int), month, day) then
          Slicing.ofExcept (.error .malformedDateTime)
        else
          Slicing.ofExcept (.ok (days * 86400 + (hour : Int) * 3600 + (minute : Int) * 60 + second))

theorem utf8_append (a b : List Char) : utf8 (a ++ b) = utf8 a ++ utf8 b := by
  unfold utf8
  rw [Bytes.ofString_ofList, Bytes.ofString_ofList, Bytes.ofString_ofList, List.flatMap_append]

theorem utf8_cons (c : Char) (text : List Char) : utf8 (c :: text) = String.utf8EncodeChar c ++ utf8 text := by
  unfold utf8
  rw [Bytes.ofString_ofList, Bytes.ofString_ofList, List.flatMap_cons]

theorem length_utf8_cons (c : Char) (text : List Char) : (utf8 (c :: text)).length = c.utf8Size + (utf8 text).length := by
  rw [utf8_cons, List.length_append, String.length_utf8EncodeChar]

theorem splitAtByte_zero (text : List Char) : splitAtByte 0 text = some ([], text) := by
  cases text <;> rfl

theorem splitAtByte_append (a b : List Char) : splitAtByte (utf8 a).length (a ++ b) = some (a, b) := by
  induction a with
  | nil => exact splitAtByte_zero b
  | cons c a ih =>
    have hsize := Char.utf8Size_pos c
    obtain ⟨offset, hoffset⟩ : ∃ offset, c.utf8Size + (utf8 a).length = offset + 1 :=
      ⟨c.utf8Size + (utf8 a).length - 1, by omega⟩
    rw [length_utf8_cons, List.cons_append, hoffset]
    unfold splitAtByte
    rw [if_pos (by omega), ← hoffset, Nat.add_sub_cancel_left, ih]
    rfl

theorem splitAtByte_eq_some {text front back : List Char} {offset : Nat}
    (h : splitAtByte offset text = some (front, back))
    : text = front ++ back ∧ (utf8 front).length = offset := by
  induction text generalizing offset front with
  | nil =>
    cases offset with
    | zero =>
      injection h with h
      injection h with hfront hback
      subst hfront hback
      exact ⟨rfl, rfl⟩
    | succ offset => cases h
  | cons c text ih =>
    cases offset with
    | zero =>
      injection h with h
      injection h with hfront hback
      subst hfront hback
      exact ⟨rfl, rfl⟩
    | succ offset =>
      unfold splitAtByte at h
      split at h
      . next hsize =>
        obtain ⟨⟨front', back'⟩, hrest, heq⟩ := Option.map_eq_some_iff.mp h
        injection heq with hfront hback
        subst hfront hback
        obtain ⟨rfl, hlength⟩ := ih hrest
        refine ⟨rfl, ?_⟩
        rw [length_utf8_cons, hlength]
        omega
      . cases h

theorem exists_split_at_ascii {text : List Char} {offset : Nat} {byte : UInt8} (h : (utf8 text)[offset]? = some byte)
    (hbyte : byte.toNat < 128)
    : ∃ front c back, text = front ++ c :: back ∧ (utf8 front).length = offset ∧ c.toNat = byte.toNat := by
  -- A byte below 128 is a character of its own.
  induction text generalizing offset with
  | nil => cases h
  | cons c text ih =>
    rw [utf8_cons] at h
    rcases Nat.lt_or_ge offset (String.utf8EncodeChar c).length with hlt | hge
    . rw [List.getElem?_append_left hlt] at h
      have hvalue := Bytes.mem_utf8EncodeChar (List.mem_of_getElem? h) hbyte
      have hsize : c.utf8Size = 1 := by
        rw [Char.utf8Size_eq_one_iff, UInt32.le_iff_toNat_le]
        have hc : c.val.toNat = c.toNat := rfl
        have h127 : UInt32.toNat 127 = 127 := rfl
        omega
      rw [String.length_utf8EncodeChar, hsize] at hlt
      exact ⟨[], c, text, rfl, by rw [Nat.lt_one_iff.mp hlt]; rfl, hvalue.symm⟩
    . rw [List.getElem?_append_right hge] at h
      obtain ⟨front, c', back, rfl, hfront, hvalue⟩ := ih h
      refine ⟨c :: front, c', back, rfl, ?_, hvalue⟩
      rw [length_utf8_cons, hfront]
      rw [String.length_utf8EncodeChar] at hge ⊢
      omega

theorem slice_append {front middle back : List Char} {start stop : Nat} (hstart : (utf8 front).length = start)
    (hstop : start + (utf8 middle).length = stop)
    : slice (front ++ (middle ++ back)) start stop = some middle := by
  have hlength : (utf8 (front ++ middle)).length = stop := by
    rw [utf8_append, List.length_append]
    omega
  have hsplit := splitAtByte_append (front ++ middle) back
  rw [hlength, List.append_assoc] at hsplit
  have hsplit' := splitAtByte_append front middle
  rw [hstart] at hsplit'
  unfold slice
  rw [hsplit]
  simp [hsplit']

theorem exists_of_slice {text middle : List Char} {start stop : Nat} (h : slice text start stop = some middle)
    : ∃ front back, text = front ++ (middle ++ back) ∧ (utf8 front).length = start ∧
        start + (utf8 middle).length = stop := by
  unfold slice at h
  simp only [Option.bind_eq_bind, Option.bind_eq_some_iff, Option.some.injEq, Prod.exists] at h
  obtain ⟨front, back, hstop, front', middle', hstart, rfl⟩ := h
  obtain ⟨rfl, hlength⟩ := splitAtByte_eq_some hstop
  obtain ⟨rfl, hlength'⟩ := splitAtByte_eq_some hstart
  rw [utf8_append, List.length_append] at hlength
  exact ⟨front', back, List.append_assoc _ _ _, hlength', by omega⟩

theorem slice_eq_none_iff {text : List Char} {start stop : Nat} (h : start ≤ stop)
    : slice text start stop = none ↔ ¬(IsBoundary text start ∧ IsBoundary text stop) := by
  constructor
  . rintro hnone ⟨hstart, hstop⟩
    obtain ⟨⟨front, back⟩, hstart⟩ := Option.isSome_iff_exists.mp hstart
    obtain ⟨⟨front', back'⟩, hstop⟩ := Option.isSome_iff_exists.mp hstop
    obtain ⟨rfl, hlength⟩ := splitAtByte_eq_some hstart
    obtain ⟨heq, hlength'⟩ := splitAtByte_eq_some hstop
    obtain ⟨middle, hfront⟩ : ∃ middle, front' = front ++ middle := by
      rcases List.append_eq_append_iff.mp heq with ⟨middle, hfront, _⟩ | ⟨middle, hfront, _⟩
      . exact ⟨middle, hfront⟩
      . have hle := congrArg (fun l => (utf8 l).length) hfront
        rw [utf8_append, List.length_append] at hle
        have hmiddle : middle = [] := by
          have hshort := length_le_length_utf8 middle
          exact List.length_eq_zero_iff.mp (by omega)
        exact ⟨[], by rw [hfront, hmiddle]; simp⟩
    subst hfront
    rw [List.append_assoc, List.append_cancel_left_eq] at heq
    rw [heq, slice_append hlength] at hnone
    . cases hnone
    . rw [utf8_append, List.length_append] at hlength'
      omega
  . intro hboundary
    by_contra hsome
    obtain ⟨middle, hmiddle⟩ := Option.ne_none_iff_exists'.mp hsome
    obtain ⟨front, back, rfl, hstart, hstop⟩ := exists_of_slice hmiddle
    apply hboundary
    constructor
    . have hsplit := splitAtByte_append front (middle ++ back)
      rw [hstart] at hsplit
      unfold IsBoundary
      rw [hsplit]
      rfl
    . have hsplit := splitAtByte_append (front ++ middle) back
      rw [utf8_append, List.length_append, hstart, hstop, List.append_assoc] at hsplit
      unfold IsBoundary
      rw [hsplit]
      rfl

end Slices

section Run

variable {dayText monthText yearText hourText minuteText secondText : List Char} {instant : Int}

theorem length_utf8_of_isDigit {text : List Char} (h : text.all Char.isDigit = true)
    : (utf8 text).length = text.length := by
  induction text with
  | nil => rfl
  | cons c text ih =>
    rw [List.all_cons, Bool.and_eq_true] at h
    have hsize : c.utf8Size = 1 := by
      have hdigit := h.1
      simp only [Char.isDigit, Bool.and_eq_true, decide_eq_true_eq] at hdigit
      rw [Char.utf8Size_eq_one_iff]
      exact UInt32.le_trans hdigit.2 (by decide)
    rw [length_utf8_cons, hsize, ih h.2, List.length_cons, Nat.add_comm]

theorem length_utf8_of_digits {text : List Char} {n : Nat} (h : Text.digits? text = some n)
    : (utf8 text).length = text.length := by
  unfold Text.digits? at h
  split at h
  . next hdigits => exact length_utf8_of_isDigit hdigits.2
  . cases h

theorem length_utf8_month : ∀ index < 12, (utf8 (months.getD index [])).length = 3 := by decide

/--
The fields have the lengths of a date and a time, in bytes.
-/
structure FieldLengths (dayText monthText yearText hourText minuteText secondText : List Char) : Prop where
  day : (utf8 dayText).length = 2
  month : (utf8 monthText).length = 3
  year : (utf8 yearText).length = 2
  hour : (utf8 hourText).length = 2
  minute : (utf8 minuteText).length = 2
  second : (utf8 secondText).length = 2

theorem isDateTime_of_fieldLengths (hlengths : FieldLengths dayText monthText yearText hourText minuteText secondText)
    (h : parseParts dayText monthText yearText hourText minuteText secondText = .ok instant)
    : IsDateTime (layout dayText monthText yearText hourText minuteText secondText) instant := by
  have hread := h
  unfold parseParts at hread
  simp only [Except.bind_ok_iff, parseNumber_eq_ok, Option.okOr_eq_ok] at hread
  obtain ⟨day, hday, month, _, year, hyear, hour, hhour, minute, hminute, second, hsecond, _⟩ := hread
  refine isDateTime_of_parseParts ?_ ?_ ?_ ?_ ?_ h
  . rw [← length_utf8_of_digits hday, hlengths.day]
  . rw [← length_utf8_of_digits hyear, hlengths.year]
  . rw [← length_utf8_of_digits hhour, hlengths.hour]
  . rw [← length_utf8_of_digits hminute, hlengths.minute]
  . rw [← length_utf8_of_digits hsecond, hlengths.second]

theorem exists_fields_of_isDateTime {value : List Char} (h : IsDateTime value instant)
    : ∃ dayText monthText yearText hourText minuteText secondText,
        value = layout dayText monthText yearText hourText minuteText secondText ∧
          FieldLengths dayText monthText yearText hourText minuteText secondText ∧
          parseParts dayText monthText yearText hourText minuteText secondText = .ok instant := by
  obtain ⟨dayText, monthText, yearText, hourText, minuteText, secondText, rfl, hday, _, hyear, hhour, hminute, hsecond,
    hparts⟩ := exists_parts_of_isDateTime h
  have hread := hparts
  unfold parseParts at hread
  simp only [Except.bind_ok_iff, parseNumber_eq_ok, Option.okOr_eq_ok] at hread
  obtain ⟨_, hdayRead, _, hmonthRead, _, hyearRead, _, hhourRead, _, hminuteRead, _, hsecondRead, _⟩ := hread
  obtain ⟨hindex, rfl⟩ := eq_month_of_findIdx hmonthRead
  exact ⟨_, _, _, _, _, _, rfl, ⟨by rw [length_utf8_of_digits hdayRead, hday], length_utf8_month _ hindex,
    by rw [length_utf8_of_digits hyearRead, hyear], by rw [length_utf8_of_digits hhourRead, hhour],
    by rw [length_utf8_of_digits hminuteRead, hminute], by rw [length_utf8_of_digits hsecondRead, hsecond]⟩, hparts⟩

/--
Nineteen bytes with the two spaces that the source looks at first.
-/
def IsShaped (value : List Char) : Prop :=
  (utf8 value).length = 19 ∧ (utf8 value)[2]? = some 32 ∧ (utf8 value)[6]? = some 32

theorem utf8_layout
    : utf8 (layout dayText monthText yearText hourText minuteText secondText) =
        utf8 dayText ++ 32 :: (utf8 monthText ++ 32 :: (utf8 yearText ++ 32 :: 32 :: (utf8 hourText ++ 58 ::
          (utf8 minuteText ++ 58 :: utf8 secondText)))) := by
  have hspace : String.utf8EncodeChar ' ' = [32] := rfl
  have hcolon : String.utf8EncodeChar ':' = [58] := rfl
  unfold layout
  simp only [utf8_append, utf8_cons, hspace, hcolon, List.singleton_append]

theorem numberAt_eq {value text : List Char} {start stop : Nat} (h : slice value start stop = some text)
    : numberAt value start stop = Slicing.ofExcept (parseNumber text) := by
  unfold numberAt
  rw [h]
  rfl

theorem monthAt_eq {value text : List Char} {start stop : Nat} (h : slice value start stop = some text)
    : monthAt value start stop =
        Slicing.ofExcept ((months.findIdx? (· = text)).okOr .malformedDateTime) := by
  unfold monthAt
  rw [h]
  rfl

theorem Slicing.ofExcept_bind {α β : Type} (x : Except ExportError α) (f : α → Except ExportError β)
    : Slicing.ofExcept (x >>= f) = Slicing.ofExcept x >>= fun a => Slicing.ofExcept (f a) := by
  cases x <;> rfl

theorem Slicing.ofExcept_ite {α : Type} {p : Prop} [Decidable p] (x y : Except ExportError α)
    : Slicing.ofExcept (if p then x else y) = if p then Slicing.ofExcept x else Slicing.ofExcept y := by
  split <;> rfl

theorem Slicing.bind_ofOption_some {α β : Type} (a : α) (f : α → Slicing β)
    : (Slicing.ofOption (some a) >>= f) = f a := rfl

theorem isShaped_layout (hlengths : FieldLengths dayText monthText yearText hourText minuteText secondText)
    : IsShaped (layout dayText monthText yearText hourText minuteText secondText) := by
  obtain ⟨hday, hmonth, hyear, hhour, hminute, hsecond⟩ := hlengths
  unfold IsShaped
  rw [utf8_layout]
  obtain ⟨d1, d2, hday⟩ := List.length_eq_two.mp hday
  obtain ⟨m1, m2, m3, hmonth⟩ := List.length_eq_three.mp hmonth
  obtain ⟨y1, y2, hyear⟩ := List.length_eq_two.mp hyear
  rw [hday, hmonth, hyear]
  exact ⟨by simp [hhour, hminute, hsecond], rfl, rfl⟩

theorem colons_layout (hlengths : FieldLengths dayText monthText yearText hourText minuteText secondText)
    : (utf8 (layout dayText monthText yearText hourText minuteText secondText))[13]? = some 58 ∧
        (utf8 (layout dayText monthText yearText hourText minuteText secondText))[16]? = some 58 := by
  obtain ⟨hday, hmonth, hyear, hhour, hminute, hsecond⟩ := hlengths
  rw [utf8_layout]
  obtain ⟨d1, d2, hday⟩ := List.length_eq_two.mp hday
  obtain ⟨m1, m2, m3, hmonth⟩ := List.length_eq_three.mp hmonth
  obtain ⟨y1, y2, hyear⟩ := List.length_eq_two.mp hyear
  obtain ⟨h1, h2, hhour⟩ := List.length_eq_two.mp hhour
  obtain ⟨n1, n2, hminute⟩ := List.length_eq_two.mp hminute
  rw [hday, hmonth, hyear, hhour, hminute]
  exact ⟨rfl, rfl⟩

theorem parseDateTimeText_layout
    (hlengths : FieldLengths dayText monthText yearText hourText minuteText secondText)
    : parseDateTimeText (layout dayText monthText yearText hourText minuteText secondText) =
        Slicing.ofExcept (parseParts dayText monthText yearText hourText minuteText secondText) := by
  have hshape := isShaped_layout hlengths
  have hcolons := colons_layout hlengths
  obtain ⟨hday, hmonth, hyear, hhour, hminute, hsecond⟩ := hlengths
  have hnil : utf8 [] = [] := rfl
  have hspace : String.utf8EncodeChar ' ' = [32] := rfl
  have hcolon : String.utf8EncodeChar ':' = [58] := rfl
  have hpiece (start stop : Nat) (front middle back : List Char)
      (h : layout dayText monthText yearText hourText minuteText secondText = front ++ (middle ++ back))
      (hstart : (utf8 front).length = start) (hstop : start + (utf8 middle).length = stop)
      : slice (layout dayText monthText yearText hourText minuteText secondText) start stop = some middle := by
    rw [h]
    exact slice_append hstart hstop
  have hspaces : slice (layout dayText monthText yearText hourText minuteText secondText) 9 11 = some "  ".toList := by
    refine hpiece 9 11 (dayText ++ ' ' :: (monthText ++ ' ' :: yearText)) _
      (hourText ++ ':' :: (minuteText ++ ':' :: secondText)) ?_ ?_ rfl
    . simp [layout]
    . simp [utf8_append, utf8_cons, hspace, hday, hmonth, hyear]
  have hday' := hpiece 0 2 [] dayText _ rfl rfl (by rw [hday])
  have hmonth' : slice (layout dayText monthText yearText hourText minuteText secondText) 3 6 = some monthText := by
    refine hpiece 3 6 (dayText ++ [' ']) _ (' ' :: (yearText ++ ' ' :: ' ' :: (hourText ++ ':' ::
      (minuteText ++ ':' :: secondText)))) ?_ ?_ (by rw [hmonth])
    . simp [layout]
    . simp [utf8_append, utf8_cons, hnil, hspace, hday]
  have hyear' : slice (layout dayText monthText yearText hourText minuteText secondText) 7 9 = some yearText := by
    refine hpiece 7 9 (dayText ++ ' ' :: (monthText ++ [' '])) _ (' ' :: ' ' :: (hourText ++ ':' ::
      (minuteText ++ ':' :: secondText))) ?_ ?_ (by rw [hyear])
    . simp [layout]
    . simp [utf8_append, utf8_cons, hnil, hspace, hday, hmonth]
  have hhour' : slice (layout dayText monthText yearText hourText minuteText secondText) 11 13 = some hourText := by
    refine hpiece 11 13 (dayText ++ ' ' :: (monthText ++ ' ' :: (yearText ++ [' ', ' ']))) _
      (':' :: (minuteText ++ ':' :: secondText)) ?_ ?_ (by rw [hhour])
    . simp [layout]
    . simp [utf8_append, utf8_cons, hnil, hspace, hday, hmonth, hyear]
  have hminute' : slice (layout dayText monthText yearText hourText minuteText secondText) 14 16 = some minuteText := by
    refine hpiece 14 16 (dayText ++ ' ' :: (monthText ++ ' ' :: (yearText ++ ' ' :: ' ' :: (hourText ++ [':'])))) _
      (':' :: secondText) ?_ ?_ (by rw [hminute])
    . simp [layout]
    . simp [utf8_append, utf8_cons, hnil, hspace, hcolon, hday, hmonth, hyear, hhour]
  have hsecond' : slice (layout dayText monthText yearText hourText minuteText secondText) 17 19 = some secondText := by
    refine hpiece 17 19 (dayText ++ ' ' :: (monthText ++ ' ' :: (yearText ++ ' ' :: ' ' :: (hourText ++ ':' ::
      (minuteText ++ [':']))))) _ [] ?_ ?_ (by rw [hsecond])
    . simp [layout]
    . simp [utf8_append, utf8_cons, hnil, hspace, hcolon, hday, hmonth, hyear, hhour, hminute]
  obtain ⟨hlength, hfirst, hsecond⟩ := hshape
  unfold parseDateTimeText parseParts
  simp only
  rw [if_neg (not_or.mpr ⟨not_not.mpr hlength, not_or.mpr ⟨not_not.mpr hfirst, not_not.mpr hsecond⟩⟩), hspaces,
    numberAt_eq hday', monthAt_eq hmonth', numberAt_eq hyear', numberAt_eq hhour', numberAt_eq hminute',
    numberAt_eq hsecond']
  rw [Slicing.bind_ofOption_some,
    if_neg (not_or.mpr ⟨not_not.mpr rfl, not_or.mpr ⟨not_not.mpr hcolons.1, not_not.mpr hcolons.2⟩⟩)]
  simp only [Slicing.ofExcept_bind, Slicing.ofExcept_ite]
  rfl

theorem exists_split_at {text : List Char} {offset : Nat} (c : Char) {byte : UInt8} (hc : utf8 [c] = [byte])
    (hbyte : byte.toNat < 128) (h : (utf8 text)[offset]? = some byte)
    : ∃ front back, text = front ++ c :: back ∧ (utf8 front).length = offset ∧
        ∀ n, (utf8 text)[offset + 1 + n]? = (utf8 back)[n]? := by
  obtain ⟨front, c', back, rfl, hfront, hvalue⟩ := exists_split_at_ascii h hbyte
  have hmem : byte ∈ String.utf8EncodeChar c := by
    rw [utf8_cons] at hc
    have hempty : utf8 [] = [] := rfl
    rw [hempty, List.append_nil] at hc
    rw [hc]
    exact List.mem_singleton.mpr rfl
  have hsame : c' = c := by
    apply Char.toNat_inj.mp
    rw [hvalue, Bytes.mem_utf8EncodeChar hmem hbyte]
  subst hsame
  refine ⟨front, back, rfl, hfront, ?_⟩
  intro n
  have hcons : utf8 (c' :: back) = byte :: utf8 back := by
    rw [← List.singleton_append, utf8_append, hc, List.singleton_append]
  rw [utf8_append, hcons, List.getElem?_append_right (by omega)]
  have hindex : offset + 1 + n - (utf8 front).length = n + 1 := by omega
  rw [hindex, List.getElem?_cons_succ]

theorem exists_layout {value : List Char} (hshape : IsShaped value) (hspaces : slice value 9 11 = some "  ".toList)
    (hcolon : (utf8 value)[13]? = some 58) (hcolon' : (utf8 value)[16]? = some 58)
    : ∃ dayText monthText yearText hourText minuteText secondText,
        value = layout dayText monthText yearText hourText minuteText secondText ∧
          FieldLengths dayText monthText yearText hourText minuteText secondText := by
  -- The separators of a date and a time, wherever they stand for characters of their own, split the text into the
  -- fields.
  obtain ⟨hlength, hfirst, hsecond⟩ := hshape
  have hspace : utf8 [' '] = [32] := rfl
  have hcolons : utf8 [':'] = [58] := rfl
  have hninth : (utf8 value)[9]? = some 32 ∧ (utf8 value)[10]? = some 32 := by
    obtain ⟨front, back, rfl, hfront, _⟩ := exists_of_slice hspaces
    have htwo : utf8 "  ".toList = [32, 32] := rfl
    rw [utf8_append, utf8_append, htwo]
    constructor
    . rw [List.getElem?_append_right (by omega), hfront]
      rfl
    . rw [List.getElem?_append_right (by omega), hfront]
      rfl
  obtain ⟨day, rest, rfl, hday, hafter⟩ := exists_split_at ' ' hspace (by decide) hfirst
  rw [hafter 3] at hsecond
  rw [hafter 6, hafter 7] at hninth
  rw [hafter 10] at hcolon
  rw [hafter 13] at hcolon'
  obtain ⟨month, rest, rfl, hmonth, hafter⟩ := exists_split_at ' ' hspace (by decide) hsecond
  rw [hafter 2, hafter 3] at hninth
  rw [hafter 6] at hcolon
  rw [hafter 9] at hcolon'
  obtain ⟨year, rest, rfl, hyear, hafter⟩ := exists_split_at ' ' hspace (by decide) hninth.1
  have htenth := hninth.2
  rw [hafter 0] at htenth
  rw [hafter 3] at hcolon
  rw [hafter 6] at hcolon'
  obtain ⟨empty, rest, rfl, hempty, hafter⟩ := exists_split_at ' ' hspace (by decide) htenth
  rw [hafter 2] at hcolon
  rw [hafter 5] at hcolon'
  obtain ⟨hour, rest, rfl, hhour, hafter⟩ := exists_split_at ':' hcolons (by decide) hcolon
  rw [hafter 2] at hcolon'
  obtain ⟨minute, second, rfl, hminute, hafter⟩ := exists_split_at ':' hcolons (by decide) hcolon'
  have hnone : empty = [] := by
    have hshort := length_le_length_utf8 empty
    exact List.length_eq_zero_iff.mp (by omega)
  subst hnone
  refine ⟨day, month, year, hour, minute, second, rfl, hday, hmonth, hyear, hhour, hminute, ?_⟩
  have hbytes := congrArg List.length (@utf8_layout day month year hour minute second)
  simp only [List.length_append, List.length_cons] at hbytes
  unfold layout at hbytes
  rw [List.nil_append] at hlength
  omega

/--
What becomes of a text: it is not shaped, it has no slice between its date and its time, it is separated wrongly, or it
has the layout.
-/
theorem parseDateTimeText_cases (value : List Char)
    : (¬IsShaped value ∧ (parseDateTimeText value).run = some (.error .malformedDateTime)) ∨
        (IsShaped value ∧ slice value 9 11 = none ∧ (parseDateTimeText value).run = none) ∨
        (slice value 9 11 ≠ none ∧ (parseDateTimeText value).run = some (.error .malformedDateTime)) ∨
        (slice value 9 11 ≠ none ∧ ∃ dayText monthText yearText hourText minuteText secondText,
          value = layout dayText monthText yearText hourText minuteText secondText ∧
            FieldLengths dayText monthText yearText hourText minuteText secondText) := by
  by_cases hshape : IsShaped value
  . have hguard : ¬((utf8 value).length ≠ 19 ∨ (utf8 value)[2]? ≠ some 32 ∨ (utf8 value)[6]? ≠ some 32) := by
      simp only [not_or, not_not]
      exact hshape
    cases hslice : slice value 9 11 with
    | none =>
      refine .inr (.inl ⟨hshape, rfl, ?_⟩)
      unfold parseDateTimeText
      dsimp only
      rw [if_neg hguard, hslice]
      rfl
    | some spaces =>
      by_cases hseparated : spaces ≠ "  ".toList ∨ (utf8 value)[13]? ≠ some 58 ∨ (utf8 value)[16]? ≠ some 58
      . refine .inr (.inr (.inl ⟨Option.some_ne_none _, ?_⟩))
        unfold parseDateTimeText
        dsimp only
        rw [if_neg hguard, hslice, Slicing.bind_ofOption_some, if_pos hseparated]
        rfl
      . simp only [not_or, not_not] at hseparated
        obtain ⟨rfl, hcolon, hcolon'⟩ := hseparated
        exact .inr (.inr (.inr ⟨Option.some_ne_none _, exists_layout hshape hslice hcolon hcolon'⟩))
  . refine .inl ⟨hshape, ?_⟩
    unfold parseDateTimeText
    dsimp only
    rw [if_pos]
    . rfl
    . by_contra hguard
      simp only [not_or, not_not] at hguard
      exact hshape hguard

theorem parseDateTimeText_eq_none_iff (value : List Char)
    : (parseDateTimeText value).run = none ↔
        IsShaped value ∧ ¬(IsBoundary value 9 ∧ IsBoundary value 11) := by
  rw [← slice_eq_none_iff (show 9 ≤ 11 by decide)]
  rcases parseDateTimeText_cases value with ⟨hshape, hrun⟩ | ⟨hshape, hslice, hrun⟩ | ⟨hslice, hrun⟩ |
    ⟨hslice, _, _, _, _, _, _, rfl, hlengths⟩
  . rw [hrun]
    simp [hshape]
  . simp [hrun, hshape, hslice]
  . rw [hrun]
    simp [hslice]
  . rw [parseDateTimeText_layout hlengths]
    simp only [hslice, and_false, iff_false]
    rintro ⟨⟩

theorem parseDateTimeText_iff {value : List Char}
    : (parseDateTimeText value).run = some (.ok instant) ↔ IsDateTime value instant := by
  constructor
  . intro h
    rcases parseDateTimeText_cases value with ⟨_, hrun⟩ | ⟨_, _, hrun⟩ | ⟨_, hrun⟩ |
      ⟨_, _, _, _, _, _, _, rfl, hlengths⟩
    . rw [hrun] at h
      cases h
    . rw [hrun] at h
      cases h
    . rw [hrun] at h
      cases h
    . rw [parseDateTimeText_layout hlengths] at h
      injection h with h
      exact isDateTime_of_fieldLengths hlengths h
  . intro h
    obtain ⟨_, _, _, _, _, _, rfl, hlengths, hparts⟩ := exists_fields_of_isDateTime h
    rw [parseDateTimeText_layout hlengths, hparts]
    rfl

theorem exists_isDateTime_iff (instant : Int)
    : (∃ value, IsDateTime value instant) ↔ 0 ≤ instant ∧ instant < 36525 * 86400 := by
  -- The instants that have a text are those of the years that two digits can tell.
  constructor
  . rintro ⟨_, year, month, day, hour, minute, second, hdate, hlow, hhigh, hhour, hminute, hsecond, _, rfl⟩
    have hbounds := (year_bounds_iff hdate).mp ⟨hlow, hhigh⟩
    omega
  . intro hbounds
    obtain ⟨year, month, day, hdate, hdays⟩ := exists_date (instant / 86400)
    have hyear := (year_bounds_iff hdate).mpr (by omega)
    refine ⟨_, year, month, day, (instant % 86400).toNat / 3600, (instant % 86400).toNat / 60 % 60,
      (instant % 86400).toNat % 60, hdate, hyear.1, hyear.2, ?_, ?_, ?_, rfl, ?_⟩
    . omega
    . omega
    . omega
    . rw [hdays]
      omega

theorem formatDateTime_eq_error {instant : Int} (h : ¬∃ value, formatDateTime instant = .ok value)
    : formatDateTime instant = .error .timestampOutOfRange := by
  unfold formatDateTime at *
  dsimp only at *
  split
  . next hrange =>
    rw [if_pos hrange] at h
    exact absurd ⟨_, rfl⟩ h
  . rfl

/--
The texts that are read are those that are written, and reading panics exactly where a text is shaped and a character
lies across the ends of what separates the date from the time.
-/
theorem dateTime_codec (value : List Char)
    : (((∃ result, (parseDateTimeText value).run = some result) ∧
          ∀ instant, (parseDateTimeText value).run = some (.ok instant) → formatDateTime instant = .ok value) ↔
        (IsShaped value → IsBoundary value 9 ∧ IsBoundary value 11)) ∧
      (∀ instant, 0 ≤ instant → instant < 36525 * 86400 →
        ∃ value, formatDateTime instant = .ok value ∧ (parseDateTimeText value).run = some (.ok instant)) ∧
      (∀ instant, ¬(0 ≤ instant ∧ instant < 36525 * 86400) →
        formatDateTime instant = .error .timestampOutOfRange) ∧
      (∀ year month day, IsDate year month day → -2 ^ 31 ≤ year → year < 2 ^ 31 →
        civilFromDays (daysFromCivil year month day) = (year, month, day)) ∧
      (∀ days, daysFromCivil (-2 ^ 31) 1 1 ≤ days → days < daysFromCivil (2 ^ 31) 1 1 →
        ∃ year month day, civilFromDays days = (year, month, day) ∧ IsDate year month day ∧
          daysFromCivil year month day = days) := by
  refine ⟨?_, ?_, ?_, ?_, ?_⟩
  . constructor
    . rintro ⟨⟨result, hresult⟩, _⟩ hshape
      by_contra hboundary
      rw [(parseDateTimeText_eq_none_iff value).mpr ⟨hshape, hboundary⟩] at hresult
      cases hresult
    . intro hsliceable
      constructor
      . apply Option.ne_none_iff_exists'.mp
        intro hnone
        obtain ⟨hshape, hboundary⟩ := (parseDateTimeText_eq_none_iff value).mp hnone
        exact hboundary (hsliceable hshape)
      . intro instant hread
        exact formatDateTime_iff.mpr (parseDateTimeText_iff.mp hread)
  . intro instant hlow hhigh
    obtain ⟨value, hvalue⟩ := (exists_isDateTime_iff instant).mpr ⟨hlow, hhigh⟩
    exact ⟨value, formatDateTime_iff.mpr hvalue, parseDateTimeText_iff.mpr hvalue⟩
  . intro instant hrange
    apply formatDateTime_eq_error
    rintro ⟨value, hvalue⟩
    exact hrange ((exists_isDateTime_iff instant).mp ⟨value, formatDateTime_iff.mp hvalue⟩)
  . intro year month day hdate hlow hhigh
    have hcivil := civilFromDays_daysFromCivil hdate
    unfold clamped at hcivil
    rwa [if_pos ⟨hlow, hhigh⟩] at hcivil
  . intro days hlow hhigh
    obtain ⟨year, month, day, hdate, rfl⟩ := exists_date days
    have hcivil := civilFromDays_daysFromCivil hdate
    have hyear : ¬2 ^ 31 ≤ year := fun hle => absurd ((le_year_iff hdate _).mp hle) (not_le.mpr hhigh)
    unfold clamped at hcivil
    rw [if_pos ⟨(le_year_iff hdate _).mpr hlow, not_le.mp hyear⟩] at hcivil
    exact ⟨year, month, day, hcivil, hdate, rfl⟩

/--
A character lies across the ninth byte of this text, behind a year of one digit.
-/
theorem dateTime_panics : ¬∀ value, ∃ result, (parseDateTimeText value).run = some result := by
  intro h
  obtain ⟨result, hresult⟩ := h "01 Jan 7é 00:00:00".toList
  have hpanics : (parseDateTimeText "01 Jan 7é 00:00:00".toList).run.isNone = true := by decide
  rw [hresult] at hpanics
  cases hpanics

end Run

end Legacy

end Tith
