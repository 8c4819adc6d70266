import Tith.Config.Parse
import Tith.Lib.Utf8

/-!
This module contains the times of a schedules file: which values of `Start` and of the durations are taken,
and that the documented ones are.
-/

namespace Tith

namespace Config

open Text

/-!
The documented values.
-/

/--
Two hour digits from 00 through 23, a colon and two minute digits from 00 through 59.
-/
def TimeText (text : List Char) (minutes : Nat) : Prop :=
  ∃ hour minute h m,
    text = hour ++ ':' :: minute ∧ TwoDigits hour h ∧ TwoDigits minute m ∧ h ≤ 23 ∧ m ≤ 59 ∧
      minutes = 60 * h + m

/--
A number of minutes without a leading zero, or such a number of hours, a colon and two minute digits from 00
through 59.
-/
def DurationText (text : List Char) (minutes : Nat) : Prop :=
  text = Nat.toDigits 10 minutes ∨
  ∃ hours rest m,
    text = Nat.toDigits 10 hours ++ ':' :: rest ∧ TwoDigits rest m ∧ m ≤ 59 ∧ minutes = 60 * hours + m

/--
The fields behind `Start`, and whether they ask for local civil time.
-/
inductive StartValue : List String → Bool → String → Prop where
  | utc (value : String) : StartValue [value] false value
  | civil (value : String) : StartValue ["Local", value] true value

/-!
The values as they are read. A plus sign in place of the first digit passes.
-/

def Signed (text : List Char) (n : Nat) : Prop := n < 10 ∧ text = ['+', Nat.digitChar n]

def Spelt (text : List Char) (n : Nat) : Prop := TwoDigits text n ∨ Signed text n

/--
A value that is cut within a character, or a time with a sign in it.
-/
def Misread (text : List Char) : Prop :=
  (byteSize text = 5 ∧ (¬Boundary text 2 ∨ ¬Boundary text 3)) ∨
  ∃ hour minute h m,
    text = hour ++ ':' :: minute ∧ Spelt hour h ∧ Spelt minute m ∧ h ≤ 23 ∧ m ≤ 59 ∧
      (Signed hour h ∨ Signed minute m)

theorem cutBytes_eq_some {text front back : List Char} {bytes : Nat}
    : cutBytes text bytes = some (front, back) ↔ text = front ++ back ∧ byteSize front = bytes := by
  induction text generalizing front back bytes with
  | nil =>
    unfold cutBytes
    split
    . next h =>
      subst h
      simp only [Option.some.injEq, Prod.mk.injEq, List.nil_eq_append_iff]
      constructor
      . rintro ⟨rfl, rfl⟩
        exact ⟨⟨rfl, rfl⟩, rfl⟩
      . rintro ⟨⟨rfl, rfl⟩, -⟩
        exact ⟨rfl, rfl⟩
    . next h =>
      simp only [reduceCtorEq, List.nil_eq_append_iff, false_iff]
      rintro ⟨⟨rfl, rfl⟩, hsize⟩
      exact h hsize.symm
  | cons c rest ih =>
    have hc := c.utf8Size_pos
    unfold cutBytes
    split
    . next h =>
      subst h
      simp only [Option.some.injEq, Prod.mk.injEq]
      constructor
      . rintro ⟨rfl, rfl⟩
        exact ⟨rfl, rfl⟩
      . rintro ⟨htext, hsize⟩
        cases front with
        | nil => exact ⟨rfl, htext⟩
        | cons c' front =>
          have := c'.utf8Size_pos
          rw [byteSize_cons] at hsize
          omega
    . next h =>
      cases front with
      | nil =>
        rw [byteSize_nil]
        constructor
        . split
          . simp
          . simp
        . rintro ⟨-, hsize⟩
          exact absurd hsize.symm h
      | cons c' front =>
        rw [List.cons_append, List.cons.injEq, byteSize_cons]
        split
        . next hle =>
          rw [Option.map_eq_some_iff]
          constructor
          . rintro ⟨⟨front', back'⟩, hcut, heq⟩
            obtain ⟨hrest, hsize⟩ := ih.mp hcut
            simp only [Prod.mk.injEq, List.cons.injEq] at heq
            obtain ⟨⟨rfl, rfl⟩, rfl⟩ := heq
            exact ⟨⟨rfl, hrest⟩, by omega⟩
          . rintro ⟨⟨rfl, hrest⟩, hsize⟩
            exact ⟨(front, back), ih.mpr ⟨hrest, by omega⟩, rfl⟩
        . next hle =>
          simp only [reduceCtorEq, false_iff]
          rintro ⟨⟨rfl, -⟩, hsize⟩
          omega

theorem cutBytes_eq_none {text : List Char} {bytes : Nat} : cutBytes text bytes = none ↔ ¬Boundary text bytes := by
  constructor
  . rintro h ⟨front, back, htext, hsize⟩
    rw [cutBytes_eq_some.mpr ⟨htext, hsize⟩] at h
    cases h
  . intro h
    cases hcut : cutBytes text bytes with
    | none => rfl
    | some cut => exact absurd ⟨cut.1, cut.2, cutBytes_eq_some.mp hcut⟩ h

theorem Spelt.byteSize {text : List Char} {n : Nat} (h : Spelt text n) : byteSize text = 2 := by
  rcases h with h | ⟨hn, rfl⟩
  . rw [byteSize_of_digits h.digits, (twoDigits_iff.mp h).1]
  . rw [byteSize_cons, byteSize_of_digits (by simpa using isDigit_iff.mpr ⟨n, hn, rfl⟩)]
    rfl

theorem Spelt.length {text : List Char} {n : Nat} (h : Spelt text n) : text.length = 2 := by
  rcases h with h | ⟨-, rfl⟩
  . exact (twoDigits_iff.mp h).1
  . rfl

theorem parseBelow_eq_some {text : List Char} {n : Nat} (hsize : byteSize text = 2)
    : parseBelow 65536 text = some n ↔ Spelt text n := by
  unfold parseBelow
  constructor
  . intro h
    split at h
    . cases h
    . next n' hdigits =>
      split at h
      . cases h
        obtain ⟨-, hall, -⟩ := digits?_eq_some.mp hdigits
        rcases stripPlus_cases text with ⟨rest, rfl, hrest⟩ | hsame
        . right
          rw [hrest] at hdigits hall
          have hlength := byteSize_of_digits hall
          have hplus : '+'.utf8Size = 1 := rfl
          rw [byteSize_cons] at hsize
          obtain ⟨c, rfl⟩ := List.length_eq_one_iff.mp (by omega : rest.length = 1)
          obtain ⟨d, hd, rfl⟩ := isDigit_iff.mp (by simpa using hall)
          rw [digits?_digitChar hd, Option.some.injEq] at hdigits
          subst hdigits
          exact ⟨hd, rfl⟩
        . left
          rw [hsame] at hdigits hall
          exact twoDigits_iff.mpr ⟨by rw [← byteSize_of_digits hall, hsize], hdigits⟩
      . cases h
  . rintro (h | ⟨hn, rfl⟩)
    . have hlt := h.lt
      rw [stripPlus_of_digits h.digits, (twoDigits_iff.mp h).2]
      dsimp only
      rw [if_pos (by omega)]
    . have hstrip : stripPlus ['+', Nat.digitChar n] = [Nat.digitChar n] := rfl
      rw [hstrip, digits?_digitChar hn]
      dsimp only
      rw [if_pos (by omega)]

theorem startTime_eq_ok {file : String} {line : Nat} {value : String} {minutes : UInt16}
    : startTime file line value = .ok minutes ↔
      ∃ hour minute h m,
        value.toList = hour ++ ':' :: minute ∧ Spelt hour h ∧ Spelt minute m ∧ h ≤ 23 ∧ m ≤ 59 ∧
          minutes.toNat = 60 * h + m := by
  have hcolon : byteSize [':'] = 1 := rfl
  unfold startTime
  rw [utf8ByteSize_eq_byteSize]
  constructor
  . intro h
    split at h
    . cases h
    . next hsize =>
      rw [ne_eq, not_not] at hsize
      simp only [Except.bind_ok_iff, Option.okOr_eq_ok, Prod.exists] at h
      obtain ⟨hour, rest, hcut, colon, minute, hcut', h⟩ := h
      obtain ⟨htext, hhour⟩ := cutBytes_eq_some.mp hcut
      obtain ⟨hrest, hone⟩ := cutBytes_eq_some.mp hcut'
      split at h
      . cases h
      . next hc =>
        rw [ne_eq, not_not] at hc
        subst hc hrest
        rw [htext, byteSize_append, byteSize_append] at hsize
        simp only [Except.bind_ok_iff, Option.okOr_eq_ok] at h
        obtain ⟨h', hparse, m, hparse', h⟩ := h
        rw [parseBelow_eq_some hhour] at hparse
        rw [parseBelow_eq_some (by omega)] at hparse'
        split at h
        . cases h
        . next hrange =>
          cases h
          refine ⟨hour, minute, h', m, htext, hparse, hparse', by omega, by omega, ?_⟩
          rw [UInt16.toNat_ofNat_of_lt' (by change _ < 65536; omega)]
          omega
  . rintro ⟨hour, minute, h, m, htext, hhour, hminute, hh, hm, hminutes⟩
    have hsize := hhour.byteSize
    have hsize' := hminute.byteSize
    have hcut : cutBytes value.toList 2 = some (hour, [':'] ++ minute) :=
      cutBytes_eq_some.mpr ⟨htext, hsize⟩
    have hcut' : cutBytes ([':'] ++ minute) 1 = some ([':'], minute) := cutBytes_eq_some.mpr ⟨rfl, hcolon⟩
    rw [if_neg]
    . simp only [hcut, hcut', Option.okOr_some, Except.bind_of_ok, ne_eq, not_true_eq_false, if_false,
        (parseBelow_eq_some hsize).mpr hhour, (parseBelow_eq_some hsize').mpr hminute]
      rw [if_neg (by omega)]
      congr 1
      apply UInt16.toNat_inj.mp
      rw [UInt16.toNat_ofNat_of_lt' (by change _ < 65536; omega)]
      omega
    . rw [htext, byteSize_append, byteSize_cons]
      have : ':'.utf8Size = 1 := rfl
      omega

theorem startTime_eq_panic {file : String} {line : Nat} {value : String}
    : startTime file line value = .error .panic ↔
      byteSize value.toList = 5 ∧ (¬Boundary value.toList 2 ∨ ¬Boundary value.toList 3) := by
  -- The slices of a value of five bytes, which panic within a character.
  unfold startTime
  rw [utf8ByteSize_eq_byteSize]
  split
  . next h => simp [h]
  . next h =>
    rw [ne_eq, not_not] at h
    simp only [h, true_and]
    cases hcut : cutBytes value.toList 2 with
    | none => simp [cutBytes_eq_none.mp hcut]
    | some cut =>
      obtain ⟨hour, rest⟩ := cut
      obtain ⟨htext, hhour⟩ := cutBytes_eq_some.mp hcut
      have htwo : Boundary value.toList 2 := ⟨hour, rest, htext, hhour⟩
      simp only [Option.okOr_some, Except.bind_of_ok, htwo, not_true_eq_false, false_or]
      cases hcut' : cutBytes rest 1 with
      | none =>
        simp only [Option.okOr_none, Except.bind_of_error, true_iff]
        rw [htext, show 3 = byteSize hour + 1 by omega, boundary_append]
        exact cutBytes_eq_none.mp hcut'
      | some cut' =>
        obtain ⟨colon, minute⟩ := cut'
        obtain ⟨hrest, hcolon⟩ := cutBytes_eq_some.mp hcut'
        have hthree : Boundary value.toList 3 := by
          rw [htext, show 3 = byteSize hour + 1 by omega, boundary_append]
          exact ⟨colon, minute, hrest, hcolon⟩
        simp only [Option.okOr_some, Except.bind_of_ok, hthree, not_true_eq_false, iff_false]
        split
        . simp
        . cases parseBelow 65536 hour with
          | none => simp
          | some h =>
            cases parseBelow 65536 minute with
            | none => simp
            | some m =>
              simp only [Option.okOr_some, Except.bind_of_ok]
              split
              . simp
              . simp

theorem not_signed_of_twoDigits {text : List Char} {n m : Nat} (h : TwoDigits text n) : ¬Signed text m := by
  rintro ⟨-, rfl⟩
  have hdigits := h.digits
  simp at hdigits

theorem startTime_exact {file : String} {line : Nat} {value : String} (h : ¬Misread value.toList) {minutes : UInt16}
    : startTime file line value = .ok minutes ↔ TimeText value.toList minutes.toNat := by
  rw [startTime_eq_ok]
  constructor
  . rintro ⟨hour, minute, h', m, htext, hhour, hminute, hh, hm, hminutes⟩
    have hunsigned : ¬(Signed hour h' ∨ Signed minute m) := by
      intro hsigned
      exact h (.inr ⟨hour, minute, h', m, htext, hhour, hminute, hh, hm, hsigned⟩)
    rw [not_or] at hunsigned
    exact ⟨hour, minute, h', m, htext, hhour.resolve_right hunsigned.1, hminute.resolve_right hunsigned.2,
      hh, hm, hminutes⟩
  . rintro ⟨hour, minute, h', m, htext, hhour, hminute, hh, hm, hminutes⟩
    exact ⟨hour, minute, h', m, htext, .inl hhour, .inl hminute, hh, hm, hminutes⟩

theorem startTime_of_misread (file : String) (line : Nat) {value : String} (h : Misread value.toList)
    : startTime file line value = .error .panic ∨
      ∃ minutes, startTime file line value = .ok minutes ∧ ¬TimeText value.toList minutes.toNat := by
  rcases h with h | ⟨hour, minute, h', m, htext, hhour, hminute, hh, hm, hsigned⟩
  . exact .inl (startTime_eq_panic.mpr h)
  . right
    have hlt : 60 * h' + m < 2 ^ 16 := by omega
    refine ⟨UInt16.ofNat (60 * h' + m), ?_, ?_⟩
    . rw [startTime_eq_ok]
      exact ⟨hour, minute, h', m, htext, hhour, hminute, hh, hm, UInt16.toNat_ofNat_of_lt' hlt⟩
    . rintro ⟨hour', minute', h'', m', htext', hhour', hminute', -⟩
      rw [htext] at htext'
      -- Neither half has a colon, so that both are the halves on either side of the only one.
      obtain ⟨rfl, hrest⟩ := List.append_inj htext' (by rw [hhour.length, (twoDigits_iff.mp hhour').1])
      rw [List.cons.injEq] at hrest
      obtain ⟨-, rfl⟩ := hrest
      rcases hsigned with hsigned | hsigned
      . exact not_signed_of_twoDigits hhour' hsigned
      . exact not_signed_of_twoDigits hminute' hsigned

/-!
Durations.
-/

theorem isDecimal_toDigits (n : Nat) : isDecimal (Nat.toDigits 10 n) = true := by
  unfold isDecimal
  rw [Bool.or_eq_true, Bool.and_eq_true, List.all_eq_true]
  rcases Nat.eq_zero_or_pos n with rfl | hpos
  . exact .inl (by decide)
  . right
    refine ⟨by simpa using head?_toDigits_ne_zero hpos, ?_⟩
    intro c hc
    exact Nat.isDigit_of_mem_toDigits (by omega) (by omega) hc

theorem toDigits_of_isDecimal {text : List Char} {n : Nat} (h : isDecimal text = true) (hdigits : digits? text = some n)
    : text = Nat.toDigits 10 n := by
  unfold isDecimal at h
  rw [Bool.or_eq_true, Bool.and_eq_true] at h
  rcases h with h | h
  . rw [decide_eq_true_eq] at h
    subst h
    rw [show digits? ['0'] = some 0 by rfl, Option.some.injEq] at hdigits
    rw [← hdigits]
    rfl
  . exact (toDigits_of_digits hdigits (by simpa using h.1)).symm

theorem digits_of_isDecimal {text : List Char} (h : isDecimal text = true) : text.all Char.isDigit = true := by
  unfold isDecimal at h
  rw [Bool.or_eq_true, Bool.and_eq_true] at h
  rcases h with h | h
  . rw [decide_eq_true_eq] at h
    rw [h]
    rfl
  . exact h.2

theorem parseU64_eq_some {text : List Char} {n : UInt64} (h : text.all Char.isDigit = true)
    : parseU64 text = some n ↔ digits? text = some n.toNat := by
  have hlt := n.toNat_lt
  unfold parseU64
  rw [stripPlus_of_digits h]
  cases digits? text with
  | none => simp
  | some k =>
    dsimp only
    rw [Option.some.injEq]
    constructor
    . intro hparse
      split at hparse
      . next hk =>
        rw [Option.some.injEq] at hparse
        rw [← hparse, UInt64.toNat_ofNat_of_lt' hk]
      . cases hparse
    . rintro rfl
      rw [if_pos hlt, UInt64.ofNat_toNat]

theorem decimal_iff {text : List Char} {n : UInt64}
    : isDecimal text = true ∧ parseU64 text = some n ↔ text = Nat.toDigits 10 n.toNat := by
  constructor
  . rintro ⟨hdecimal, hparse⟩
    rw [parseU64_eq_some (digits_of_isDecimal hdecimal)] at hparse
    exact toDigits_of_isDecimal hdecimal hparse
  . rintro rfl
    exact ⟨isDecimal_toDigits _, parseU64_toDigits n⟩

theorem span_colon {hours : List Char} (rest : List Char) (h : ':' ∉ hours)
    : (hours ++ ':' :: rest).span (· ≠ ':') = (hours, ':' :: rest) := by
  rw [List.span_eq_takeWhile_dropWhile]
  have hall : ∀ c ∈ hours, decide (c ≠ ':') = true := by
    intro c hc
    rw [decide_eq_true_eq]
    rintro rfl
    exact h hc
  rw [List.takeWhile_append_of_pos hall, List.dropWhile_append_of_pos hall]
  simp

theorem colon_of_durationText {text hours rest : List Char} {minutes : Nat} (hhours : ':' ∉ hours)
    (htext : text = hours ++ ':' :: rest)
    : DurationText text minutes ↔
      ∃ h m, hours = Nat.toDigits 10 h ∧ TwoDigits rest m ∧ m ≤ 59 ∧ minutes = 60 * h + m := by
  subst htext
  constructor
  . rintro (htext | ⟨h, rest', m, htext, hrest, hm, hminutes⟩)
    . have hmem : ':' ∈ Nat.toDigits 10 minutes := by
        rw [← htext]
        simp
      exact absurd hmem (not_mem_toDigits (by decide) minutes)
    . have hspan := span_colon rest hhours
      rw [htext, span_colon rest' (not_mem_toDigits (by decide) h), Prod.mk.injEq, List.cons.injEq] at hspan
      obtain ⟨rfl, -, rfl⟩ := hspan
      exact ⟨h, m, rfl, hrest, hm, hminutes⟩
  . rintro ⟨h, m, rfl, hrest, hm, hminutes⟩
    exact .inr ⟨h, rest, m, rfl, hrest, hm, hminutes⟩

theorem duration_eq_ok {file : String} {line : Nat} {value : String} {minutes : UInt64}
    : duration file line value = .ok minutes ↔ DurationText value.toList minutes.toNat := by
  have hlt := minutes.toNat_lt
  unfold duration
  generalize value.toList = text
  by_cases hcolon : ':' ∈ text
  . obtain ⟨hours, rest, rfl, hhours⟩ := List.eq_append_cons_of_mem hcolon
    rw [colon_of_durationText hhours rfl]
    dsimp only
    rw [if_pos (by simp), span_colon _ hhours]
    simp only [List.tail_cons]
    constructor
    . intro h
      split at h
      . cases h
      . next hshape =>
        simp only [Bool.or_eq_true, Bool.not_eq_true', not_or, Bool.not_eq_false, ne_eq] at hshape
        obtain ⟨⟨hdecimal, hlength⟩, hall⟩ := hshape
        simp only [Except.bind_ok_iff, Option.okOr_eq_ok] at h
        obtain ⟨m, hm, h⟩ := h
        rw [parseU64_eq_some hall] at hm
        split at h
        . cases h
        . next hrange =>
          split at h
          . cases h
          . next h' hh =>
            split at h
            . next hfits =>
              cases h
              have htwo : rest.length = 2 := not_not.mp (mt decide_eq_true hlength)
              refine ⟨h'.toNat, m.toNat, decimal_iff.mp ⟨hdecimal, hh⟩, twoDigits_iff.mpr ⟨htwo, hm⟩, ?_, ?_⟩
              . exact UInt64.le_iff_toNat_le.mp (UInt64.not_lt.mp hrange)
              . rw [UInt64.toNat_add, UInt64.toNat_mul]
                change (h'.toNat * 60 % 2 ^ 64 + m.toNat) % 2 ^ 64 = _
                omega
            . cases h
    . rintro ⟨h, m, rfl, hrest, hm, hminutes⟩
      obtain ⟨hlength, hdigits⟩ := twoDigits_iff.mp hrest
      have hh : (UInt64.ofNat h).toNat = h := UInt64.toNat_ofNat_of_lt' (by change _ < 2 ^ 64; omega)
      have hm' : (UInt64.ofNat m).toNat = m := UInt64.toNat_ofNat_of_lt' (by change _ < 2 ^ 64; omega)
      have hhours := decimal_iff.mpr (congrArg (Nat.toDigits 10) hh.symm)
      have hparse : parseU64 rest = some (UInt64.ofNat m) := by
        rw [parseU64_eq_some hrest.digits, hm', hdigits]
      rw [if_neg]
      . simp only [hparse, Option.okOr_some, Except.bind_of_ok, hhours.2, hh, hm']
        rw [if_neg, if_pos (by omega)]
        . congr 1
          apply UInt64.toNat_inj.mp
          rw [UInt64.toNat_add, UInt64.toNat_mul, hh, hm']
          change (h * 60 % 2 ^ 64 + m) % 2 ^ 64 = _
          omega
        . rw [UInt64.not_lt, UInt64.le_iff_toNat_le, hm']
          exact hm
      . simp [hhours.1, hlength, hrest.digits]
  . have hplain : DurationText text minutes.toNat ↔ text = Nat.toDigits 10 minutes.toNat := by
      constructor
      . rintro (h | ⟨_, _, _, rfl, -⟩)
        . exact h
        . simp at hcolon
      . exact .inl
    rw [hplain, ← decimal_iff]
    dsimp only
    rw [if_neg (by simpa using hcolon)]
    split
    . next hdecimal => simp [hdecimal]
    . next hdecimal => simp [hdecimal]

/-!
What panics. Nothing but the slices of a `Start` value does.
-/

theorem peerRef_ne_panic (file : String) (line : Nat) (value : String) : peerRef file line value ≠ .error .panic := by
  unfold peerRef
  split
  . split
    . simp
    . simp
  . simp

theorem identity_ne_panic (file : String) (line : Nat) (value : String) : identity file line value ≠ .error .panic := by
  unfold identity
  split
  . simp [Except.bind_error_iff, peerRef_ne_panic]
  . split
    . simp
    . split
      . simp
      . simp

theorem selector_ne_panic (file : String) (line : Nat) (values : List String)
    : selector file line values ≠ .error .panic := by
  unfold selector
  dsimp only
  split
  . simp
  . split
    . simp
    . split
      . simp
      . simp
  . simp [Except.bind_error_iff, peerRef_ne_panic]
  . simp [Except.bind_error_iff, Option.okOr_eq_error]
  . simp [Except.bind_error_iff, Option.okOr_eq_error]
  . simp

theorem duration_ne_panic (file : String) (line : Nat) (value : String) : duration file line value ≠ .error .panic := by
  unfold duration
  dsimp only
  split
  . split
    . simp
    . simp only [ne_eq, Except.bind_error_iff, Option.okOr_eq_error, reduceCtorEq, and_false, false_or,
        Option.okOr_eq_ok, not_exists, not_and]
      intro minutes _
      split
      . simp
      . split
        . simp
        . split
          . simp
          . simp
  . split
    . simp [Option.okOr_eq_error]
    . simp

theorem nextHop_ne_panic (block : ScheduleBlock) (line : Line) (values : List String)
    : nextHop block line values ≠ .error .panic := by
  unfold nextHop
  simp only [ne_eq, Except.bind_error_iff, selector_ne_panic, false_or, not_exists, not_and]
  rintro ⟨value, used⟩ _
  dsimp only
  split
  . simp
  . simp

theorem start_cases (block : ScheduleBlock) (line : Line) (values : List String)
    : (∃ isLocal value,
        StartValue values isLocal value ∧
          start block line values =
            startTime "schedules" line.number value >>= fun minutes =>
              .ok { block with start := some (isLocal, minutes) }) ∨
      (∀ isLocal value, ¬StartValue values isLocal value) ∧
        start block line values = .error (.error "schedules" line.number "invalid Start") := by
  unfold start
  split
  . next value => exact .inl ⟨false, value, .utc value, rfl⟩
  . next value => exact .inl ⟨true, value, .civil value, rfl⟩
  . next hone htwo =>
    right
    refine ⟨?_, rfl⟩
    intro isLocal value hvalue
    cases hvalue with
    | utc => exact hone value rfl
    | civil => exact htwo value rfl

theorem StartValue.unique {values : List String} {isLocal isLocal' : Bool} {value value' : String}
    (h : StartValue values isLocal value) (h' : StartValue values isLocal' value')
    : isLocal = isLocal' ∧ value = value' := by
  cases h with
  | utc => cases h'; exact ⟨rfl, rfl⟩
  | civil => cases h'; exact ⟨rfl, rfl⟩

theorem start_eq_panic {block : ScheduleBlock} {line : Line} {values : List String}
    : start block line values = .error .panic ↔
      ∃ isLocal value, StartValue values isLocal value ∧ startTime "schedules" line.number value = .error .panic := by
  rcases start_cases block line values with ⟨isLocal, value, hvalue, hstart⟩ | ⟨hnone, hstart⟩
  . rw [hstart, Except.bind_error_iff]
    simp only [reduceCtorEq, and_false, exists_false, or_false]
    constructor
    . intro h
      exact ⟨isLocal, value, hvalue, h⟩
    . rintro ⟨isLocal', value', hvalue', h⟩
      rw [(hvalue.unique hvalue').2]
      exact h
  . rw [hstart]
    simp [hnone]

theorem start_eq_ok {block block' : ScheduleBlock} {line : Line} {values : List String}
    : start block line values = .ok block' ↔
      ∃ isLocal value minutes,
        StartValue values isLocal value ∧ startTime "schedules" line.number value = .ok minutes ∧
          block' = { block with start := some (isLocal, minutes) } := by
  rcases start_cases block line values with ⟨isLocal, value, hvalue, hstart⟩ | ⟨hnone, hstart⟩
  . rw [hstart, Except.bind_ok_iff]
    constructor
    . rintro ⟨minutes, h, hblock⟩
      cases hblock
      exact ⟨isLocal, value, minutes, hvalue, h, rfl⟩
    . rintro ⟨isLocal', value', minutes, hvalue', h, rfl⟩
      obtain ⟨rfl, rfl⟩ := hvalue.unique hvalue'
      exact ⟨minutes, h, rfl⟩
  . rw [hstart]
    simp [hnone]

theorem scheduleDirective_start {block : ScheduleBlock} {line : Line} {values : List String}
    (hfields : line.fields = "Start" :: values) (hstart : block.start = none)
    : scheduleDirective block line = start block line values := by
  unfold scheduleDirective
  rw [hfields]
  simp [hstart]

theorem scheduleDirective_eq_panic {block : ScheduleBlock} {line : Line}
    : scheduleDirective block line = .error .panic ↔
      ∃ values, line.fields = "Start" :: values ∧ block.start = none ∧ start block line values = .error .panic := by
  constructor
  . intro h
    unfold scheduleDirective at h
    dsimp only at h
    split at h
    . split at h
      . cases h
      . simp [Except.bind_error_iff, identity_ne_panic] at h
    . split at h
      . cases h
      . split at h
        . cases h
        . cases h
    . exact absurd h (nextHop_ne_panic _ _ _)
    . rw [Except.bind_error_iff] at h
      rcases h with h | ⟨name, -, h⟩
      . exact absurd h (peerRef_ne_panic _ _ _)
      . split at h
        . cases h
        . cases h
    . next values hfields =>
      split at h
      . cases h
      . next hsome => exact ⟨values, hfields, by simpa using hsome, h⟩
    . split at h
      . cases h
      . simp [Except.bind_error_iff, duration_ne_panic] at h
    . split at h
      . cases h
      . rw [Except.bind_error_iff] at h
        rcases h with h | ⟨minutes, -, h⟩
        . exact absurd h (duration_ne_panic _ _ _)
        . split at h
          . cases h
          . cases h
    . cases h
  . rintro ⟨values, hfields, hnone, h⟩
    rw [scheduleDirective_start hfields hnone]
    exact h

theorem scheduleStart_ne_panic (state : SchedulesState) (line : Line) : scheduleStart state line ≠ .error .panic := by
  unfold scheduleStart
  split
  . split
    . simp
    . simp
  . simp

theorem scheduleEnd_ne_panic (state : SchedulesState) (block : ScheduleBlock) (line : Line)
    : scheduleEnd state block line ≠ .error .panic := by
  simp [scheduleEnd, Except.bind_error_iff, Option.okOr_eq_error]

theorem lines_ne_panic (file : String) (input : String) : lines file input ≠ .error .panic := by
  unfold lines
  dsimp only
  split
  . simp
  . rw [ne_eq, Except.bind_error_iff]
    rintro (h | ⟨output, -, h⟩)
    . obtain ⟨entry, -, hentry⟩ := Except.mapM_error h
      split at hentry
      . cases hentry
      . cases hentry
    . cases h

/-!
The lines of a file that are read.
-/

/--
The lines in front of this one are taken, and leave the block open that it is read in.
-/
def Reached (input : String) (block : ScheduleBlock) (line : Line) : Prop :=
  ∃ before after output,
    lines "schedules" input = .ok (before ++ line :: after) ∧
      before.foldlM schedulesLine ⟨[], none⟩ = .ok ⟨output, some block⟩

/--
A value of `Start` that is read: its line is reached, and the block has no `Start` before it.
-/
def ReadsStart (input : String) (value : String) : Prop :=
  ∃ block line values isLocal,
    Reached input block line ∧ line.fields = "Start" :: values ∧ block.start = none ∧
      StartValue values isLocal value

/--
Reading does not panic, and the times that it takes are the documented ones, with the minutes that they are
documented to mean.
-/
structure TimesExact (input : String) : Prop where
  total : parseSchedules input ≠ .error .panic
  start
    : ∀ block line values block', Reached input block line → line.fields = "Start" :: values →
        block.start = none →
        (scheduleDirective block line = .ok block' ↔
          ∃ isLocal value minutes,
            StartValue values isLocal value ∧ TimeText value.toList minutes.toNat ∧
              block' = { block with start := some (isLocal, minutes) })
  duration
    : ∀ block line value block', Reached input block line → line.fields = ["Duration", value] →
        block.durationMinutes = none →
        (scheduleDirective block line = .ok block' ↔
          ∃ minutes, DurationText value.toList minutes.toNat ∧
            block' = { block with durationMinutes := some minutes })
  repeatAfter
    : ∀ block line value block', Reached input block line → line.fields = ["Repeat-After", value] →
        block.repeatAfterMinutes = none →
        (scheduleDirective block line = .ok block' ↔
          ∃ minutes, DurationText value.toList minutes.toNat ∧ minutes ≠ 0 ∧
            block' = { block with repeatAfterMinutes := some minutes })

theorem schedulesLine_eq_panic {state : SchedulesState} {line : Line}
    : schedulesLine state line = .error .panic ↔
      ∃ block values,
        state.block = some block ∧ line.fields = "Start" :: values ∧ block.start = none ∧
          start block line values = .error .panic := by
  unfold schedulesLine
  split
  . next hblock => simp [hblock, scheduleStart_ne_panic]
  . next block hblock =>
    split
    . next hend => simp [hblock, hend, scheduleEnd_ne_panic]
    . rw [Except.bind_error_iff]
      simp only [reduceCtorEq, and_false, exists_false, or_false, scheduleDirective_eq_panic, hblock,
        Option.some.injEq]
      constructor
      . rintro ⟨values, h⟩
        exact ⟨block, values, rfl, h⟩
      . rintro ⟨_, values, rfl, h⟩
        exact ⟨values, h⟩

theorem parseSchedules_eq_panic {input : String}
    : parseSchedules input = .error .panic ↔
      ∃ value, ReadsStart input value ∧
        byteSize value.toList = 5 ∧ (¬Boundary value.toList 2 ∨ ¬Boundary value.toList 3) := by
  -- A panic comes from a line that is read, and the first one that panics ends the reading.
  unfold parseSchedules
  constructor
  . intro h
    rw [Except.bind_error_iff] at h
    rcases h with h | ⟨read, hlines, h⟩
    . exact absurd h (lines_ne_panic _ _)
    rw [Except.bind_error_iff] at h
    rcases h with h | ⟨state, -, h⟩
    . obtain ⟨before, line, after, ⟨output, block?⟩, rfl, hbefore, hline⟩ := Except.foldlM_error h
      obtain ⟨block, values, hblock, hfields, hstart, hpanic⟩ := schedulesLine_eq_panic.mp hline
      obtain rfl : block? = some block := hblock
      obtain ⟨isLocal, value, hvalue, hpanic⟩ := start_eq_panic.mp hpanic
      have hreached : Reached input block line := ⟨before, after, output, hlines, hbefore⟩
      refine ⟨value, ⟨block, line, values, isLocal, hreached, hfields, hstart, hvalue⟩, ?_⟩
      exact startTime_eq_panic.mp hpanic
    . split at h
      . cases h
      . cases h
  . rintro ⟨value, ⟨block, line, values, isLocal, hreached, hfields, hstart, hvalue⟩, hcut⟩
    obtain ⟨before, after, output, hlines, hbefore⟩ := hreached
    have hpanic : schedulesLine ⟨output, some block⟩ line = .error .panic := by
      rw [schedulesLine_eq_panic]
      refine ⟨block, values, rfl, hfields, hstart, ?_⟩
      rw [start_eq_panic]
      exact ⟨isLocal, value, hvalue, startTime_eq_panic.mpr hcut⟩
    rw [hlines, Except.bind_of_ok, List.foldlM_append, hbefore, Except.bind_of_ok, List.foldlM_cons, hpanic]
    rfl

/--
The times of a schedules file are read without a panic and taken exactly in the documented form, unless a `Start`
value that is read is cut within a character or has a sign.
-/
theorem schedule_times_exact (input : String)
    : TimesExact input ↔ ∀ value, ReadsStart input value → ¬Misread value.toList := by
  constructor
  . rintro h value ⟨block, line, values, isLocal, hreached, hfields, hstart, hvalue⟩ hmisread
    have hreads : ReadsStart input value := ⟨block, line, values, isLocal, hreached, hfields, hstart, hvalue⟩
    rcases startTime_of_misread "schedules" line.number hmisread with hpanic | ⟨minutes, hok, hnot⟩
    . exact h.total (parseSchedules_eq_panic.mpr ⟨value, hreads, startTime_eq_panic.mp hpanic⟩)
    . have htaken : scheduleDirective block line = .ok { block with start := some (isLocal, minutes) } := by
        rw [scheduleDirective_start hfields hstart, start_eq_ok]
        exact ⟨isLocal, value, minutes, hvalue, hok, rfl⟩
      obtain ⟨isLocal', value', minutes', hvalue', htime, hblock⟩ :=
        (h.start _ _ _ _ hreached hfields hstart).mp htaken
      obtain ⟨rfl, rfl⟩ := hvalue.unique hvalue'
      simp only [ScheduleBlock.mk.injEq, Option.some.injEq, Prod.mk.injEq, true_and, and_true] at hblock
      rw [← hblock] at htime
      exact hnot htime
  . intro h
    constructor
    . intro hpanic
      obtain ⟨value, hreads, hcut⟩ := parseSchedules_eq_panic.mp hpanic
      exact h value hreads (.inl hcut)
    . intro block line values block' hreached hfields hstart
      rw [scheduleDirective_start hfields hstart, start_eq_ok]
      constructor
      . rintro ⟨isLocal, value, minutes, hvalue, htime, rfl⟩
        have hnot := h value ⟨block, line, values, isLocal, hreached, hfields, hstart, hvalue⟩
        exact ⟨isLocal, value, minutes, hvalue, (startTime_exact hnot).mp htime, rfl⟩
      . rintro ⟨isLocal, value, minutes, hvalue, htime, rfl⟩
        have hnot := h value ⟨block, line, values, isLocal, hreached, hfields, hstart, hvalue⟩
        exact ⟨isLocal, value, minutes, hvalue, (startTime_exact hnot).mpr htime, rfl⟩
    . intro block line value block' _ hfields hnone
      unfold scheduleDirective
      rw [hfields]
      simp only [hnone, Option.isSome_none, Bool.false_eq_true, if_false, Except.bind_ok_iff, duration_eq_ok,
        Except.ok.injEq]
      tauto
    . intro block line value block' _ hfields hnone
      unfold scheduleDirective
      rw [hfields]
      simp only [hnone, Option.isSome_none, Bool.false_eq_true, if_false, Except.bind_ok_iff, duration_eq_ok]
      constructor
      . rintro ⟨minutes, htext, h⟩
        split at h
        . cases h
        . next hzero =>
          cases h
          exact ⟨minutes, htext, hzero, rfl⟩
      . rintro ⟨minutes, htext, hzero, rfl⟩
        refine ⟨minutes, htext, ?_⟩
        rw [if_neg hzero]

end Config

end Tith
