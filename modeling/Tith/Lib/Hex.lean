import Mathlib

/-!
This module contains hexadecimal numbers in byte strings: digits of a fixed width, and the reading of a
number with either case of letters and perhaps a plus sign.
-/

namespace Hex

def digit (n : Nat) : UInt8 := if n < 10 then UInt8.ofNat (48 + n) else UInt8.ofNat (87 + n)

def fixed (width n : Nat) : List UInt8 :=
  match width with
  | 0 => []
  | width + 1 => fixed width (n / 16) ++ [digit (n % 16)]

def digit? (byte : UInt8) : Option Nat :=
  if 48 ≤ byte.toNat ∧ byte.toNat ≤ 57 then
    some (byte.toNat - 48)
  else if 97 ≤ byte.toNat ∧ byte.toNat ≤ 102 then
    some (byte.toNat - 87)
  else if 65 ≤ byte.toNat ∧ byte.toNat ≤ 70 then
    some (byte.toNat - 55)
  else
    none

/--
The number of the digits behind a number that has been read.
-/
def value? (text : List UInt8) (n : Nat) : Option Nat :=
  match text with
  | [] => some n
  | byte :: text => (digit? byte).bind fun d => value? text (n * 16 + d)

def stripPlus (text : List UInt8) : List UInt8 :=
  match text with
  | 43 :: text => text
  | _ => text

/--
`from_str_radix` for an unsigned type: at least one digit, and a value below the bound.
-/
def parse (bound : Nat) (text : List UInt8) : Option Nat :=
  if stripPlus text = [] then
    none
  else
    (value? (stripPlus text) 0).filter (· < bound)

def IsLower (byte : UInt8) : Prop :=
  (48 ≤ byte.toNat ∧ byte.toNat ≤ 57) ∨ (97 ≤ byte.toNat ∧ byte.toNat ≤ 102)

instance (byte : UInt8) : Decidable (IsLower byte) := inferInstanceAs (Decidable (_ ∨ _))

/--
As many lower case digits as the width says.
-/
def IsFixed (width : Nat) (text : List UInt8) : Prop := text.length = width ∧ ∀ byte ∈ text, IsLower byte

theorem toNat_digit {n : Nat} (h : n < 16) : (digit n).toNat = if n < 10 then 48 + n else 87 + n := by
  unfold digit
  split
  . rw [UInt8.toNat_ofNat']
    omega
  . rw [UInt8.toNat_ofNat']
    omega

theorem isLower_digit {n : Nat} (h : n < 16) : IsLower (digit n) := by
  have hdigit := toNat_digit h
  unfold IsLower
  split at hdigit <;> omega

theorem digit?_digit {n : Nat} (h : n < 16) : digit? (digit n) = some n := by
  have hdigit := toNat_digit h
  unfold digit?
  split at hdigit
  . rw [if_pos (by omega), hdigit]
    congr 1
    omega
  . rw [if_neg (by omega), if_pos (by omega), hdigit]
    congr 1
    omega

theorem digit_of_digit? {byte : UInt8} {n : Nat} (hlower : IsLower byte) (h : digit? byte = some n)
    : n < 16 ∧ digit n = byte := by
  have hvalue : n < 16 ∧ (if n < 10 then 48 + n else 87 + n) = byte.toNat := by
    unfold digit? at h
    unfold IsLower at hlower
    split at h
    . injection h with h
      rw [if_pos] <;> omega
    . split at h
      . injection h with h
        rw [if_neg] <;> omega
      . omega
  refine ⟨hvalue.1, ?_⟩
  apply UInt8.toNat_inj.mp
  rw [toNat_digit hvalue.1, hvalue.2]

@[simp]
theorem length_fixed (width n : Nat) : (fixed width n).length = width := by
  induction width generalizing n with
  | zero => rfl
  | succ width ih => rw [fixed, List.length_append, ih, List.length_singleton]

theorem isFixed_fixed (width n : Nat) : IsFixed width (fixed width n) := by
  refine ⟨length_fixed width n, ?_⟩
  induction width generalizing n with
  | zero => simp [fixed]
  | succ width ih =>
    intro byte hbyte
    rw [fixed, List.mem_append, List.mem_singleton] at hbyte
    rcases hbyte with hbyte | rfl
    . apply ih (n / 16) byte hbyte
    . apply isLower_digit
      omega

theorem value?_append (text text' : List UInt8) (n : Nat)
    : value? (text ++ text') n = (value? text n).bind (value? text') := by
  induction text generalizing n with
  | nil => rfl
  | cons byte text ih =>
    rw [List.cons_append, value?, value?]
    cases digit? byte with
    | none => rfl
    | some d => exact ih _

theorem value?_fixed (width : Nat) {n : Nat} (h : n < 16 ^ width) : value? (fixed width n) 0 = some n := by
  induction width generalizing n with
  | zero =>
    rw [Nat.pow_zero] at h
    have hzero : n = 0 := by omega
    rw [hzero]
    rfl
  | succ width ih =>
    rw [Nat.pow_succ] at h
    rw [fixed, value?_append, ih (by omega), Option.bind_some, value?, digit?_digit (by omega), Option.bind_some,
      value?]
    congr 1
    omega

theorem eq_fixed {width n : Nat} {text : List UInt8} (h : IsFixed width text) (hvalue : value? text 0 = some n)
    : text = fixed width n := by
  obtain ⟨hlength, hlower⟩ := h
  induction text using List.reverseRecOn generalizing width n with
  | nil =>
    rw [← hlength]
    rfl
  | append_singleton text byte ih =>
    rw [value?_append, Option.bind_eq_some_iff] at hvalue
    obtain ⟨front, hfront, hvalue⟩ := hvalue
    rw [value?, Option.bind_eq_some_iff] at hvalue
    obtain ⟨d, hd, hvalue⟩ := hvalue
    rw [value?, Option.some.injEq] at hvalue
    obtain ⟨hlt, hdigit⟩ := digit_of_digit? (hlower byte (by simp)) hd
    rw [List.length_append, List.length_singleton] at hlength
    have htext := ih hfront rfl (fun b hb => hlower b (by simp [hb]))
    have hdiv : n / 16 = front := by omega
    have hmod : n % 16 = d := by omega
    rw [← hlength, fixed, hdiv, hmod, hdigit, ← htext]

theorem IsFixed.stripPlus {width : Nat} {text : List UInt8} (h : IsFixed width text)
    : Hex.stripPlus text = text := by
  unfold Hex.stripPlus
  split
  . exact absurd (h.2 43 List.mem_cons_self) (by decide)
  . rfl

theorem parse_of_isFixed {bound width : Nat} {text : List UInt8} (h : IsFixed (width + 1) text)
    : parse bound text = (value? text 0).filter (· < bound) := by
  unfold parse
  rw [h.stripPlus, if_neg]
  intro hnil
  have hlength := h.1
  rw [hnil] at hlength
  cases hlength

theorem parse_fixed {bound n : Nat} (width : Nat) (h : n < 16 ^ (width + 1)) (hbound : n < bound)
    : parse bound (fixed (width + 1) n) = some n := by
  rw [parse_of_isFixed (isFixed_fixed (width + 1) n), value?_fixed (width + 1) h]
  simp [hbound]

theorem parse_lt {bound n : Nat} {text : List UInt8} (h : parse bound text = some n) : n < bound := by
  unfold parse at h
  split at h
  . cases h
  . simpa using (Option.filter_eq_some_iff.mp h).2

theorem eq_fixed_iff {bound width n : Nat} {text : List UInt8} (h : parse bound text = some n)
    : text = fixed (width + 1) n ↔ IsFixed (width + 1) text := by
  constructor
  . rintro rfl
    apply isFixed_fixed
  . intro hfixed
    rw [parse_of_isFixed hfixed] at h
    apply eq_fixed hfixed (Option.filter_eq_some_iff.mp h).1

theorem fixed_append {width n : Nat} (width' : Nat) {n' : Nat} (h' : n' < 16 ^ width')
    : fixed width n ++ fixed width' n' = fixed (width + width') (n * 16 ^ width' + n') := by
  induction width' generalizing n' with
  | zero =>
    rw [Nat.pow_zero] at h' ⊢
    have hzero : n' = 0 := by omega
    rw [hzero, fixed, List.append_nil, Nat.mul_one, Nat.add_zero, Nat.add_zero]
  | succ width' ih =>
    rw [Nat.pow_succ] at h'
    have hdiv : (n * 16 ^ (width' + 1) + n') / 16 = n * 16 ^ width' + n' / 16 := by
      rw [Nat.pow_succ, ← Nat.mul_assoc, Nat.add_comm, Nat.add_mul_div_right _ _ (by omega), Nat.add_comm]
    have hmod : (n * 16 ^ (width' + 1) + n') % 16 = n' % 16 := by
      rw [Nat.pow_succ, ← Nat.mul_assoc, Nat.add_comm, Nat.add_mul_mod_self_right]
    rw [← Nat.add_assoc, fixed, fixed, ← List.append_assoc, ih (by omega), hdiv, hmod]

end Hex
