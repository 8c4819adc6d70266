import Mathlib
import Tith.Lib.List

/-!
This module contains the operations on characters and digit strings that the parsers share.
-/

namespace Text

/--
The control characters of Unicode: the general category `Cc`.
-/
def isControl (c : Char) : Bool :=
  c.toNat ≤ 0x1f || (0x7f ≤ c.toNat && c.toNat ≤ 0x9f)

/--
The decimal value of a nonempty string of ASCII digits.
-/
def digits? (text : List Char) : Option Nat :=
  if text ≠ [] ∧ text.all Char.isDigit then some (Nat.ofDigitChars 10 text 0) else none

def stripPlus (text : List Char) : List Char :=
  match text with
  | '+' :: rest => rest
  | _ => text

def parseU64 (text : List Char) : Option UInt64 :=
  match digits? (stripPlus text) with
  | none => none
  | some n => if n < 2 ^ 64 then some (UInt64.ofNat n) else none

def parseBelow (bound : Nat) (text : List Char) : Option Nat :=
  match digits? (stripPlus text) with
  | none => none
  | some n => if n < bound then some n else none

theorem digits?_toDigits (n : Nat) : digits? (Nat.toDigits 10 n) = some n := by
  unfold digits?
  rw [if_pos]
  . rw [Nat.ofDigitChars_ten_toDigits]
  . constructor
    . exact Nat.toDigits_ne_nil
    . rw [List.all_eq_true]
      intro c hc
      exact Nat.isDigit_of_mem_toDigits (by omega) (by omega) hc

theorem digitChar_of_isDigit {c : Char} (h : c.isDigit = true) : Nat.digitChar (c.toNat - '0'.toNat) = c := by
  have hrange : 48 ≤ c.toNat ∧ c.toNat ≤ 57 := by
    simp only [Char.isDigit, Bool.and_eq_true, decide_eq_true_eq] at h
    exact h
  obtain ⟨n, hn, hlt⟩ : ∃ n, c.toNat = n + 48 ∧ n < 10 := ⟨c.toNat - 48, by omega, by omega⟩
  have hc : c = Char.ofNat (n + 48) := by rw [← hn, Char.ofNat_toNat]
  subst hc
  clear h hrange hn
  decide +revert

theorem toDigits_of_digits {text : List Char} {n : Nat} (h : digits? text = some n)
    (hhead : text.head? ≠ some '0')
    : Nat.toDigits 10 n = text := by
  unfold digits? at h
  split at h
  . next hdigits =>
    injection h with h
    subst h
    obtain ⟨hne, hall⟩ := hdigits
    induction text using List.reverseRecOn with
    | nil => exact absurd rfl hne
    | append_singleton text c ih =>
      rw [List.all_append, Bool.and_eq_true] at hall
      have hc : c.isDigit = true := by simpa using hall.2
      have hchar := digitChar_of_isDigit hc
      have hlt : c.toNat - '0'.toNat < 10 := by
        simp only [Char.isDigit, Bool.and_eq_true, decide_eq_true_eq] at hc
        have hle : c.toNat ≤ 57 := hc.2
        change c.toNat - 48 < 10
        omega
      rw [Nat.ofDigitChars_append, Nat.ofDigitChars_cons, Nat.ofDigitChars_nil]
      rw [Nat.toDigits_eq_if (by omega)]
      by_cases hnil : text = []
      . subst hnil
        rw [Nat.ofDigitChars_nil, Nat.mul_zero, Nat.zero_add, if_pos hlt, hchar]
        rfl
      . have hstart : text.head? ≠ some '0' := by
          rwa [List.head?_append_of_ne_nil _ hnil] at hhead
        have htext := ih hstart hnil hall.1
        have hpos : Nat.ofDigitChars 10 text 0 ≠ 0 := by
          intro hzero
          rw [hzero] at htext
          apply hstart
          rw [← htext]
          rfl
        rw [if_neg (by omega), Nat.mul_add_div (by omega), Nat.div_eq_of_lt hlt, Nat.add_zero, htext,
          Nat.mul_add_mod, Nat.mod_eq_of_lt hlt, hchar]
  . cases h

theorem not_mem_toDigits {c : Char} (hc : c.isDigit = false) (n : Nat) : c ∉ Nat.toDigits 10 n := by
  intro hmem
  have := Nat.isDigit_of_mem_toDigits (b := 10) (by omega) (by omega) hmem
  simp [hc] at this

theorem head?_toDigits_ne_zero {n : Nat} (hn : 0 < n) : (Nat.toDigits 10 n).head? ≠ some '0' := by
  induction n using Nat.strongRecOn with
  | ind n ih =>
    rw [Nat.toDigits_eq_if (by omega)]
    split
    . simp
      omega
    . rw [List.head?_append_of_ne_nil _ Nat.toDigits_ne_nil]
      exact ih (n / 10) (by omega) (by omega)

theorem stripPlus_toDigits (n : Nat) : stripPlus (Nat.toDigits 10 n) = Nat.toDigits 10 n := by
  unfold stripPlus
  split
  . next rest h =>
    have := not_mem_toDigits (c := '+') (by decide) n
    simp [h] at this
  . rfl

theorem parseU64_toDigits (n : UInt64) : parseU64 (Nat.toDigits 10 n.toNat) = some n := by
  unfold parseU64
  rw [stripPlus_toDigits, digits?_toDigits]
  dsimp only
  rw [if_pos n.toNat_lt]
  simp

/-!
Texts that are cut at a separator.
-/

def splitOnce (separator : Char) (text : List Char) : Option (List Char × List Char) :=
  match text.span (· ≠ separator) with
  | (_, []) => none
  | (before, _ :: after) => some (before, after)

def rsplitOnce (separator : Char) (text : List Char) : Option (List Char × List Char) :=
  (splitOnce separator text.reverse).map fun (after, before) => (before.reverse, after.reverse)

section Split

variable {separator : Char} {front behind text : List Char}

theorem splitOnce_append (h : separator ∉ front)
    : splitOnce separator (front ++ separator :: behind) = some (front, behind) := by
  have hspan : (front ++ separator :: behind).span (· ≠ separator) = (front, separator :: behind) := by
    apply List.span_append
    . intro c hc
      simp only [ne_eq, decide_not, Bool.not_eq_true', decide_eq_false_iff_not]
      rintro rfl
      exact h hc
    . simp
  rw [splitOnce, hspan]

theorem splitOnce_of_not_mem (h : separator ∉ text) : splitOnce separator text = none := by
  have hspan := @List.span_append _ (fun c => decide (c ≠ separator)) text [] (by
    intro c hc
    simp only [ne_eq, decide_not, Bool.not_eq_true', decide_eq_false_iff_not]
    rintro rfl
    exact h hc) (by simp)
  rw [List.append_nil] at hspan
  rw [splitOnce, hspan]

theorem rsplitOnce_append (h : separator ∉ behind)
    : rsplitOnce separator (front ++ separator :: behind) = some (front, behind) := by
  have hreverse : (front ++ separator :: behind).reverse = behind.reverse ++ separator :: front.reverse := by
    rw [List.reverse_append, List.reverse_cons, List.append_assoc, List.singleton_append]
  rw [rsplitOnce, hreverse, splitOnce_append]
  . rw [Option.map_some]
    dsimp only
    rw [List.reverse_reverse, List.reverse_reverse]
  . rw [List.mem_reverse]
    exact h

theorem rsplitOnce_of_not_mem (h : separator ∉ text) : rsplitOnce separator text = none := by
  rw [rsplitOnce, splitOnce_of_not_mem]
  . rfl
  . rw [List.mem_reverse]
    exact h

theorem not_mem_of_splitOnce (h : splitOnce separator text = some (front, behind)) : separator ∉ front := by
  unfold splitOnce at h
  rw [List.span_eq_takeWhile_dropWhile] at h
  split at h
  . cases h
  . next before _ after heq =>
    injection h with h
    injection h with hfront _
    injection heq with hbefore _
    intro hmem
    rw [← hfront, ← hbefore] at hmem
    have hne := List.mem_takeWhile_imp hmem
    simp at hne

theorem not_mem_of_rsplitOnce (h : rsplitOnce separator text = some (front, behind)) : separator ∉ behind := by
  unfold rsplitOnce at h
  rw [Option.map_eq_some_iff] at h
  obtain ⟨⟨after, before⟩, hsplit, heq⟩ := h
  injection heq with _ hbehind
  rw [← hbehind, List.mem_reverse]
  apply not_mem_of_splitOnce hsplit

end Split

end Text
