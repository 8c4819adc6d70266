import Mathlib

/-!
This module contains patterns with two wildcards: one that stands for any single symbol and one that
stands for any sequence of them. A second reading of the patterns, in which a wildcard that meets
itself in the text is an ordinary symbol, is what a scanner computes that compares symbols first.
-/

namespace Tith

namespace Glob

variable {α : Type}

theorem any_tails_iff {text : List α} {f : List α → Bool}
    : text.tails.any f = true ↔ ∃ rest, rest <:+ text ∧ f rest = true := by
  simp [List.any_eq_true, List.mem_tails]

variable [DecidableEq α] (one many : α)

def globMatches (pattern text : List α) : Bool :=
  match pattern with
  | [] => text.isEmpty
  | p :: pattern =>
    if p = many then
      text.tails.any (globMatches pattern)
    else
      match text with
      | [] => false
      | c :: text => (p = one || p = c) && globMatches pattern text

/--
The reading of a scanner that compares symbols first: a `many` at a `many` of the text takes exactly
that symbol.
-/
def literalFirst (pattern text : List α) : Bool :=
  match pattern, text with
  | [], text => text.isEmpty
  | p :: pattern, [] => p = many && literalFirst pattern []
  | p :: pattern, c :: text =>
    if p = one ∨ p = c then
      literalFirst pattern text
    else if p = many then
      (c :: text).tails.any (literalFirst pattern)
    else
      false

/--
No `many` of the pattern can stand at a `many` of the text: what is in front of the one never matches what
is in front of the other.
-/
def Apart (pattern text : List α) : Prop :=
  ∀ front back taken left, pattern = front ++ many :: back → text = taken ++ many :: left →
    globMatches one many front taken = false

/--
Symbol by symbol, without a `many` that stands for a sequence.
-/
def Aligned (pattern text : List α) : Prop :=
  List.Forall₂ (fun p c => p = one ∨ p = c) pattern text

section LiteralFirst

variable {one many}

theorem literalFirst_at_end {pattern : List α}
    : literalFirst one many pattern [] = true ↔ ∀ p ∈ pattern, p = many := by
  induction pattern with
  | nil => simp [literalFirst]
  | cons p pattern ih => simp [literalFirst, ih]

theorem literalFirst_literal {p c : α} {pattern text : List α} (h : p = one ∨ p = c)
    : literalFirst one many (p :: pattern) (c :: text) = literalFirst one many pattern text := by
  rw [literalFirst, if_pos h]

theorem literalFirst_many {c : α} {pattern text : List α} (h : ¬(many = one ∨ many = c))
    : literalFirst one many (many :: pattern) (c :: text) = true ↔
        ∃ rest, rest <:+ c :: text ∧ literalFirst one many pattern rest = true := by
  rw [literalFirst, if_neg h, if_pos rfl, any_tails_iff]

theorem literalFirst_mismatch {p c : α} {pattern text : List α} (h : ¬(p = one ∨ p = c)) (hp : p ≠ many)
    : literalFirst one many (p :: pattern) (c :: text) = false := by
  rw [literalFirst, if_neg h, if_neg hp]

theorem literalFirst_append {pattern text : List α} (h : Aligned one pattern text) (pattern' text' : List α)
    : literalFirst one many (pattern ++ pattern') (text ++ text') = literalFirst one many pattern' text' := by
  induction h with
  | nil => rfl
  | cons hhead _ ih =>
    rw [List.cons_append, List.cons_append, literalFirst_literal hhead, ih]

/--
What is left of a text whose front can be read symbol by symbol is enough for the rest of the pattern,
wherever the reading of the front begins: a front that begins later never ends earlier, since every
`many` of it has a `many` of the text at its place.
-/
theorem exists_suffix_of_aligned {pattern text pattern' text' start : List α} (h : Aligned one pattern text)
    (hstart : start <:+ text ++ text') (hmatch : literalFirst one many (pattern ++ pattern') start = true)
    : ∃ rest, rest <:+ text' ∧ literalFirst one many pattern' rest = true := by
  induction h generalizing start with
  | nil => exact ⟨start, hstart, hmatch⟩
  | @cons p c pattern text hhead haligned ih =>
    rw [List.cons_append, List.suffix_cons_iff] at hstart
    rw [List.cons_append] at hmatch
    rcases hstart with rfl | hlater
    . rw [literalFirst_literal hhead] at hmatch
      apply ih (List.suffix_refl _) hmatch
    . cases start with
      | nil =>
        rw [literalFirst_at_end, List.forall_mem_cons, ← @literalFirst_at_end α _ one] at hmatch
        apply ih (List.nil_suffix) hmatch.2
      | cons d start =>
        have htail : start <:+ text ++ text' := (List.suffix_cons d start).trans hlater
        by_cases hliteral : p = one ∨ p = d
        . rw [literalFirst_literal hliteral] at hmatch
          apply ih htail hmatch
        . by_cases hmany : p = many
          . subst hmany
            rw [literalFirst_many hliteral] at hmatch
            obtain ⟨rest, hrest, hmatch⟩ := hmatch
            apply ih (hrest.trans hlater) hmatch
          . rw [literalFirst_mismatch hliteral hmany] at hmatch
            cases hmatch

theorem exists_suffix_of_many {pattern text : List α}
    (h : ∃ rest, rest <:+ text ∧ literalFirst one many (many :: pattern) rest = true)
    : ∃ rest, rest <:+ text ∧ literalFirst one many pattern rest = true := by
  obtain ⟨rest, hrest, hmatch⟩ := h
  cases rest with
  | nil =>
    rw [literalFirst_at_end, List.forall_mem_cons, ← @literalFirst_at_end α _ one] at hmatch
    exact ⟨[], hrest, hmatch.2⟩
  | cons c rest =>
    by_cases hliteral : many = one ∨ many = c
    . rw [literalFirst_literal hliteral] at hmatch
      exact ⟨rest, (List.suffix_cons c rest).trans hrest, hmatch⟩
    . rw [literalFirst_many hliteral] at hmatch
      obtain ⟨rest', hrest', hmatch⟩ := hmatch
      exact ⟨rest', hrest'.trans hrest, hmatch⟩

end LiteralFirst

section Matches

variable {one many}

theorem globMatches_many {pattern text : List α}
    : globMatches one many (many :: pattern) text = true ↔
        ∃ rest, rest <:+ text ∧ globMatches one many pattern rest = true := by
  conv => lhs; unfold globMatches
  rw [if_pos rfl, any_tails_iff]

theorem globMatches_symbol {p c : α} {pattern text : List α} (hp : p ≠ many)
    : globMatches one many (p :: pattern) (c :: text) = true ↔
        (p = one ∨ p = c) ∧ globMatches one many pattern text = true := by
  simp [globMatches, hp]

theorem globMatches_of_literalFirst {pattern text : List α} (h : literalFirst one many pattern text = true)
    : globMatches one many pattern text = true := by
  induction pattern generalizing text with
  | nil => exact h
  | cons p pattern ih =>
    by_cases hmany : p = many
    . subst hmany
      obtain ⟨rest, hrest, hmatch⟩ := exists_suffix_of_many ⟨text, List.suffix_refl text, h⟩
      rw [globMatches_many]
      exact ⟨rest, hrest, ih hmatch⟩
    . cases text with
      | nil =>
        rw [literalFirst_at_end] at h
        exact absurd (h p List.mem_cons_self) hmany
      | cons c text =>
        by_cases hliteral : p = one ∨ p = c
        . rw [literalFirst_literal hliteral] at h
          rw [globMatches_symbol hmany]
          exact ⟨hliteral, ih h⟩
        . rw [literalFirst_mismatch hliteral hmany] at h
          cases h

theorem Apart.of_many {pattern text rest : List α} (h : Apart one many (many :: pattern) text)
    (hrest : rest <:+ text)
    : Apart one many pattern rest := by
  rintro front back taken left rfl rfl
  by_contra hmatch
  rw [Bool.not_eq_false] at hmatch
  obtain ⟨before, rfl⟩ := hrest
  have hnot := h (many :: front) back (before ++ taken) left rfl (by simp)
  have hmatch' : globMatches one many (many :: front) (before ++ taken) = true := by
    rw [globMatches_many]
    exact ⟨taken, List.suffix_append before taken, hmatch⟩
  rw [hmatch'] at hnot
  cases hnot

theorem Apart.of_symbol {p c : α} {pattern text : List α} (h : Apart one many (p :: pattern) (c :: text))
    (hp : p ≠ many) (hliteral : p = one ∨ p = c)
    : Apart one many pattern text := by
  rintro front back taken left rfl rfl
  by_contra hmatch
  rw [Bool.not_eq_false] at hmatch
  have hnot := h (p :: front) back (c :: taken) left rfl rfl
  rw [(globMatches_symbol hp).mpr ⟨hliteral, hmatch⟩] at hnot
  cases hnot

theorem apart_of_not_mem {text : List α} (h : many ∉ text) (pattern : List α) : Apart one many pattern text := by
  rintro front back taken left _ rfl
  simp at h

theorem literalFirst_of_globMatches {pattern text : List α} (hone : many ≠ one)
    (hapart : Apart one many pattern text) (h : globMatches one many pattern text = true)
    : literalFirst one many pattern text = true := by
  -- The readings agree where no `many` of the pattern can stand at a `many` of the text.
  induction pattern generalizing text with
  | nil => exact h
  | cons p pattern ih =>
    by_cases hmany : p = many
    . subst hmany
      rw [globMatches_many] at h
      obtain ⟨rest, hrest, hmatch⟩ := h
      have hmatch' := ih (hapart.of_many hrest) hmatch
      cases text with
      | nil =>
        rw [List.suffix_nil] at hrest
        rw [hrest, literalFirst_at_end] at hmatch'
        rw [literalFirst_at_end, List.forall_mem_cons]
        exact ⟨rfl, hmatch'⟩
      | cons c text =>
        rw [literalFirst_many]
        . exact ⟨rest, hrest, hmatch'⟩
        . rintro (heq | rfl)
          . exact hone heq
          . have hnot := hapart [] pattern [] text rfl rfl
            cases hnot
    . cases text with
      | nil => simp [globMatches, hmany] at h
      | cons c text =>
        rw [globMatches_symbol hmany] at h
        rw [literalFirst_literal h.1]
        apply ih (hapart.of_symbol hmany h.1) h.2

/--
A `many` of the text is missed by the pattern that has a `one` for every symbol in front of it and then a
`many`: a text that goes on behind it matches that pattern, and one that ends there matches it with another
`one` at the end.
-/
theorem exists_pattern_of_mem {text : List α} (hone : many ≠ one) (h : many ∈ text)
    : ∃ pattern, globMatches one many pattern text = true ∧ literalFirst one many pattern text = false := by
  obtain ⟨front, back, rfl⟩ := List.append_of_mem h
  have haligned : Aligned one (List.replicate front.length one) front := by
    unfold Aligned
    clear h
    induction front with
    | nil => exact .nil
    | cons c front ih => exact .cons (.inl rfl) ih
  have hfront : ∀ pattern rest, globMatches one many pattern rest = true →
      globMatches one many (List.replicate front.length one ++ pattern) (front ++ rest) = true := by
    intro pattern rest hmatch
    clear h haligned
    induction front with
    | nil => exact hmatch
    | cons c front ih =>
      rw [List.length_cons, List.replicate_succ, List.cons_append, List.cons_append,
        globMatches_symbol hone.symm]
      exact ⟨.inl rfl, ih⟩
  cases back with
  | nil =>
    refine ⟨List.replicate front.length one ++ [many, one], hfront _ _ ?_, ?_⟩
    . rw [globMatches_many]
      refine ⟨[many], List.suffix_refl _, ?_⟩
      rw [globMatches_symbol hone.symm]
      exact ⟨.inl rfl, rfl⟩
    . rw [literalFirst_append haligned, literalFirst_literal (.inr rfl)]
      simp [literalFirst, hone.symm]
  | cons c back =>
    refine ⟨List.replicate front.length one ++ [many], hfront _ _ ?_, ?_⟩
    . rw [globMatches_many]
      exact ⟨[], List.nil_suffix, rfl⟩
    . rw [literalFirst_append haligned, literalFirst_literal (.inr rfl)]
      rfl

end Matches

end Glob

end Tith
