import Tith.Lib.Glob

/-!
This module contains the matching of a `Replaces` pattern against a whole Filename, and the proof of what
it accepts.
-/

namespace Tith

open Glob

structure ReplacesScan where
  patternIndex : Nat
  filenameIndex : Nat
  star : Option Nat
  retry : Nat
  deriving DecidableEq, Repr

def ReplacesScan.start : ReplacesScan := ⟨0, 0, none, 0⟩

/--
One turn of the loop, `none` where it returns `false`.
-/
def replacesStep (pattern filename : List Char) (s : ReplacesScan) : Option ReplacesScan :=
  if s.patternIndex < pattern.length ∧ (pattern[s.patternIndex]? = some '?' ∨
      pattern[s.patternIndex]? = filename[s.filenameIndex]?) then
    some { s with patternIndex := s.patternIndex + 1, filenameIndex := s.filenameIndex + 1 }
  else if s.patternIndex < pattern.length ∧ pattern[s.patternIndex]? = some '*' then
    some
      { s with
        star := some s.patternIndex,
        patternIndex := s.patternIndex + 1,
        retry := s.filenameIndex }
  else
    match s.star with
    | some starIndex =>
      some
        { s with
          patternIndex := starIndex + 1,
          retry := s.retry + 1,
          filenameIndex := s.retry + 1 }
    | none => none

/-- The second loop passes the stars that are left. -/
def replacesEnd (pattern : List Char) (patternIndex : Nat) : Bool :=
  patternIndex + ((pattern.drop patternIndex).takeWhile (· = '*')).length = pattern.length

/--
The first loop with a bound on its turns, `none` when they do not suffice.
-/
def replacesLoop (pattern filename : List Char) (turns : Nat) (s : ReplacesScan) : Option Bool :=
  match turns with
  | 0 => none
  | turns + 1 =>
    if s.filenameIndex < filename.length then
      match replacesStep pattern filename s with
      | some s => replacesLoop pattern filename turns s
      | none => some false
    else
      some (replacesEnd pattern s.patternIndex)

/--
The turns left: a new star is further right than the last one, a retry begins further right, and all
other turns pass a character of the pattern.
-/
def replacesTurns (pattern filename : List Char) (s : ReplacesScan) : Nat :=
  (pattern.length - s.star.elim 0 (· + 1)) * ((filename.length + 1) * (pattern.length + 1)) +
    (filename.length - s.retry) * (pattern.length + 1) + (pattern.length - s.patternIndex) + 1

def replacesMatches (pattern filename : String) : Option Bool :=
  replacesLoop pattern.toList filename.toList
    (replacesTurns pattern.toList filename.toList ReplacesScan.start) ReplacesScan.start

example : replacesMatches "a?c" "a😀c" = some true := by decide

example : replacesMatches "*.TXT" "file.txt" = some false := by decide

theorem replacesEnd_iff {pattern : List Char} {patternIndex : Nat} (h : patternIndex ≤ pattern.length)
    : replacesEnd pattern patternIndex = true ↔ ∀ p ∈ pattern.drop patternIndex, p = '*' := by
  have hlength := List.length_drop (i := patternIndex) (l := pattern)
  unfold replacesEnd
  rw [decide_eq_true_eq]
  constructor
  . intro heq p hp
    have hall := (List.takeWhile_prefix (fun c => decide (c = '*'))).eq_of_length
      (show ((pattern.drop patternIndex).takeWhile (fun c => decide (c = '*'))).length =
        (pattern.drop patternIndex).length by omega)
    rw [List.takeWhile_eq_self_iff] at hall
    exact of_decide_eq_true (hall p hp)
  . intro hall
    rw [List.takeWhile_eq_self_iff.mpr]
    . omega
    . intro p hp
      exact decide_eq_true (hall p hp)

/--
What a turn of the loop knows: before the first star the fronts have been passed symbol by symbol, and
after a star the fronts behind it have, while the answer is whether the rest of the pattern matches
some text from the last retry on.
-/
structure Scans (pattern filename : List Char) (s : ReplacesScan) : Prop where
  pattern_le : s.patternIndex ≤ pattern.length
  filename_le : s.filenameIndex ≤ filename.length
  unstarred : s.star = none →
    literalFirst '?' '*' pattern filename =
      literalFirst '?' '*' (pattern.drop s.patternIndex) (filename.drop s.filenameIndex)
  starred : ∀ starIndex, s.star = some starIndex →
    starIndex < s.patternIndex ∧ s.retry ≤ s.filenameIndex ∧
      (literalFirst '?' '*' pattern filename = true ↔ ∃ rest, rest <:+ filename.drop s.retry ∧
        literalFirst '?' '*' (pattern.drop (starIndex + 1)) rest = true) ∧
      ∃ front taken, Aligned '?' front taken ∧
        pattern.drop (starIndex + 1) = front ++ pattern.drop s.patternIndex ∧
        filename.drop s.retry = taken ++ filename.drop s.filenameIndex

namespace Scans

variable {pattern filename : List Char} {s : ReplacesScan}

theorem start (pattern filename : List Char) : Scans pattern filename ReplacesScan.start where
  pattern_le := Nat.zero_le _
  filename_le := Nat.zero_le _
  unstarred := fun _ => rfl
  starred := by
    intro starIndex h
    cases h

theorem passed (h : Scans pattern filename s) {p c : Char}
    (hp : pattern.drop s.patternIndex = p :: pattern.drop (s.patternIndex + 1))
    (hc : filename.drop s.filenameIndex = c :: filename.drop (s.filenameIndex + 1))
    (hplt : s.patternIndex < pattern.length) (hclt : s.filenameIndex < filename.length)
    (hliteral : p = '?' ∨ p = c)
    : Scans pattern filename
        { s with patternIndex := s.patternIndex + 1, filenameIndex := s.filenameIndex + 1 } where
  pattern_le := hplt
  filename_le := hclt
  unstarred := by
    intro hstar
    rw [h.unstarred hstar, hp, hc, literalFirst_literal hliteral]
  starred := by
    intro starIndex hstar
    obtain ⟨hlt, hle, hanswer, front, taken, haligned, hfront, htaken⟩ := h.starred starIndex hstar
    refine ⟨Nat.lt_succ_of_lt hlt, Nat.le_succ_of_le hle, hanswer, front ++ [p], taken ++ [c], ?_, ?_, ?_⟩
    . apply List.rel_append haligned
      exact .cons hliteral .nil
    . rw [hfront, hp, List.append_assoc, List.singleton_append]
    . rw [htaken, hc, List.append_assoc, List.singleton_append]

theorem opened (h : Scans pattern filename s) {c : Char}
    (hp : pattern.drop s.patternIndex = '*' :: pattern.drop (s.patternIndex + 1))
    (hc : filename.drop s.filenameIndex = c :: filename.drop (s.filenameIndex + 1))
    (hplt : s.patternIndex < pattern.length) (hliteral : ¬('*' = '?' ∨ '*' = c))
    : Scans pattern filename
        { s with
          star := some s.patternIndex,
          patternIndex := s.patternIndex + 1,
          retry := s.filenameIndex } where
  pattern_le := hplt
  filename_le := h.filename_le
  unstarred := by
    intro hstar
    cases hstar
  starred := by
    intro starIndex hstar
    injection hstar with hstar
    subst hstar
    refine ⟨Nat.lt_succ_self _, Nat.le_refl _, ?_, [], [], .nil, rfl, rfl⟩
    -- A star that is met by a character of the text stands for what is in front of some suffix.
    have hmany : literalFirst '?' '*' (pattern.drop s.patternIndex) (filename.drop s.filenameIndex) = true ↔
        ∃ rest, rest <:+ filename.drop s.filenameIndex ∧
          literalFirst '?' '*' (pattern.drop (s.patternIndex + 1)) rest = true := by
      rw [hp, hc, literalFirst_many hliteral]
    cases hstar : s.star with
    | none => rw [h.unstarred hstar, hmany]
    | some outer =>
      obtain ⟨_, _, hanswer, front, taken, haligned, hfront, htaken⟩ := h.starred outer hstar
      rw [hanswer, hfront, htaken]
      constructor
      . rintro ⟨rest, hrest, hmatch⟩
        have hlater := exists_suffix_of_aligned haligned hrest hmatch
        rw [hp] at hlater
        apply exists_suffix_of_many hlater
      . intro hlater
        refine ⟨taken ++ filename.drop s.filenameIndex, List.suffix_refl _, ?_⟩
        rw [literalFirst_append haligned, hmany]
        exact hlater

/--
At a character that the pattern does not take, the fronts behind the star are of no use.
-/
theorem mismatch (h : Scans pattern filename s)
    (hfalse : literalFirst '?' '*' (pattern.drop s.patternIndex) (filename.drop s.filenameIndex) = false)
    {starIndex : Nat} (hstar : s.star = some starIndex)
    : literalFirst '?' '*' (pattern.drop (starIndex + 1)) (filename.drop s.retry) = false := by
  obtain ⟨_, _, _, front, taken, haligned, hfront, htaken⟩ := h.starred starIndex hstar
  rw [hfront, htaken, literalFirst_append haligned, hfalse]

theorem retried (h : Scans pattern filename s) {starIndex : Nat} (hstar : s.star = some starIndex)
    (hclt : s.filenameIndex < filename.length)
    (hfalse : literalFirst '?' '*' (pattern.drop s.patternIndex) (filename.drop s.filenameIndex) = false)
    : Scans pattern filename
        { s with
          patternIndex := starIndex + 1,
          retry := s.retry + 1,
          filenameIndex := s.retry + 1 } := by
  have hmismatch := h.mismatch hfalse hstar
  obtain ⟨hlt, hle, hanswer, _⟩ := h.starred starIndex hstar
  have hpattern := h.pattern_le
  have hretry : s.retry < filename.length := by omega
  refine ⟨by dsimp only; omega, by dsimp only; omega, ?_, ?_⟩
  . intro hnone
    rw [hstar] at hnone
    cases hnone
  . intro other hother
    rw [hstar] at hother
    injection hother with hother
    subst hother
    refine ⟨Nat.lt_succ_self _, Nat.le_refl _, ?_, [], [], .nil, rfl, rfl⟩
    rw [hanswer]
    constructor
    . rintro ⟨rest, hrest, hmatch⟩
      rw [List.drop_eq_getElem_cons hretry, List.suffix_cons_iff] at hrest
      rcases hrest with rfl | hrest
      . rw [← List.drop_eq_getElem_cons hretry, hmismatch] at hmatch
        cases hmatch
      . exact ⟨rest, hrest, hmatch⟩
    . rintro ⟨rest, hrest, hmatch⟩
      refine ⟨rest, hrest.trans ?_, hmatch⟩
      dsimp only
      rw [List.drop_eq_getElem_cons hretry]
      apply List.suffix_cons

theorem ended (h : Scans pattern filename s) (hend : ¬s.filenameIndex < filename.length)
    : replacesEnd pattern s.patternIndex = literalFirst '?' '*' pattern filename := by
  have hnone : filename.drop s.filenameIndex = [] := List.drop_eq_nil_of_le (by omega)
  have hrest : replacesEnd pattern s.patternIndex =
      literalFirst '?' '*' (pattern.drop s.patternIndex) (filename.drop s.filenameIndex) := by
    rw [hnone, Bool.eq_iff_iff, literalFirst_at_end, replacesEnd_iff h.pattern_le]
  rw [hrest]
  cases hstar : s.star with
  | none => rw [h.unstarred hstar]
  | some starIndex =>
    obtain ⟨_, _, hanswer, front, taken, haligned, hfront, htaken⟩ := h.starred starIndex hstar
    rw [Bool.eq_iff_iff, hanswer, hfront, htaken, hnone]
    constructor
    . intro hmatch
      refine ⟨_, List.suffix_refl _, ?_⟩
      rw [literalFirst_append haligned, hmatch]
    . rintro ⟨rest, hsuffix, hmatch⟩
      obtain ⟨rest', hsuffix', hmatch'⟩ := exists_suffix_of_aligned haligned hsuffix hmatch
      rw [List.suffix_nil] at hsuffix'
      rw [← hsuffix', hmatch']

end Scans

section Turns

variable {pattern filename : List Char} {s : ReplacesScan}

theorem replacesTurns_passed (hplt : s.patternIndex < pattern.length)
    : replacesTurns pattern filename
        { s with patternIndex := s.patternIndex + 1, filenameIndex := s.filenameIndex + 1 } <
          replacesTurns pattern filename s := by
  unfold replacesTurns
  dsimp only
  omega

theorem replacesTurns_opened (h : Scans pattern filename s) (hplt : s.patternIndex < pattern.length)
    : replacesTurns pattern filename
        { s with
          star := some s.patternIndex,
          patternIndex := s.patternIndex + 1,
          retry := s.filenameIndex } <
          replacesTurns pattern filename s := by
  have hle : s.star.elim 0 (· + 1) ≤ s.patternIndex := by
    cases hstar : s.star with
    | none => apply Nat.zero_le
    | some starIndex => exact (h.starred starIndex hstar).1
  obtain ⟨left, hleft⟩ := Nat.exists_eq_add_of_le hle
  unfold replacesTurns
  simp only [Option.elim_some]
  have hstars : pattern.length - s.star.elim 0 (· + 1) =
      (pattern.length - (s.patternIndex + 1)) + (left + 1) := by omega
  have hretries : (filename.length - s.filenameIndex) * (pattern.length + 1) ≤
      filename.length * (pattern.length + 1) := Nat.mul_le_mul_right _ (Nat.sub_le _ _)
  have hblock : (filename.length + 1) * (pattern.length + 1) ≤
      (left + 1) * ((filename.length + 1) * (pattern.length + 1)) :=
    Nat.le_mul_of_pos_left _ (Nat.succ_pos left)
  have hsplit : (filename.length + 1) * (pattern.length + 1) =
      filename.length * (pattern.length + 1) + (pattern.length + 1) := by
    rw [Nat.add_mul, Nat.one_mul]
  rw [hstars, Nat.add_mul (pattern.length - (s.patternIndex + 1))]
  omega

theorem replacesTurns_retried (starIndex : Nat) (hretry : s.retry < filename.length)
    : replacesTurns pattern filename
        { s with
          patternIndex := starIndex + 1,
          retry := s.retry + 1,
          filenameIndex := s.retry + 1 } <
          replacesTurns pattern filename s := by
  unfold replacesTurns
  dsimp only
  have hretries : filename.length - s.retry = (filename.length - (s.retry + 1)) + 1 := by omega
  rw [hretries, Nat.add_mul (filename.length - (s.retry + 1)), Nat.one_mul]
  omega

end Turns

theorem replacesStep_mismatch {pattern filename : List Char} {s : ReplacesScan} (h : Scans pattern filename s)
    (hclt : s.filenameIndex < filename.length)
    (hfalse : literalFirst '?' '*' (pattern.drop s.patternIndex) (filename.drop s.filenameIndex) = false)
    (hstep : replacesStep pattern filename s = s.star.map (fun starIndex =>
      { s with patternIndex := starIndex + 1, retry := s.retry + 1, filenameIndex := s.retry + 1 }))
    : (∃ s', replacesStep pattern filename s = some s' ∧ Scans pattern filename s' ∧
        replacesTurns pattern filename s' < replacesTurns pattern filename s) ∨
      (replacesStep pattern filename s = none ∧ literalFirst '?' '*' pattern filename = false) := by
  cases hstar : s.star with
  | none =>
    right
    rw [hstep, hstar, h.unstarred hstar]
    exact ⟨rfl, hfalse⟩
  | some starIndex =>
    left
    have hretry := (h.starred starIndex hstar).2.1
    rw [hstep, hstar]
    exact ⟨_, rfl, hstar ▸ h.retried hstar hclt hfalse,
      hstar ▸ replacesTurns_retried starIndex (Nat.lt_of_le_of_lt hretry hclt)⟩

theorem replacesStep_spec {pattern filename : List Char} {s : ReplacesScan} (h : Scans pattern filename s)
    (hclt : s.filenameIndex < filename.length)
    : (∃ s', replacesStep pattern filename s = some s' ∧ Scans pattern filename s' ∧
        replacesTurns pattern filename s' < replacesTurns pattern filename s) ∨
      (replacesStep pattern filename s = none ∧ literalFirst '?' '*' pattern filename = false) := by
  have hc := List.drop_eq_getElem_cons hclt
  by_cases hplt : s.patternIndex < pattern.length
  . have hp := List.drop_eq_getElem_cons hplt
    have hliteral' : pattern[s.patternIndex]? = some '?' ∨
        pattern[s.patternIndex]? = filename[s.filenameIndex]? ↔
          pattern[s.patternIndex] = '?' ∨ pattern[s.patternIndex] = filename[s.filenameIndex] := by
      rw [List.getElem?_eq_getElem hplt, List.getElem?_eq_getElem hclt, Option.some.injEq, Option.some.injEq]
    have hmany' : pattern[s.patternIndex]? = some '*' ↔ pattern[s.patternIndex] = '*' := by
      rw [List.getElem?_eq_getElem hplt, Option.some.injEq]
    by_cases hliteral : pattern[s.patternIndex] = '?' ∨ pattern[s.patternIndex] = filename[s.filenameIndex]
    . left
      refine ⟨_, ?_, h.passed hp hc hplt hclt hliteral, replacesTurns_passed hplt⟩
      rw [replacesStep, if_pos ⟨hplt, hliteral'.mpr hliteral⟩]
    . by_cases hmany : pattern[s.patternIndex] = '*'
      . left
        have hopened := h.opened (hmany ▸ hp) hc hplt (hmany ▸ hliteral)
        refine ⟨_, ?_, hopened, replacesTurns_opened h hplt⟩
        rw [replacesStep, if_neg (fun hpassed => hliteral (hliteral'.mp hpassed.2)),
          if_pos ⟨hplt, hmany'.mpr hmany⟩]
      . apply replacesStep_mismatch h hclt
        . rw [hp, hc, literalFirst_mismatch hliteral hmany]
        . rw [replacesStep, if_neg (fun hpassed => hliteral (hliteral'.mp hpassed.2)),
            if_neg (fun hopened => hmany (hmany'.mp hopened.2))]
          cases s.star <;> rfl
  . apply replacesStep_mismatch h hclt
    . rw [List.drop_eq_nil_of_le (by omega), hc]
      rfl
    . rw [replacesStep, if_neg (fun hpassed => hplt hpassed.1), if_neg (fun hopened => hplt hopened.1)]
      cases s.star <;> rfl

/--
The loop ends, and its answer is the reading in which symbols are compared first.
-/
theorem replacesLoop_eq {pattern filename : List Char} {turns : Nat} {s : ReplacesScan}
    (h : Scans pattern filename s) (hturns : replacesTurns pattern filename s ≤ turns)
    : replacesLoop pattern filename turns s = some (literalFirst '?' '*' pattern filename) := by
  induction turns generalizing s with
  | zero =>
    unfold replacesTurns at hturns
    omega
  | succ turns ih =>
    unfold replacesLoop
    split
    . next hclt =>
      rcases replacesStep_spec h hclt with ⟨s', hstep, h', hless⟩ | ⟨hstep, hfalse⟩
      . rw [hstep]
        apply ih h'
        omega
      . rw [hstep, hfalse]
    . next hend => rw [h.ended hend]

theorem replacesMatches_eq (pattern filename : String)
    : replacesMatches pattern filename = some (literalFirst '?' '*' pattern.toList filename.toList) :=
  replacesLoop_eq (Scans.start _ _) (Nat.le_refl _)

theorem replacesMatches_of_apart {pattern filename : String}
    (h : Apart '?' '*' pattern.toList filename.toList)
    : replacesMatches pattern filename = some (globMatches '?' '*' pattern.toList filename.toList) := by
  -- A Filename is matched as the pattern says where no star of the pattern can stand at a star of it.
  rw [replacesMatches_eq]
  congr 1
  rw [Bool.eq_iff_iff]
  constructor
  . apply globMatches_of_literalFirst
  . apply literalFirst_of_globMatches (by decide) h

/--
The loop always ends, and what it takes is matched by the pattern. A Filename is matched as every pattern
says exactly when there is no star in it. One with stars still is where no star of the pattern can stand
at one of them.
-/
theorem replacesMatches_iff (filename : String)
    : (∀ pattern, (replacesMatches pattern filename).isSome = true) ∧
      (∀ pattern, replacesMatches pattern filename = some true →
        globMatches '?' '*' pattern.toList filename.toList = true) ∧
      ((∀ pattern, replacesMatches pattern filename =
          some (globMatches '?' '*' pattern.toList filename.toList)) ↔ '*' ∉ filename.toList) ∧
      ∀ pattern, Apart '?' '*' pattern.toList filename.toList →
        replacesMatches pattern filename =
          some (globMatches '?' '*' pattern.toList filename.toList) := by
  refine ⟨?_, ?_, ⟨?_, ?_⟩, fun pattern => replacesMatches_of_apart⟩
  . intro pattern
    rw [replacesMatches_eq]
    rfl
  . intro pattern h
    rw [replacesMatches_eq] at h
    exact globMatches_of_literalFirst (Option.some.inj h)
  . intro h hmem
    obtain ⟨pattern, hmatch, hfalse⟩ := @exists_pattern_of_mem _ _ '?' '*' _ (by decide) hmem
    have hsame := h (String.ofList pattern)
    rw [replacesMatches_eq, String.toList_ofList, hmatch, hfalse] at hsame
    cases hsame
  . intro h pattern
    exact replacesMatches_of_apart (apart_of_not_mem h _)

/--
The pattern for every Filename does not match one that begins with a star.
-/
theorem replacesMatches_star
    : ¬∀ pattern filename, replacesMatches pattern filename =
        some (globMatches '?' '*' pattern.toList filename.toList) := by
  intro h
  have hstar := h "*" "*a"
  revert hstar
  decide

/--
The first star of the pattern stands in front of the Filename and takes its star with the rest.
-/
theorem replacesMatches_iff_suffix : replacesMatches "*.txt" "a*b.txt" = some true := by
  have hglob := (replacesMatches_iff "a*b.txt").2.2.2 "*.txt" (by
    intro front back taken left hpattern hfilename
    cases front with
    | nil =>
      cases taken with
      | nil => simp at hfilename
      | cons => rfl
    | cons p front =>
      have hmem : '*' ∈ ['.', 't', 'x', 't'] := by
        have hrest : ['.', 't', 'x', 't'] = front ++ '*' :: back := (List.cons.inj hpattern).2
        rw [hrest]
        simp
      simp at hmem)
  rw [hglob]
  decide

end Tith
