import Tith.Config.Pattern
import Tith.Wire.Lemmas.Trimmed
import Tith.Wire.Spelling

/-!
This module contains the patterns of addresses as they are written, and which of them mean what they say.
-/

namespace Tith

inductive WrittenRange where
  | single (number : Int)
  | span (first last : Int)
  deriving DecidableEq

inductive WrittenNumber where
  | any
  | exact (number : Int)
  | list (ranges : List WrittenRange)
  deriving DecidableEq

namespace WrittenRange

def text (range : WrittenRange) : List Char :=
  match range with
  | .single number => showInt number
  | .span first last => showInt first ++ '-' :: showInt last

def ends (range : WrittenRange) : Int × Int :=
  match range with
  | .single number => (number, number)
  | .span first last => (first, last)

end WrittenRange

def bracketText (values : List (List Char)) : List Char := '<' :: ([','].intercalate values ++ ['>'])

namespace WrittenNumber

def text (part : WrittenNumber) : List Char :=
  match part with
  | .any => ['*']
  | .exact number => showInt number
  | .list ranges => bracketText (ranges.map (·.text))

def pattern (part : WrittenNumber) : NumberPattern :=
  match part with
  | .any => .any
  | .exact number => .exact number
  | .list ranges => .list (ranges.map (·.ends))

def InRange (part : WrittenNumber) (minimum maximum : Int) : Prop :=
  match part with
  | .any => True
  | .exact number => minimum ≤ number ∧ number ≤ maximum
  | .list ranges =>
    ranges ≠ [] ∧ ∀ range ∈ ranges, minimum ≤ range.ends.1 ∧ range.ends.1 ≤ range.ends.2 ∧ range.ends.2 ≤ maximum

def Admits (part : WrittenNumber) (value : Int) : Prop :=
  match part with
  | .any => value ≠ -1
  | .exact number => value = number
  | .list ranges => ∃ range ∈ ranges, range.ends.1 ≤ value ∧ value ≤ range.ends.2

theorem matchNumber_pattern (part : WrittenNumber) (value : Int)
    : matchNumber part.pattern value = true ↔ part.Admits value := by
  cases part with
  | any => simp [matchNumber, pattern, Admits]
  | exact number => simp [matchNumber, pattern, Admits, eq_comm]
  | list ranges => simp [matchNumber, pattern, Admits]

end WrittenNumber

namespace DomainPattern

def domains (part : DomainPattern) : List String :=
  match part with
  | .any => []
  | .exact domain => [domain]
  | .list domains => domains

def text (part : DomainPattern) : List Char :=
  match part with
  | .any => ['*']
  | .exact domain => domain.toList
  | .list domains => bracketText (domains.map String.toList)

def IsWritten (part : DomainPattern) : Prop :=
  part ≠ .list [] ∧ ∀ domain ∈ part.domains, validateDomain domain = .ok ()

def Admits (part : DomainPattern) (value : String) : Prop :=
  match part with
  | .any => True
  | .exact domain => value = domain
  | .list domains => value ∈ domains

theorem matchDomain_iff (part : DomainPattern) (value : String)
    : matchDomain part value = true ↔ part.Admits value := by
  cases part with
  | any => simp [matchDomain, Admits]
  | exact domain => simp [matchDomain, Admits, eq_comm]
  | list domains => simp [matchDomain, Admits]

end DomainPattern

def numberBounds (c : Char) : Int × Int := if c = '.' then (0, 65535) else (-1, 32767)

def writtenParts (zone net node point : Option WrittenNumber) : List (Char × WrittenNumber) :=
  [('#', zone), (':', net), ('/', node), ('.', point)].filterMap fun (c, part) => part.map (c, ·)

/--
A pattern as it can be written: from valid domains and numbers within their bounds, with a wildcard or a list.
-/
structure WrittenPattern where
  domain : DomainPattern
  zone : Option WrittenNumber
  net : Option WrittenNumber
  node : Option WrittenNumber
  point : Option WrittenNumber
  valid : domain.IsWritten
  inRange : ∀ part ∈ writtenParts zone net node point,
    part.2.InRange (numberBounds part.1).1 (numberBounds part.1).2
  wildcard : domain.isWildcard ∨ ∃ part ∈ writtenParts zone net node point, part.2.pattern.isWildcard = true

namespace WrittenPattern

def parts (written : WrittenPattern) : List (Char × WrittenNumber) :=
  writtenParts written.zone written.net written.node written.point

def text (written : WrittenPattern) : List Char :=
  written.domain.text ++ written.parts.flatMap fun (c, part) => c :: part.text

/--
A part that is omitted stands for any value.
-/
def Satisfied (written : WrittenPattern) (address : Address) : Prop :=
  written.domain.Admits address.domain ∧ (written.zone.getD .any).Admits address.zone ∧
    (written.net.getD .any).Admits address.net ∧ (written.node.getD .any).Admits address.node ∧
      (written.point.getD .any).Admits address.point.toNat

/--
The text parses, and what it parses to matches the addresses that satisfy every part.
-/
def MeansWhatItSays (written : WrittenPattern) : Prop :=
  ∃ pattern, AddressPattern.fromStr (String.ofList written.text) = .ok pattern ∧
    ∀ address, pattern.matches address = true ↔ written.Satisfied address

end WrittenPattern

section Brackets

theorem bracketed_bracketText (values : List (List Char))
    : bracketed (bracketText values) = some ([','].intercalate values) := by
  show (if ([','].intercalate values ++ ['>']).getLast? = some '>' then
    some ([','].intercalate values ++ ['>']).dropLast else none) = _
  rw [List.getLast?_concat, if_pos rfl, List.dropLast_concat]

theorem bracketed_eq_none {text : List Char} (h : text.head? ≠ some '<') : bracketed text = none := by
  cases text with
  | nil => rfl
  | cons c rest =>
    unfold bracketed
    split
    . next heq =>
      injection heq with hc
      rw [hc] at h
      exact absurd rfl h
    . rfl

theorem bracketText_ne_star (values : List (List Char)) : bracketText values ≠ ['*'] := by
  intro h
  injection h with hc
  cases hc

theorem mem_bracketText {values : List (List Char)} {c : Char} (h : c ∈ bracketText values)
    : c ∈ ['<', ',', '>'] ∨ ∃ value ∈ values, c ∈ value := by
  unfold bracketText at h
  simp only [List.mem_cons, List.mem_append, List.not_mem_nil, or_false] at h ⊢
  rcases h with h | h | h
  . exact .inl (.inl h)
  . rcases List.mem_intercalate_singleton h with h | ⟨value, hvalue, h⟩
    . exact .inl (.inr (.inl h))
    . exact .inr ⟨value, hvalue, h⟩
  . exact .inl (.inr (.inr h))

end Brackets

section Number

variable {minimum maximum : Int}

theorem showInt_ne_nil (n : Int) : showInt n ≠ [] := by
  unfold showInt
  split
  . exact Nat.toDigits_ne_nil
  . exact List.cons_ne_nil _ _

theorem not_mem_showInt {n : Int} {c : Char} (hminus : c ≠ '-') (hdigit : c.isDigit = false) : c ∉ showInt n := by
  intro h
  rcases mem_showInt h with h | h
  . exact hminus h
  . rw [hdigit] at h
    cases h

theorem not_mem_drop_showInt (n : Int) : '-' ∉ (showInt n).drop 1 := by
  unfold showInt
  split
  . exact fun h => Text.not_mem_toDigits (by decide) _ (List.mem_of_mem_drop h)
  . exact fun h => Text.not_mem_toDigits (by decide) _ h

theorem parsePatternNumber_showInt {n : Int} (hn : -1 ≤ n ∧ n ≤ 65535) : parsePatternNumber (showInt n) = .ok n :=
  parseTrimmedNumber_showInt hn

theorem parsePatternRange_text {range : WrittenRange} (hminimum : -1 ≤ minimum) (hmaximum : maximum ≤ 65535)
    (hlow : minimum ≤ range.ends.1) (horder : range.ends.1 ≤ range.ends.2) (hhigh : range.ends.2 ≤ maximum)
    : parsePatternRange range.text minimum maximum = .ok range.ends := by
  cases range with
  | single number =>
    have hnone : ((showInt number).drop 1).findIdx? (· = '-') = none := by
      rw [List.findIdx?_eq_none_iff]
      intro c hc
      rw [decide_eq_false_iff_not]
      rintro rfl
      exact not_mem_drop_showInt number hc
    unfold WrittenRange.ends at hlow hhigh horder
    unfold parsePatternRange WrittenRange.text WrittenRange.ends
    dsimp only at hlow hhigh horder ⊢
    rw [hnone]
    dsimp only
    rw [parsePatternNumber_showInt (by omega)]
    simp only [Except.bind_of_ok]
    rw [if_neg (by omega)]
  | span first last =>
    unfold WrittenRange.ends at hlow hhigh horder
    dsimp only at hlow hhigh horder
    obtain ⟨c, rest, hfirst⟩ := List.exists_cons_of_ne_nil (showInt_ne_nil first)
    have hrest : '-' ∉ rest := by
      have hdrop := not_mem_drop_showInt first
      rwa [hfirst, List.drop_succ_cons, List.drop_zero] at hdrop
    have hindex : ((c :: (rest ++ '-' :: showInt last)).drop 1).findIdx? (· = '-') = some rest.length := by
      rw [List.drop_succ_cons, List.drop_zero, List.findIdx?_eq_some_iff_getElem]
      refine ⟨by simp, by simp, ?_⟩
      intro index hlt
      rw [List.getElem_append_left hlt, Bool.not_eq_true, decide_eq_false_iff_not]
      exact fun heq => hrest (heq ▸ List.getElem_mem hlt)
    have htake : (c :: (rest ++ '-' :: showInt last)).take (rest.length + 1) = showInt first := by
      rw [hfirst, List.take_succ_cons, List.take_left']
      rfl
    have hdrop : (c :: (rest ++ '-' :: showInt last)).drop (rest.length + 2) = showInt last := by
      rw [List.drop_succ_cons, ← List.drop_drop, List.drop_left' rfl]
      rfl
    unfold parsePatternRange WrittenRange.text WrittenRange.ends
    dsimp only
    rw [hfirst, List.cons_append, hindex]
    dsimp only
    rw [htake, hdrop, parsePatternNumber_showInt (by omega), parsePatternNumber_showInt (by omega)]
    simp only [Except.bind_of_ok]
    rw [if_neg (by omega)]

theorem not_mem_text_range {range : WrittenRange} {c : Char} (hminus : c ≠ '-') (hdigit : c.isDigit = false)
    : c ∉ range.text := by
  cases range with
  | single number => exact not_mem_showInt hminus hdigit
  | span first last =>
    unfold WrittenRange.text
    rw [List.mem_append, List.mem_cons]
    rintro (h | h | h)
    . exact not_mem_showInt hminus hdigit h
    . exact hminus h
    . exact not_mem_showInt hminus hdigit h

theorem parseNumberPattern_text {part : WrittenNumber} (hminimum : -1 ≤ minimum) (hmaximum : maximum ≤ 65535)
    (h : part.InRange minimum maximum)
    : parseNumberPattern part.text minimum maximum = .ok part.pattern := by
  cases part with
  | any => rfl
  | exact number =>
    have hstar : showInt number ≠ ['*'] := by
      intro htext
      have hmem : '*' ∈ showInt number := by
        rw [htext]
        exact List.mem_singleton.mpr rfl
      exact not_mem_showInt (by decide) (by decide) hmem
    have hbracket : (showInt number).head? ≠ some '<' :=
      fun hhead => not_mem_showInt (by decide) (by decide) (List.mem_of_mem_head? hhead)
    unfold WrittenNumber.InRange at h
    unfold parseNumberPattern WrittenNumber.text WrittenNumber.pattern
    dsimp only at h ⊢
    rw [if_neg hstar, bracketed_eq_none hbracket]
    dsimp only
    rw [parsePatternNumber_showInt (by omega), Except.bind_of_ok, if_pos h]
  | list ranges =>
    unfold WrittenNumber.InRange at h
    obtain ⟨hne, hranges⟩ := h
    have hsplit : ([','].intercalate (ranges.map (·.text))).splitOn ',' = ranges.map (·.text) := by
      apply List.splitOn_intercalate
      . intro text htext
        obtain ⟨range, _, rfl⟩ := List.mem_map.mp htext
        exact not_mem_text_range (by decide) (by decide)
      . exact fun hnil => hne (List.map_eq_nil_iff.mp hnil)
    have hall : (ranges.map (·.text)).mapM (parsePatternRange · minimum maximum) = .ok (ranges.map (·.ends)) := by
      apply Except.mapM_of_forall₂
      rw [List.forall₂_map_left_iff, List.forall₂_map_right_iff, List.forall₂_same]
      intro range hrange
      obtain ⟨hlow, horder, hhigh⟩ := hranges range hrange
      exact parsePatternRange_text hminimum hmaximum hlow horder hhigh
    unfold parseNumberPattern WrittenNumber.text WrittenNumber.pattern
    dsimp only
    rw [if_neg (bracketText_ne_star _), bracketed_bracketText]
    dsimp only
    rw [hsplit, hall]
    rfl

theorem not_prefix_of_mem_text {part : WrittenNumber} {c : Char} (h : c ∈ part.text) : c ∉ patternPrefixes := by
  intro hprefixed
  have hminus : c ≠ '-' := by
    rintro rfl
    revert hprefixed
    decide
  have hdigit : c.isDigit = false := by
    unfold patternPrefixes at hprefixed
    simp only [List.mem_cons, List.not_mem_nil, or_false] at hprefixed
    rcases hprefixed with rfl | rfl | rfl | rfl <;> rfl
  cases part with
  | any =>
    rw [List.mem_singleton.mp h] at hprefixed
    revert hprefixed
    decide
  | exact number => exact not_mem_showInt hminus hdigit h
  | list ranges =>
    rcases mem_bracketText h with h | ⟨text, htext, h⟩
    . simp only [List.mem_cons, List.not_mem_nil, or_false] at h
      rcases h with rfl | rfl | rfl <;> (revert hprefixed; decide)
    . obtain ⟨range, _, rfl⟩ := List.mem_map.mp htext
      exact not_mem_text_range hminus hdigit h

theorem parsePatternNumber_ok {text : List Char} {n : Int} (h : parsePatternNumber text = .ok n) : showInt n = text := by
  unfold parsePatternNumber at h
  split at h
  . next htext =>
    injection h with h
    rw [← h, htext]
    rfl
  . exact (parseNumber_ok h).1

theorem parseNumberPattern_exact {text : List Char} {parsed : NumberPattern} (hstar : '*' ∉ text) (hopen : '<' ∉ text)
    (h : parseNumberPattern text minimum maximum = .ok parsed)
    : ∃ n, showInt n = text ∧ minimum ≤ n ∧ n ≤ maximum := by
  have hbracket : bracketed text = none := bracketed_eq_none (fun hhead => hopen (List.mem_of_mem_head? hhead))
  unfold parseNumberPattern at h
  rw [if_neg (fun heq => hstar (by rw [heq]; exact List.mem_singleton.mpr rfl)), hbracket] at h
  dsimp only at h
  obtain ⟨n, hn, h⟩ := Except.bind_ok_iff.mp h
  split at h
  . next hrange => exact ⟨n, parsePatternNumber_ok hn, hrange⟩
  . cases h

theorem exists_admitted {part : WrittenNumber} (h : part.InRange minimum maximum) (hzero : minimum ≤ 0 ∧ 0 ≤ maximum)
    : ∃ value, minimum ≤ value ∧ value ≤ maximum ∧ part.Admits value := by
  cases part with
  | any => exact ⟨0, hzero.1, hzero.2, show (0 : Int) ≠ -1 by decide⟩
  | exact number => exact ⟨number, h.1, h.2, rfl⟩
  | list ranges =>
    obtain ⟨hne, hranges⟩ := h
    obtain ⟨range, rest, rfl⟩ := List.exists_cons_of_ne_nil hne
    obtain ⟨hlow, horder, hhigh⟩ := hranges range List.mem_cons_self
    exact ⟨range.ends.1, hlow, by omega, range, List.mem_cons_self, le_rfl, horder⟩

end Number

section Domain

theorem validateDomain_chars {domain : String} (h : validateDomain domain = .ok ())
    : domain.toList ≠ [] ∧ ∀ c ∈ ['#', '*', ',', '<', '>'], c ∉ domain.toList := by
  unfold validateDomain at h
  split at h
  . cases h
  . next hne =>
    refine ⟨hne, ?_⟩
    split at h
    . cases h
    . split at h
      . cases h
      . next hany =>
        intro c hc hmem
        apply hany
        rw [List.any_eq_true]
        refine ⟨c, hmem, ?_⟩
        rw [Bool.or_eq_true, List.contains_iff_mem]
        exact .inr hc

theorem parseDomainPattern_text {part : DomainPattern} (h : part.IsWritten) : parseDomainPattern part.text = .ok part := by
  obtain ⟨hne, hvalid⟩ := h
  cases part with
  | any => rfl
  | exact domain =>
    have hdomain := hvalid domain (List.mem_singleton.mpr rfl)
    obtain ⟨_, hchars⟩ := validateDomain_chars hdomain
    have hstar : domain.toList ≠ ['*'] := by
      intro htext
      apply hchars '*' (by decide)
      rw [htext]
      exact List.mem_singleton.mpr rfl
    have hbracket : domain.toList.head? ≠ some '<' :=
      fun hhead => hchars '<' (by decide) (List.mem_of_mem_head? hhead)
    unfold parseDomainPattern DomainPattern.text
    dsimp only
    rw [if_neg hstar, bracketed_eq_none hbracket]
    dsimp only
    rw [String.ofList_toList, hdomain]
    rfl
  | list domains =>
    have hsplit : ([','].intercalate (domains.map String.toList)).splitOn ',' = domains.map String.toList := by
      apply List.splitOn_intercalate
      . intro text htext
        obtain ⟨domain, hdomain, rfl⟩ := List.mem_map.mp htext
        exact (validateDomain_chars (hvalid domain hdomain)).2 ',' (by decide)
      . exact fun hnil => hne (by rw [List.map_eq_nil_iff.mp hnil])
    have hall : (domains.map String.toList).mapM (fun value => do
        validateDomain (String.ofList value)
        (.ok (String.ofList value) : Except AddressError String)) = .ok domains := by
      apply Except.mapM_of_forall₂
      rw [List.forall₂_map_left_iff, List.forall₂_same]
      intro domain hdomain
      rw [String.ofList_toList, hvalid domain hdomain]
      rfl
    unfold parseDomainPattern DomainPattern.text
    dsimp only
    rw [if_neg (bracketText_ne_star _), bracketed_bracketText]
    dsimp only
    rw [hsplit, hall]
    rfl

theorem parseDomainPattern_of_open {text : List Char} {domain : DomainPattern} (hopen : text.head? = some '<')
    (hclose : '>' ∉ text)
    : parseDomainPattern text ≠ .ok domain := by
  intro h
  cases text with
  | nil => cases hopen
  | cons c rest =>
    injection hopen with hc
    subst hc
    have hbracket : bracketed ('<' :: rest) = none := by
      show (if rest.getLast? = some '>' then some rest.dropLast else none) = none
      rw [if_neg]
      exact fun hlast => hclose (List.mem_cons_of_mem _ (List.mem_of_getLast? hlast))
    unfold parseDomainPattern at h
    rw [if_neg (by simp), hbracket] at h
    dsimp only at h
    obtain ⟨_, hvalid, _⟩ := Except.bind_ok_iff.mp h
    apply (validateDomain_chars hvalid).2 '<' (by decide)
    rw [String.toList_ofList]
    exact List.mem_cons_self

theorem parseDomainPattern_exact {text : List Char} {domain : DomainPattern} (hstar : '*' ∉ text) (hopen : '<' ∉ text)
    (h : parseDomainPattern text = .ok domain)
    : domain = .exact (String.ofList text) ∧ validateDomain (String.ofList text) = .ok () := by
  have hbracket : bracketed text = none := bracketed_eq_none (fun hhead => hopen (List.mem_of_mem_head? hhead))
  unfold parseDomainPattern at h
  rw [if_neg (fun heq => hstar (by rw [heq]; exact List.mem_singleton.mpr rfl)), hbracket] at h
  dsimp only at h
  obtain ⟨_, hvalid, h⟩ := Except.bind_ok_iff.mp h
  injection h with h
  exact ⟨h.symm, hvalid⟩

end Domain

section Components

/--
A rest that the text in front of it does not run into.
-/
def StartsPart (rest : List Char) : Prop := ∀ c ∈ rest.head?, c ∈ patternPrefixes

theorem span_part {text rest : List Char} (htext : ∀ c ∈ text, c ∉ patternPrefixes) (hrest : StartsPart rest)
    : (text ++ rest).span (fun c => !patternPrefixes.contains c) = (text, rest) := by
  apply List.span_append
  . intro c hc
    simpa using htext c hc
  . intro c hc
    simpa using hrest c hc

def AddressPattern.set (pattern : AddressPattern) (c : Char) (parsed : NumberPattern) : AddressPattern :=
  if c = '#' then
    { pattern with zone := parsed }
  else if c = ':' then
    { pattern with net := parsed }
  else if c = '/' then
    { pattern with node := parsed }
  else
    { pattern with point := parsed }

theorem go_part {fuel : Nat} {c : Char} {text rest : List Char} {pattern : AddressPattern} {lastPrefix : Nat}
    {wildcardSeen : Bool} (htext : ∀ c ∈ text, c ∉ patternPrefixes) (hrest : StartsPart rest)
    (horder : lastPrefix < patternOrder c)
    : AddressPattern.fromStr.go (fuel + 1) (c :: (text ++ rest)) pattern lastPrefix wildcardSeen =
        (parseNumberPattern text (numberBounds c).1 (numberBounds c).2).bind fun parsed =>
          AddressPattern.fromStr.go fuel rest (pattern.set c parsed) (patternOrder c)
            (wildcardSeen || parsed.isWildcard) := by
  rw [AddressPattern.fromStr.go, if_neg (by omega), span_part htext hrest]
  unfold numberBounds
  by_cases hpoint : c = '.'
  . simp only [if_pos hpoint]
    rfl
  . simp only [if_neg hpoint]
    rfl

theorem startsPart_flatMap {parts : List (Char × WrittenNumber)} (h : ∀ part ∈ parts, part.1 ∈ patternPrefixes)
    : StartsPart (parts.flatMap fun (c, part) => c :: part.text) := by
  intro c hc
  cases parts with
  | nil => cases hc
  | cons part rest =>
    injection hc with hc
    rw [← hc]
    exact h part List.mem_cons_self

theorem go_parts {parts : List (Char × WrittenNumber)} (hprefixes : ∀ part ∈ parts, part.1 ∈ patternPrefixes)
    (hinRange : ∀ part ∈ parts, part.2.InRange (numberBounds part.1).1 (numberBounds part.1).2)
    {lastPrefix : Nat} (horder : (lastPrefix :: parts.map fun part => patternOrder part.1).Pairwise (· < ·))
    (pattern : AddressPattern) (wildcardSeen : Bool) {fuel : Nat}
    (hfuel : (parts.flatMap fun (c, part) => c :: part.text).length ≤ fuel)
    : AddressPattern.fromStr.go fuel (parts.flatMap fun (c, part) => c :: part.text) pattern lastPrefix wildcardSeen =
        .ok (parts.foldl (fun pattern part => pattern.set part.1 part.2.pattern) pattern,
          wildcardSeen || parts.any fun part => part.2.pattern.isWildcard) := by
  induction parts generalizing pattern wildcardSeen lastPrefix fuel with
  | nil =>
    rw [List.flatMap_nil, AddressPattern.fromStr.go, List.any_nil, Bool.or_false]
    rfl
  | cons part rest ih =>
    rw [List.flatMap_cons, List.length_append, List.length_cons] at hfuel
    rw [List.map_cons, List.pairwise_cons] at horder
    have hbounds : -1 ≤ (numberBounds part.1).1 ∧ (numberBounds part.1).2 ≤ 65535 := by
      unfold numberBounds
      split <;> decide
    obtain ⟨fuel, rfl⟩ := Nat.exists_eq_add_of_le (show 1 ≤ fuel by omega)
    have hrest := startsPart_flatMap (fun part hpart => hprefixes part (List.mem_cons_of_mem _ hpart))
    rw [List.flatMap_cons, List.cons_append, Nat.add_comm 1 fuel, go_part (fun c hc => not_prefix_of_mem_text hc) hrest
      (horder.1 _ List.mem_cons_self), parseNumberPattern_text hbounds.1 hbounds.2 (hinRange part List.mem_cons_self)]
    show AddressPattern.fromStr.go _ _ _ _ _ = _
    rw [ih (fun part hpart => hprefixes part (List.mem_cons_of_mem _ hpart))
      (fun part hpart => hinRange part (List.mem_cons_of_mem _ hpart)) horder.2 _ _ (by omega), List.any_cons,
      Bool.or_assoc]
    rfl

theorem mem_prefixes_iff {c : Char} : patternPrefixes.contains c = true ↔ c ∈ patternPrefixes := List.contains_iff_mem

theorem exists_front (text : List Char)
    : ∃ front rest, text = front ++ rest ∧ (∀ c ∈ front, c ∉ patternPrefixes) ∧ StartsPart rest ∧
        text.span (fun c => !patternPrefixes.contains c) = (front, rest) := by
  refine ⟨_, _, List.takeWhile_append_dropWhile.symm, ?_, ?_, List.span_eq_takeWhile_dropWhile _ _⟩
  . intro c hc
    simpa using List.mem_takeWhile_imp hc
  . intro c hc
    have hstop := List.head?_dropWhile_not (fun c => !patternPrefixes.contains c) text
    rw [Option.mem_def] at hc
    simp only [hc] at hstop
    simpa using hstop

theorem go_ok {fuel : Nat} {rest : List Char} {pattern pattern' : AddressPattern} {lastPrefix : Nat}
    {wildcardSeen wildcardSeen' : Bool} (hrest : StartsPart rest)
    (h : AddressPattern.fromStr.go fuel rest pattern lastPrefix wildcardSeen = .ok (pattern', wildcardSeen'))
    : (lastPrefix :: (rest.filter (patternPrefixes.contains ·)).map patternOrder).Pairwise (· < ·) ∧
        pattern'.domain = pattern.domain := by
  induction fuel generalizing rest pattern lastPrefix wildcardSeen with
  | zero =>
    cases rest with
    | nil =>
      injection h with h
      injection h with h _
      exact ⟨List.pairwise_singleton _ _, by rw [h]⟩
    | cons c rest => cases h
  | succ fuel ih =>
    cases rest with
    | nil =>
      injection h with h
      injection h with h _
      exact ⟨List.pairwise_singleton _ _, by rw [h]⟩
    | cons c rest =>
      have hc : c ∈ patternPrefixes := hrest c rfl
      obtain ⟨text, rest, rfl, htext, hstarts, _⟩ := exists_front rest
      by_cases horder : patternOrder c ≤ lastPrefix
      . rw [AddressPattern.fromStr.go, if_pos horder] at h
        cases h
      . rw [go_part htext hstarts (by omega)] at h
        obtain ⟨parsed, _, h⟩ := Except.bind_ok_iff.mp h
        obtain ⟨hpairwise, hdomain⟩ := ih hstarts h
        have hnone : text.filter (patternPrefixes.contains ·) = [] := by
          rw [List.filter_eq_nil_iff]
          exact fun c hc hmem => htext c hc (mem_prefixes_iff.mp hmem)
        rw [List.filter_cons_of_pos (mem_prefixes_iff.mpr hc), List.filter_append, hnone, List.nil_append,
          List.map_cons, List.pairwise_cons]
        refine ⟨⟨?_, hpairwise⟩, ?_⟩
        . intro order hmem
          rcases List.mem_cons.mp hmem with rfl | hmem
          . omega
          . have := (List.pairwise_cons.mp hpairwise).1 order hmem
            omega
        . rw [hdomain]
          unfold AddressPattern.set
          split
          . rfl
          . split
            . rfl
            . split <;> rfl

end Components

namespace WrittenPattern

variable (written : WrittenPattern)

def pattern : AddressPattern where
  domain := written.domain
  zone := (written.zone.getD .any).pattern
  net := (written.net.getD .any).pattern
  node := (written.node.getD .any).pattern
  point := (written.point.getD .any).pattern

theorem matches_pattern (address : Address) : written.pattern.matches address = true ↔ written.Satisfied address := by
  unfold AddressPattern.matches pattern Satisfied
  simp only [Bool.and_eq_true, DomainPattern.matchDomain_iff, WrittenNumber.matchNumber_pattern, and_assoc]

theorem foldl_parts
    : written.parts.foldl (fun pattern part => pattern.set part.1 part.2.pattern)
        ⟨written.domain, .any, .any, .any, .any⟩ = written.pattern := by
  obtain ⟨domain, zone, net, node, point, _, _, _⟩ := written
  cases zone <;> cases net <;> cases node <;> cases point <;> rfl

theorem prefix_of_mem_parts {part : Char × WrittenNumber} (h : part ∈ written.parts) : part.1 ∈ patternPrefixes := by
  unfold parts writtenParts at h
  simp only [List.mem_filterMap, List.mem_cons, List.not_mem_nil, or_false, Option.map_eq_some_iff] at h
  obtain ⟨_, h, _, _, rfl⟩ := h
  rcases h with rfl | rfl | rfl | rfl <;> simp [patternPrefixes]

theorem pairwise_parts : (0 :: written.parts.map fun part => patternOrder part.1).Pairwise (· < ·) := by
  obtain ⟨domain, zone, net, node, point, _, _, _⟩ := written
  cases zone <;> cases net <;> cases node <;> cases point <;>
    simp [parts, writtenParts, patternOrder]

/--
No domain has a character that begins a number, and there are numbers unless the domain is the wildcard.
-/
def IsPlain : Prop :=
  (∀ domain ∈ written.domain.domains, ∀ c ∈ domain.toList, c ∉ patternPrefixes) ∧
    (written.parts = [] → written.domain = .any)

theorem not_prefix_of_mem_domain (h : ∀ domain ∈ written.domain.domains, ∀ c ∈ domain.toList, c ∉ patternPrefixes)
    {c : Char} (hc : c ∈ written.domain.text)
    : c ∉ patternPrefixes := by
  unfold DomainPattern.text at hc
  split at hc
  . rw [List.mem_singleton.mp hc]
    decide
  . next domain hdomain =>
    exact h domain (by rw [hdomain]; exact List.mem_singleton.mpr rfl) c hc
  . next domains hdomains =>
    rcases mem_bracketText hc with hc | ⟨text, htext, hc⟩
    . simp only [List.mem_cons, List.not_mem_nil, or_false] at hc
      rcases hc with rfl | rfl | rfl <;> decide
    . obtain ⟨domain, hdomain, rfl⟩ := List.mem_map.mp htext
      exact h domain (by rw [hdomains]; exact hdomain) c hc

theorem domain_text_ne_nil : written.domain.text ≠ [] := by
  have hvalid := written.valid.2
  unfold DomainPattern.text
  split
  . exact List.cons_ne_nil _ _
  . next domain hdomain =>
    exact (validateDomain_chars (hvalid domain (by rw [hdomain]; exact List.mem_singleton.mpr rfl))).1
  . exact List.cons_ne_nil _ _

theorem wildcardSeen
    : (written.domain.isWildcard || written.parts.any fun part => part.2.pattern.isWildcard) = true := by
  rw [Bool.or_eq_true, List.any_eq_true]
  exact written.wildcard

theorem fromStr_text (h : written.IsPlain)
    : AddressPattern.fromStr (String.ofList written.text) = .ok written.pattern := by
  obtain ⟨hplain, hparts⟩ := h
  have hpattern := written.foldl_parts
  have hseen := written.wildcardSeen
  by_cases hnil : written.parts = []
  . have hany := hparts hnil
    rw [hnil, hany] at hpattern
    have htext : written.text = ['*'] := by
      unfold text
      rw [hnil, hany]
      rfl
    rw [htext, ← hpattern]
    rfl
  . have hrest := startsPart_flatMap (fun part hpart => written.prefix_of_mem_parts hpart)
    have hdomain := written.domain_text_ne_nil
    have hne : (written.parts.flatMap fun (c, part) => c :: part.text) ≠ [] := by
      cases hlist : written.parts with
      | nil => exact absurd hlist hnil
      | cons part rest => exact List.cons_ne_nil _ _
    have hstar : written.text ≠ ['*'] := by
      intro hstar
      have hlength := congrArg List.length hstar
      unfold text at hlength
      have hdomainLength := List.length_pos_of_ne_nil hdomain
      have hpartsLength := List.length_pos_of_ne_nil hne
      rw [List.length_append, List.length_singleton] at hlength
      omega
    unfold AddressPattern.fromStr
    rw [String.toList_ofList, if_neg hstar]
    unfold text
    rw [span_part (fun c hc => written.not_prefix_of_mem_domain hplain hc) hrest]
    dsimp only
    rw [if_neg hne, parseDomainPattern_text written.valid, Except.bind_of_ok,
      go_parts (fun part hpart => written.prefix_of_mem_parts hpart) written.inRange written.pairwise_parts _ _ le_rfl,
      Except.bind_of_ok]
    dsimp only
    rw [if_pos hseen, hpattern]

theorem meansWhatItSays_of_isPlain (h : written.IsPlain) : written.MeansWhatItSays :=
  ⟨written.pattern, written.fromStr_text h, written.matches_pattern⟩

theorem exists_of_fromStr {text : List Char} {pattern : AddressPattern}
    (h : AddressPattern.fromStr (String.ofList text) = .ok pattern) (hstar : text ≠ ['*'])
    : ∃ front rest domain seen, text = front ++ rest ∧ rest ≠ [] ∧ (∀ c ∈ front, c ∉ patternPrefixes) ∧
        StartsPart rest ∧ parseDomainPattern front = .ok domain ∧
          AddressPattern.fromStr.go rest.length rest ⟨domain, .any, .any, .any, .any⟩ 0 domain.isWildcard =
            .ok (pattern, seen) := by
  obtain ⟨front, rest, htext, hfront, hrest, hspan⟩ := exists_front text
  unfold AddressPattern.fromStr at h
  rw [String.toList_ofList, if_neg hstar, hspan] at h
  dsimp only at h
  split at h
  . cases h
  . next hne =>
    simp only [Except.bind_ok_iff, Prod.exists] at h
    obtain ⟨domain, hdomain, pattern', seen, hgo, h⟩ := h
    split at h
    . injection h with h
      subst h
      exact ⟨front, rest, domain, seen, htext, hne, hfront, hrest, hdomain, hgo⟩
    . cases h

theorem fromStr_ne_of_list {domains : List String} (hdomains : written.domain = .list domains) (hplain : ¬written.IsPlain)
    {pattern : AddressPattern}
    : AddressPattern.fromStr (String.ofList written.text) ≠ .ok pattern := by
  intro h
  have htext : written.text =
      '<' :: ([','].intercalate (domains.map String.toList) ++ '>' ::
        written.parts.flatMap fun (c, part) => c :: part.text) := by
    unfold text DomainPattern.text bracketText
    rw [hdomains]
    simp
  obtain ⟨front, rest, domain, _, hsplit, hne, hfront, hrest, hdomain, _⟩ :=
    exists_of_fromStr h (by rw [htext]; simp)
  set inner := [','].intercalate (domains.map String.toList) with hinner
  -- A number begins inside the brackets, since otherwise nothing would follow the list.
  obtain ⟨c, hc, hprefixed⟩ : ∃ c ∈ inner, c ∈ patternPrefixes := by
    by_contra hnone
    simp only [not_exists, not_and] at hnone
    apply hplain
    constructor
    . intro domain hmem c hc
      rw [hdomains] at hmem
      exact hnone c ((List.infix_intercalate (List.mem_map.mpr ⟨domain, hmem, rfl⟩)).subset hc)
    . intro hparts
      exfalso
      obtain ⟨c, later, hlater⟩ := List.exists_cons_of_ne_nil hne
      have hprefixed : c ∈ patternPrefixes := hrest c (by rw [hlater]; rfl)
      have hc : c ∈ written.text := by
        rw [hsplit, hlater]
        exact List.mem_append_right _ List.mem_cons_self
      rw [htext, hparts, List.flatMap_nil, List.mem_cons, List.mem_append, List.mem_singleton] at hc
      rcases hc with rfl | hc | rfl
      . revert hprefixed
        decide
      . exact hnone c hc hprefixed
      . revert hprefixed
        decide
  obtain ⟨before, after, hbefore⟩ := List.append_of_mem hc
  have hclose : '>' ∉ before := by
    intro hmem
    have hmem : '>' ∈ inner := by
      rw [hbefore]
      exact List.mem_append_left _ hmem
    rcases List.mem_intercalate_singleton hmem with heq | ⟨text, hlist, hmem⟩
    . cases heq
    . obtain ⟨domain, hdomain, rfl⟩ := List.mem_map.mp hlist
      exact (validateDomain_chars (written.valid.2 domain (by rw [hdomains]; exact hdomain))).2 '>' (by decide) hmem
  have hshort : ∃ more, '<' :: before = front ++ more := by
    rw [hsplit, hbefore, List.append_assoc, ← List.cons_append] at htext
    rcases List.append_eq_append_iff.mp htext with ⟨more, hmore, _⟩ | ⟨more, hmore, hrest⟩
    . exact ⟨more, hmore⟩
    . cases more with
      | nil => exact ⟨[], by rw [hmore, List.append_nil, List.append_nil]⟩
      | cons c' more =>
        injection hrest with hc' _
        subst hc'
        refine absurd hprefixed (hfront c ?_)
        rw [hmore]
        exact List.mem_append_right _ List.mem_cons_self
  obtain ⟨more, hmore⟩ := hshort
  have hopen : front.head? = some '<' := by
    cases front with
    | nil =>
      rw [List.nil_append] at hsplit
      have hhead := hrest '<' (by rw [← hsplit, htext]; rfl)
      revert hhead
      decide
    | cons c front =>
      injection hmore with hc _
      rw [hc]
      rfl
  refine parseDomainPattern_of_open hopen ?_ hdomain
  intro hmem
  have hmem : '>' ∈ '<' :: before := by
    rw [hmore]
    exact List.mem_append_left _ hmem
  rcases List.mem_cons.mp hmem with heq | hmem
  . cases heq
  . exact hclose hmem

/--
The domain ends like a net, and the only node that is left is the one that no address with a net has. Such a pattern
stands for no address, and what is read instead matches none.
-/
def IsVacuous : Prop :=
  ∃ front n part, written.domain = .exact (String.ofList (front ++ ':' :: showInt n)) ∧
    validateDomain (String.ofList front) = .ok () ∧ (∀ c ∈ front, c ∉ patternPrefixes) ∧ -1 ≤ n ∧ n ≤ 32767 ∧
      written.zone = none ∧ written.net = none ∧ written.node = some part ∧ ∀ value, part.Admits value → value = -1

theorem exists_address {domain : String} (hvalid : validateDomain domain = .ok ()) (hp2p : domain ≠ "p2p") {node : Int}
    (hnode : 0 ≤ node ∧ node ≤ 32767) (point : UInt16)
    : ∃ address : Address, address.domain = domain ∧ address.zone = 1 ∧ address.net = 1 ∧ address.node = node ∧
        address.point = point := by
  refine ⟨⟨domain, 1, 1, node, point, ?_⟩, rfl, rfl, rfl, rfl, rfl⟩
  unfold validateAddress
  rw [hvalid]
  dsimp only
  rw [if_neg (fun h => hp2p h.1), if_neg (by omega), if_neg (by omega), if_neg (by omega)]

/--
A pattern without a zone and a net stands for an address, unless it leaves no node to addresses with a net.
-/
theorem exists_satisfied {domain : String} (hdomain : written.domain = .exact domain) (hp2p : domain ≠ "p2p")
    (hzone : written.zone = none) (hnet : written.net = none)
    : (∃ address, written.Satisfied address) ∨
        ∃ part, written.node = some part ∧ ∀ value, part.Admits value → value = -1 := by
  have hrange := written.inRange
  have hvalid := written.valid.2 domain (by rw [hdomain]; exact List.mem_singleton.mpr rfl)
  obtain ⟨point, hpointLow, hpointHigh, hpoint⟩ : ∃ value, 0 ≤ value ∧ value ≤ 65535 ∧
      (written.point.getD .any).Admits value := by
    cases hcase : written.point with
    | none => exact ⟨0, by decide, by decide, show (0 : Int) ≠ -1 by decide⟩
    | some part =>
      have hmem : ('.', part) ∈ writtenParts written.zone written.net written.node written.point := by
        simp [writtenParts, hcase]
      exact @exists_admitted 0 65535 part (hrange _ hmem) (by decide)
  by_cases hnode : ∃ value, 0 ≤ value ∧ value ≤ 32767 ∧ (written.node.getD .any).Admits value
  . obtain ⟨node, hnodeLow, hnodeHigh, hnode⟩ := hnode
    obtain ⟨address, hd, hz, hn, hf, hp⟩ := exists_address hvalid hp2p ⟨hnodeLow, hnodeHigh⟩ (UInt16.ofNat point.toNat)
    refine .inl ⟨address, ?_⟩
    have hpointNat : ((UInt16.ofNat point.toNat).toNat : Int) = point := by
      rw [UInt16.toNat_ofNat_of_lt' (by change point.toNat < 65536; omega)]
      omega
    unfold Satisfied
    rw [hdomain, hzone, hnet, hd, hz, hn, hf, hp, hpointNat]
    exact ⟨rfl, show (1 : Int) ≠ -1 by decide, show (1 : Int) ≠ -1 by decide, hnode, hpoint⟩
  . right
    cases hcase : written.node with
    | none =>
      rw [hcase] at hnode
      exact absurd ⟨0, by decide, by decide, show (0 : Int) ≠ -1 by decide⟩ hnode
    | some part =>
      refine ⟨part, rfl, ?_⟩
      rw [hcase] at hnode
      have hmem : ('/', part) ∈ writtenParts written.zone written.net written.node written.point := by
        simp [writtenParts, hcase]
      have hpart : part.InRange (-1) 32767 := hrange _ hmem
      intro value hvalue
      by_contra hne
      apply hnode
      cases part with
      | any => exact ⟨0, by decide, by decide, show (0 : Int) ≠ -1 by decide⟩
      | exact number =>
        unfold WrittenNumber.Admits at hvalue
        unfold WrittenNumber.InRange at hpart
        exact ⟨number, by omega, hpart.2, rfl⟩
      | list ranges =>
        obtain ⟨range, hmem, hlow, hhigh⟩ := hvalue
        obtain ⟨hleast, _, hmost⟩ := hpart.2 range hmem
        exact ⟨value, by omega, by omega, range, hmem, hlow, hhigh⟩

theorem parts_behind {c : Char} {back : List Char} {lastPrefix : Nat}
    (h : (lastPrefix :: ((c :: (back ++ written.parts.flatMap fun (c, part) => c :: part.text)).filter
      (patternPrefixes.contains ·)).map patternOrder).Pairwise (· < ·)) (hc : c ∈ patternPrefixes)
    : (∀ part ∈ written.parts, patternOrder c < patternOrder part.1) ∧
        ∀ c' ∈ back, c' ∈ patternPrefixes →
          patternOrder c < patternOrder c' ∧ ∀ part ∈ written.parts, patternOrder c' < patternOrder part.1 := by
  have hmem {part : Char × WrittenNumber} (hpart : part ∈ written.parts)
      : patternOrder part.1 ∈ ((written.parts.flatMap fun (c, part) => c :: part.text).filter
          (patternPrefixes.contains ·)).map patternOrder := by
    refine List.mem_map.mpr ⟨part.1, List.mem_filter.mpr ⟨List.mem_flatMap.mpr ⟨part, hpart, List.mem_cons_self⟩, ?_⟩, rfl⟩
    exact mem_prefixes_iff.mpr (written.prefix_of_mem_parts hpart)
  rw [List.filter_cons_of_pos (mem_prefixes_iff.mpr hc), List.map_cons, List.filter_append, List.map_append] at h
  obtain ⟨hfirst, hrest⟩ := List.pairwise_cons.mp (List.pairwise_cons.mp h).2
  obtain ⟨_, _, hcross⟩ := List.pairwise_append.mp hrest
  constructor
  . intro part hpart
    exact hfirst _ (List.mem_append_right _ (hmem hpart))
  . intro c' hc' hprefixed
    have hback : patternOrder c' ∈ (back.filter (patternPrefixes.contains ·)).map patternOrder :=
      List.mem_map.mpr ⟨c', List.mem_filter.mpr ⟨hc', mem_prefixes_iff.mpr hprefixed⟩, rfl⟩
    exact ⟨hfirst _ (List.mem_append_left _ hback), fun part hpart => hcross _ hback _ (hmem hpart)⟩

/--
A domain with a character that begins a number is cut there, and is then another domain.
-/
theorem isVacuous_of_exact {domain : String} (hdomain : written.domain = .exact domain) {c : Char} (hc : c ∈ domain.toList)
    (hprefixed : c ∈ patternPrefixes) (h : written.MeansWhatItSays)
    : written.IsVacuous := by
  obtain ⟨pattern, hread, hmatches⟩ := h
  have hvalid := written.valid.2 domain (by rw [hdomain]; exact List.mem_singleton.mpr rfl)
  obtain ⟨_, hchars⟩ := validateDomain_chars hvalid
  have hnoPart : written.parts ≠ [] := by
    intro hnil
    have hseen := written.wildcardSeen
    rw [hnil, hdomain] at hseen
    cases hseen
  obtain ⟨front, cut, hcut, hfront, hstarts, _⟩ := exists_front domain.toList
  obtain ⟨c, back, rfl⟩ : ∃ c back, cut = c :: back := by
    cases cut with
    | nil =>
      rw [List.append_nil] at hcut
      rw [hcut] at hc
      exact absurd hprefixed (hfront c hc)
    | cons c back => exact ⟨c, back, rfl⟩
  have hcPrefix : c ∈ patternPrefixes := hstarts c rfl
  have htext : written.text = front ++ (c :: (back ++ written.parts.flatMap fun (c, part) => c :: part.text)) := by
    unfold text DomainPattern.text
    rw [hdomain]
    dsimp only
    rw [hcut, List.append_assoc, List.cons_append]
  have hstar : written.text ≠ ['*'] := by
    intro hstar
    have hmem : c ∈ written.text := by
      rw [htext]
      exact List.mem_append_right _ List.mem_cons_self
    rw [hstar] at hmem
    rw [List.mem_singleton.mp hmem] at hcPrefix
    revert hcPrefix
    decide
  obtain ⟨front', rest, domain', seen, hsplit, _, hfront', hrest, hparsed, hgo⟩ := exists_of_fromStr hread hstar
  have hsame : (front', rest) = (front, c :: (back ++ written.parts.flatMap fun (c, part) => c :: part.text)) := by
    rw [← span_part hfront' hrest, ← hsplit, htext]
    exact span_part hfront (fun c' hc' => hstarts c' hc')
  injection hsame with hsame hsame'
  subst hsame hsame'
  have hnotIn {c' : Char} (hc' : c' ∈ ['#', '*', ',', '<', '>']) {text : List Char} (hsub : text ⊆ domain.toList)
      : c' ∉ text := fun hmem => hchars c' hc' (hsub hmem)
  have hsubFront : front' ⊆ domain.toList := by
    rw [hcut]
    exact List.subset_append_left _ _
  have hsubBack : c :: back ⊆ domain.toList := by
    rw [hcut]
    exact List.subset_append_right _ _
  obtain ⟨rfl, hfrontValid⟩ := parseDomainPattern_exact (hnotIn (by decide) hsubFront) (hnotIn (by decide) hsubFront)
    hparsed
  obtain ⟨horders, hcutDomain⟩ := go_ok hrest hgo
  obtain ⟨hbehind, hinside⟩ := written.parts_behind horders hcPrefix
  have hunsatisfied : ¬∃ address, written.Satisfied address := by
    rintro ⟨address, hsatisfied⟩
    have haddress := hsatisfied.1
    rw [hdomain] at haddress
    have hmatched := (hmatches address).mpr hsatisfied
    unfold AddressPattern.matches at hmatched
    simp only [Bool.and_eq_true] at hmatched
    have hother := hmatched.1.1.1.1
    rw [hcutDomain, DomainPattern.matchDomain_iff] at hother
    have heq : domain = String.ofList front' := haddress.symm.trans hother
    have hlength := congrArg List.length hcut
    rw [heq, String.toList_ofList, List.length_append, List.length_cons] at hlength
    omega
  have hhash : c ≠ '#' := by
    rintro rfl
    exact hnotIn (by decide) hsubBack List.mem_cons_self
  have horder : 2 ≤ patternOrder c := by
    unfold patternPrefixes at hcPrefix
    simp only [List.mem_cons, List.not_mem_nil, or_false] at hcPrefix
    rcases hcPrefix with rfl | rfl | rfl | rfl
    . exact absurd rfl hhash
    . decide
    . decide
    . decide
  have hbeforePart {c' : Char} {part : WrittenNumber} (hpart : (c', part) ∈ written.parts)
      : patternOrder c < patternOrder c' := hbehind _ hpart
  have hzone : written.zone = none := by
    apply Option.eq_none_iff_forall_ne_some.mpr
    intro part hpart
    have hlt := hbeforePart (show ('#', part) ∈ written.parts by simp [parts, writtenParts, hpart])
    have hone : patternOrder '#' = 1 := rfl
    omega
  have hnet : written.net = none := by
    apply Option.eq_none_iff_forall_ne_some.mpr
    intro part hpart
    have hlt := hbeforePart (show (':', part) ∈ written.parts by simp [parts, writtenParts, hpart])
    have htwo : patternOrder ':' = 2 := rfl
    omega
  have hp2p : domain ≠ "p2p" := by
    rintro rfl
    have hmem : c ∈ ['p', '2', 'p'] := hsubBack List.mem_cons_self
    simp only [List.mem_cons, List.not_mem_nil, or_false] at hmem
    rcases hmem with rfl | rfl | rfl <;> (revert hcPrefix; decide)
  rcases written.exists_satisfied hdomain hp2p hzone hnet with hsatisfied | ⟨part, hnode, hpart⟩
  . exact absurd hsatisfied hunsatisfied
  . have hslash : ('/', part) ∈ written.parts := by simp [parts, writtenParts, hnode]
    have hcolon : c = ':' := by
      have hlt := hbeforePart hslash
      unfold patternPrefixes at hcPrefix
      simp only [List.mem_cons, List.not_mem_nil, or_false] at hcPrefix
      rcases hcPrefix with rfl | rfl | rfl | rfl
      . exact absurd rfl hhash
      . rfl
      . exact absurd hlt (by decide)
      . exact absurd hlt (by decide)
    subst hcolon
    have hback : ∀ c' ∈ back, c' ∉ patternPrefixes := by
      intro c' hc' hprefixed'
      obtain ⟨hlow, hhigh⟩ := hinside c' hc' hprefixed'
      have hlt := hhigh _ hslash
      have htwo : patternOrder ':' = 2 := rfl
      have hthree : patternOrder '/' = 3 := rfl
      dsimp only at hlt
      omega
    have hparts := startsPart_flatMap (fun part hpart => written.prefix_of_mem_parts hpart)
    rw [List.length_cons, go_part hback hparts (show 0 < patternOrder ':' by decide)] at hgo
    obtain ⟨parsed, hnumber, _⟩ := Except.bind_ok_iff.mp hgo
    have hsub : back ⊆ domain.toList := fun c' hc' => hsubBack (List.mem_cons_of_mem _ hc')
    obtain ⟨n, hn, hlow, hhigh⟩ :=
      parseNumberPattern_exact (hnotIn (by decide) hsub) (hnotIn (by decide) hsub) hnumber
    refine ⟨front', n, part, ?_, hfrontValid, hfront, hlow, hhigh, hzone, hnet, hnode, hpart⟩
    rw [hdomain, hn, ← hcut, String.ofList_toList]

theorem meansWhatItSays_of_isVacuous (h : written.IsVacuous) : written.MeansWhatItSays := by
  -- A vacuous pattern is read as one that matches no address.
  obtain ⟨front, n, part, hdomain, hfrontValid, hfront, hlow, hhigh, hzone, hnet, hnode, hpart⟩ := h
  have hparts : ∀ part' ∈ writtenParts none (some (.exact n)) written.node written.point,
      part' = (':', .exact n) ∨ part' ∈ written.parts := by
    unfold parts
    rw [hzone, hnet, hnode]
    unfold writtenParts
    cases written.point <;> simp
  have hmore : ∀ part' ∈ written.parts,
      part' ∈ writtenParts none (some (.exact n)) written.node written.point := by
    unfold parts
    rw [hzone, hnet, hnode]
    unfold writtenParts
    cases written.point <;> simp
  let read : WrittenPattern := {
    domain := .exact (String.ofList front)
    zone := none
    net := some (.exact n)
    node := written.node
    point := written.point
    valid := by
      refine ⟨nofun, ?_⟩
      intro domain hmem
      rw [List.mem_singleton.mp hmem]
      exact hfrontValid
    inRange := by
      intro part' hpart'
      rcases hparts part' hpart' with rfl | hmem
      . exact ⟨hlow, hhigh⟩
      . exact written.inRange part' hmem
    wildcard := by
      rcases written.wildcard with hwildcard | ⟨part', hmem, hwildcard⟩
      . rw [hdomain] at hwildcard
        cases hwildcard
      . exact .inr ⟨part', hmore part' hmem, hwildcard⟩ }
  have hplain : read.IsPlain := by
    constructor
    . intro domain hmem c hc
      rw [List.mem_singleton.mp hmem, String.toList_ofList] at hc
      exact hfront c hc
    . intro hnil
      have hmem : (':', WrittenNumber.exact n) ∈ read.parts := by simp [read, parts, writtenParts]
      rw [hnil] at hmem
      cases hmem
  have htext : read.text = written.text := by
    unfold text parts
    rw [hdomain, hzone, hnet]
    simp [read, writtenParts, DomainPattern.text, WrittenNumber.text]
  have hnever (address : Address) : ¬(address.zone ≠ -1 ∧ (written.node.getD .any).Admits address.node) := by
    rintro ⟨hnonAnonymous, hadmits⟩
    rw [hnode] at hadmits
    have hminus := hpart _ hadmits
    rcases address.valid_cases.2 with hanonymous | hnumbers
    . exact hnonAnonymous hanonymous.1
    . omega
  refine ⟨read.pattern, ?_, ?_⟩
  . rw [← htext]
    exact read.fromStr_text hplain
  . intro address
    rw [read.matches_pattern]
    constructor
    . intro hsatisfied
      exact absurd ⟨hsatisfied.2.1, hsatisfied.2.2.2.1⟩ (hnever address)
    . rintro ⟨_, hzoneAdmits, _, hnodeAdmits, _⟩
      rw [hzone] at hzoneAdmits
      exact absurd ⟨hzoneAdmits, hnodeAdmits⟩ (hnever address)

theorem meansWhatItSays_iff : written.MeansWhatItSays ↔ written.IsPlain ∨ written.IsVacuous := by
  constructor
  . intro h
    by_cases hplain : written.IsPlain
    . exact .inl hplain
    . right
      cases hdomain : written.domain with
      | any =>
        refine absurd ⟨?_, fun _ => hdomain⟩ hplain
        intro domain hmem
        rw [hdomain] at hmem
        cases hmem
      | list domains =>
        obtain ⟨pattern, hread, _⟩ := h
        exact absurd hread (written.fromStr_ne_of_list hdomain hplain)
      | exact domain =>
        have hnoParts : written.parts ≠ [] := by
          intro hnil
          have hseen := written.wildcardSeen
          rw [hnil, hdomain] at hseen
          cases hseen
        have hcut : ∃ c ∈ domain.toList, c ∈ patternPrefixes := by
          by_contra hnone
          simp only [not_exists, not_and] at hnone
          apply hplain
          refine ⟨?_, fun hnil => absurd hnil hnoParts⟩
          intro domain' hmem
          rw [hdomain] at hmem
          rw [List.mem_singleton.mp hmem]
          exact hnone
        obtain ⟨c, hc, hprefixed⟩ := hcut
        exact written.isVacuous_of_exact hdomain hc hprefixed h
  . rintro (hplain | hvacuous)
    . exact written.meansWhatItSays_of_isPlain hplain
    . exact written.meansWhatItSays_of_isVacuous hvacuous

def ofDomain (domain : String) (h : validateDomain domain = .ok ()) : WrittenPattern where
  domain := .exact domain
  zone := some .any
  net := none
  node := none
  point := none
  valid := by
    refine ⟨nofun, ?_⟩
    intro domain' hmem
    rwa [List.mem_singleton.mp hmem]
  inRange := by
    intro part hpart
    rw [List.mem_singleton.mp (show part ∈ [('#', WrittenNumber.any)] from hpart)]
    trivial
  wildcard := .inr ⟨('#', .any), List.mem_singleton.mpr rfl, rfl⟩

variable {domain : String} (hdomain : validateDomain domain = .ok ())

theorem text_ofDomain : String.ofList (ofDomain domain hdomain).text = domain ++ "#*" := by
  apply String.toList_inj.mp
  rw [String.toList_ofList, String.toList_append]
  rfl

theorem satisfied_ofDomain (address : Address)
    : (ofDomain domain hdomain).Satisfied address ↔ address.domain = domain ∧ address.isAnonymous = false := by
  have hanonymous : address.isAnonymous = false ↔ address.zone ≠ -1 := by
    unfold Address.isAnonymous
    rw [beq_eq_false_iff_ne]
  rw [hanonymous]
  constructor
  . rintro ⟨hsame, hzone, _⟩
    exact ⟨hsame, hzone⟩
  . rintro ⟨hsame, hzone⟩
    rcases address.valid_cases.2 with hnumbers | hnumbers
    . exact absurd hnumbers.1 hzone
    . refine ⟨hsame, hzone, ?_, ?_, ?_⟩
      . show address.net ≠ -1
        omega
      . show address.node ≠ -1
        omega
      . show (address.point.toNat : Int) ≠ -1
        omega

theorem isPlain_ofDomain : (ofDomain domain hdomain).IsPlain ↔ ∀ c ∈ domain.toList, c ∉ patternPrefixes := by
  constructor
  . intro h
    exact h.1 domain (List.mem_singleton.mpr rfl)
  . intro h
    refine ⟨?_, nofun⟩
    intro domain' hmem
    rwa [List.mem_singleton.mp hmem]

end WrittenPattern

/--
A pattern means what it says exactly if no domain has a character that begins a number and a list of domains has numbers
behind it, or if it stands for no address; and the pattern of a domain exactly if the domain has no such character.
-/
theorem address_patterns (written : WrittenPattern)
    : (written.MeansWhatItSays ↔ written.IsPlain ∨ written.IsVacuous) ∧
        ∀ domain, validateDomain domain = .ok () →
          ((∃ pattern, AddressPattern.fromStr (domain ++ "#*") = .ok pattern ∧
              ∀ address, pattern.matches address = true ↔ address.domain = domain ∧ address.isAnonymous = false) ↔
            ∀ c ∈ domain.toList, c ∉ patternPrefixes) := by
  refine ⟨written.meansWhatItSays_iff, ?_⟩
  intro domain hdomain
  have hiff := (WrittenPattern.ofDomain domain hdomain).meansWhatItSays_iff
  have hvacuous : ¬(WrittenPattern.ofDomain domain hdomain).IsVacuous := by
    rintro ⟨_, _, _, _, _, _, _, _, hzone, _⟩
    cases hzone
  unfold WrittenPattern.MeansWhatItSays at hiff
  simp only [WrittenPattern.text_ofDomain, WrittenPattern.satisfied_ofDomain, WrittenPattern.isPlain_ofDomain, hvacuous,
    or_false] at hiff
  exact hiff

/--
A dot belongs to a domain, but begins a point in a pattern.
-/
theorem dotted_domain_pattern
    : ¬∀ domain, validateDomain domain = .ok () → ∃ pattern, AddressPattern.fromStr (domain ++ "#*") = .ok pattern := by
  intro h
  obtain ⟨pattern, hpattern⟩ := h "a.b" (by decide)
  have hrefused : AddressPattern.fromStr ("a.b" ++ "#*") = .error .invalidNumber := by decide
  rw [hrefused] at hpattern
  cases hpattern

end Tith
