import Tith.Ipc.Document
import Tith.Lib.List

/-!
This module contains the proof that an encoded document is read back, and the exact documents for
which that fails: the checks of a whole line also see what is inside of its quotation marks.
-/

namespace Tith.Ipc

theorem hex_hexDigit {n : Nat} (hn : n < 16) : hex (hexDigit n) = .ok n := by
  have hall : ∀ n < 16, hex (hexDigit n) = .ok n := by decide
  exact hall n hn

theorem hexDigit_canonical {n : Nat} (hn : n < 16)
    : (isAsciiHexdigit (hexDigit n) && !(hexDigit n).isLower) = true := by
  have hall : ∀ n < 16, (isAsciiHexdigit (hexDigit n) && !(hexDigit n).isLower) = true := by decide
  exact hall n hn

theorem hexEscape_hexDigit (line : Nat) {c : Char} (hc : c.toNat ≤ 0x7f)
    (hnamed : [0, 9, 10, 13, '"'.toNat, '\\'.toNat].contains c.toNat = false)
    : hexEscape line (hexDigit (c.toNat / 16)) (hexDigit (c.toNat % 16)) = .ok c := by
  have hhigh : c.toNat / 16 < 16 := by omega
  have hlow : c.toNat % 16 < 16 := by omega
  have hvalue : c.toNat / 16 * 16 + c.toNat % 16 = c.toNat := by omega
  have hall : [hexDigit (c.toNat / 16), hexDigit (c.toNat % 16)].all
      (fun v => isAsciiHexdigit v && !v.isLower) = true := by
    simp only [List.all_cons, List.all_nil, hexDigit_canonical hhigh, hexDigit_canonical hlow,
      Bool.and_self]
  unfold hexEscape
  rw [if_neg (not_not.mpr hall), hex_hexDigit hhigh, hex_hexDigit hlow]
  simp only [Except.bind_of_ok]
  rw [hvalue, if_neg]
  . rw [Char.ofNat_toNat]
  . simp only [hnamed]
    simp
    omega

theorem parseQuoted_escape (line : Nat) (c : Char) (rest output : List Char)
    : parseQuoted line (escape c ++ rest) output = parseQuoted line rest (output ++ [c]) := by
  -- Every escape is taken back to the character that it was written for.
  unfold escape
  split
  . next h => subst h; rfl
  split
  . next h => subst h; rfl
  split
  . next h => subst h; rfl
  split
  . next h => subst h; rfl
  split
  . next h => subst h; rfl
  split
  . next h => subst h; rfl
  next hquote hbackslash hnull htab hlf hcr =>
  have hne : ∀ d : Char, c ≠ d → c.toNat ≠ d.toNat := by
    intro d h heq
    exact h (Char.toNat_inj.mp heq)
  split
  . next hcontrol =>
    have hnamed : [0, 9, 10, 13, '"'.toNat, '\\'.toNat].contains c.toNat = false := by
      have h₁ := hne _ hquote
      have h₂ := hne _ hbackslash
      have h₃ := hne _ hnull
      have h₄ := hne _ htab
      have h₅ := hne _ hlf
      have h₆ := hne _ hcr
      simp only [Char.reduceToNat] at h₁ h₂ h₃ h₄ h₅ h₆ ⊢
      simp [h₁, h₂, h₃, h₄, h₅, h₆]
    have hparse := hexEscape_hexDigit line (c := c) (by omega) hnamed
    simp only [List.cons_append, List.nil_append]
    rw [parseQuoted]
    simp [namedEscape, hparse]
  . next hplain =>
    simp only [List.cons_append, List.nil_append]
    rw [parseQuoted.eq_def]
    simp only [if_neg hquote, if_neg hbackslash]
    rw [if_neg (by omega)]

theorem parseQuoted_quote (line : Nat) (text rest output : List Char)
    : parseQuoted line (text.flatMap escape ++ '"' :: rest) output = .ok (output ++ text, rest) := by
  induction text generalizing output with
  | nil =>
    rw [List.append_nil, List.flatMap_nil, List.nil_append, parseQuoted.eq_def]
    rfl
  | cons c text ih =>
    rw [List.flatMap_cons, List.append_assoc, parseQuoted_escape, ih]
    simp

/--
The unquoted fields that a line can hold.
-/
def IsWord (text : List Char) : Prop :=
  text ≠ [] ∧ ∀ c ∈ text, c.toNat < 0x80 ∧ c ≠ ' ' ∧ c ≠ '"' ∧ c ≠ '\\' ∧ Text.isControl c = false

-- The characters of the text are decided one by one, not all the characters there are.
instance (text : List Char) : Decidable (IsWord text) :=
  @instDecidableAnd _ _ inferInstance (List.decidableBAll _ text)

def Field.WellFormed (field : Field) : Prop := field.quoted = false → IsWord field.text.toList

instance (field : Field) : Decidable field.WellFormed := inferInstanceAs (Decidable (_ → _))

theorem span_word {text rest : List Char} (hword : IsWord text) (hrest : ∀ c ∈ rest.head?, c = ' ')
    : (text ++ rest).span (· ≠ ' ') = (text, rest) := by
  apply List.span_append
  . intro c hc
    simpa using (hword.2 c hc).2.1
  . intro c hc
    simpa using hrest c hc

theorem parseField_encode (number : Nat) {field : Field} (hfield : field.WellFormed)
    (rest : List Char) (hrest : ∀ c ∈ rest.head?, c = ' ')
    : parseField number (field.encode ++ rest) = .ok (field, rest) := by
  obtain ⟨text, quoted⟩ := field
  cases quoted with
  | true =>
    simp only [Field.encode, if_true, quote, List.cons_append, List.append_assoc, List.nil_append,
      parseField, parseQuoted_quote, Except.bind_of_ok, String.ofList_toList]
  | false =>
    have hword : IsWord text.toList := hfield rfl
    simp only [Field.encode, Bool.false_eq_true, if_false]
    unfold parseField
    split
    . next heq =>
      cases htext : text.toList with
      | nil => exact absurd htext hword.1
      | cons c word =>
        rw [htext, List.cons_append] at heq
        injection heq with heq
        have := (hword.2 c (by simp [htext])).2.2.1
        exact absurd heq this
    . rw [span_word hword hrest]
      dsimp only
      rw [if_neg, String.ofList_toList]
      rintro (hnil | hascii | hmark)
      . exact hword.1 hnil
      . apply hascii
        rw [List.all_eq_true]
        intro c hc
        simpa using (hword.2 c hc).1
      . rw [List.any_eq_true] at hmark
        obtain ⟨c, hc, hmark⟩ := hmark
        obtain ⟨_, _, hquote, hbackslash, _⟩ := hword.2 c hc
        simp [hquote, hbackslash] at hmark

theorem encode_ne_nil {field : Field} (hfield : field.WellFormed) : field.encode ≠ [] := by
  unfold Field.encode
  split
  . simp [quote]
  . next hquoted => exact (hfield (by simpa using hquoted)).1

def Line.text (line : Line) : List Char := [' '].intercalate (line.fields.map Field.encode)

theorem parseFields_intercalate (number : Nat) {fields : List Field}
    (hfields : ∀ field ∈ fields, field.WellFormed) {fuel : Nat}
    (hfuel : ([' '].intercalate (fields.map Field.encode)).length ≤ fuel)
    : parseFields number fuel ([' '].intercalate (fields.map Field.encode)) = .ok fields := by
  induction fields generalizing fuel with
  | nil => simp [parseFields]
  | cons field fields ih =>
    have hfield := hfields field (by simp)
    obtain ⟨c, text, htext⟩ := List.exists_cons_of_ne_nil (encode_ne_nil hfield)
    cases fields with
    | nil =>
      have hparse := parseField_encode number hfield [] (by simp)
      simp only [List.map_cons, List.map_nil, List.intercalate_singleton] at hfuel ⊢
      rw [List.append_nil] at hparse
      rw [htext] at hfuel hparse ⊢
      cases fuel with
      | zero => simp at hfuel
      | succ fuel =>
        rw [parseFields, hparse]
        rfl
    | cons next fields =>
      have hparse := parseField_encode number hfield
        (' ' :: [' '].intercalate ((next :: fields).map Field.encode)) (by simp)
      have hline : [' '].intercalate ((field :: next :: fields).map Field.encode) =
          c :: (text ++ ' ' :: [' '].intercalate ((next :: fields).map Field.encode)) := by
        simp [List.intercalate_cons_cons, htext]
      rw [hline] at hfuel ⊢
      rw [htext, List.cons_append] at hparse
      cases fuel with
      | zero => simp at hfuel
      | succ fuel =>
        rw [parseFields, hparse]
        simp only [Except.bind_of_ok, ne_eq, not_true_eq_false, if_false]
        rw [ih (fun other hmem => hfields other (by simp [hmem]))]
        . rfl
        . simp only [List.length_cons, List.length_append] at hfuel
          omega

theorem escape_cases (c : Char)
    : (escape c = [c] ∧ 0x20 ≤ c.toNat ∧ c.toNat ≠ 0x7f) ∨
        (c.toNat < 0x80 ∧ c ≠ ' ' ∧ ∀ d ∈ escape c, d ≠ ' ' ∧ Text.isControl d = false) := by
  have hdigits : ∀ n < 16, hexDigit n ≠ ' ' ∧ Text.isControl (hexDigit n) = false := by decide
  unfold escape
  split
  . next h => subst h; exact .inr (by simp [Text.isControl])
  split
  . next h => subst h; exact .inr (by simp [Text.isControl])
  split
  . next h => subst h; exact .inr (by simp [Text.isControl])
  split
  . next h => subst h; exact .inr (by simp [Text.isControl])
  split
  . next h => subst h; exact .inr (by simp [Text.isControl])
  split
  . next h => subst h; exact .inr (by simp [Text.isControl])
  split
  . next hcontrol =>
    right
    refine ⟨by omega, ?_, ?_⟩
    . rintro rfl
      revert hcontrol
      decide
    . intro d hd
      simp only [List.mem_cons, List.not_mem_nil, or_false] at hd
      rcases hd with rfl | rfl | rfl | rfl
      . decide
      . decide
      . exact hdigits _ (by omega)
      . exact hdigits _ (by omega)
  . next hplain => exact .inl ⟨rfl, by omega, by omega⟩

theorem escape_space : escape ' ' = [' '] := rfl

theorem escape_ne_nil (c : Char) : escape c ≠ [] := by
  unfold escape
  split_ifs <;> simp

theorem eq_space_of_mem_escape {c : Char} (h : ' ' ∈ escape c) : c = ' ' := by
  rcases escape_cases c with ⟨heq, _⟩ | ⟨_, _, hvisible⟩
  . rw [heq, List.mem_singleton] at h
    exact h.symm
  . exact absurd rfl (hvisible ' ' h).1

/--
Between two characters that are not both spaces.
-/
def NotSpaces (x y : Char) : Prop := ¬(x = ' ' ∧ y = ' ')

theorem escape_notSpaces (c : Char) : (escape c).IsChain NotSpaces := by
  rcases escape_cases c with ⟨heq, _⟩ | ⟨_, _, hvisible⟩
  . rw [heq]
    exact .singleton c
  . apply List.not_pair_infix.mp
    intro hsub
    exact (hvisible ' ' (hsub.subset (by simp))).1 rfl

theorem flatMap_escape_notSpaces {text : List Char} (h : text.IsChain NotSpaces)
    : (text.flatMap escape).IsChain NotSpaces := by
  induction text with
  | nil => exact .nil
  | cons c text ih =>
    rw [List.isChain_cons] at h
    rw [List.flatMap_cons, List.isChain_append]
    refine ⟨escape_notSpaces c, ih h.2, ?_⟩
    rintro x hx y hy ⟨rfl, rfl⟩
    have hc : c = ' ' := eq_space_of_mem_escape (List.mem_of_mem_getLast? hx)
    cases text with
    | nil => simp at hy
    | cons d text =>
      rw [List.flatMap_cons, List.head?_append_of_ne_nil _ (escape_ne_nil d)] at hy
      have hd : d = ' ' := eq_space_of_mem_escape (List.mem_of_mem_head? hy)
      exact h.1 d (by simp) ⟨hc, hd⟩

/--
The texts that pass the checks of a whole line.
-/
structure Canonical (text : List Char) : Prop where
  ne_nil : text ≠ []
  head : text.head? ≠ some ' '
  last : text.getLast? ≠ some ' '
  single : text.IsChain NotSpaces
  plain : ∀ c ∈ text, Text.isControl c = false

theorem Canonical.append_space {a b : List Char} (ha : Canonical a) (hb : Canonical b)
    : Canonical (a ++ ' ' :: b) := by
  refine ⟨by simp, ?_, ?_, ?_, ?_⟩
  . rw [List.head?_append_of_ne_nil _ ha.ne_nil]
    exact ha.head
  . rw [List.getLast?_append, List.getLast?_cons]
    obtain ⟨last, hlast⟩ := Option.isSome_iff_exists.mp (List.getLast?_isSome.mpr hb.ne_nil)
    have := hb.last
    simpa [hlast] using this
  . rw [List.isChain_append, List.isChain_cons]
    refine ⟨ha.single, ⟨?_, hb.single⟩, ?_⟩
    . rintro y hy ⟨_, rfl⟩
      exact hb.head hy
    . rintro x hx y _ ⟨rfl, _⟩
      exact ha.last hx
  . intro c hc
    simp only [List.mem_append, List.mem_cons] at hc
    rcases hc with hc | rfl | hc
    . exact ha.plain c hc
    . decide
    . exact hb.plain c hc

theorem canonical_intercalate {texts : List (List Char)} (hne : texts ≠ [])
    (h : ∀ text ∈ texts, Canonical text)
    : Canonical ([' '].intercalate texts) := by
  induction texts with
  | nil => exact absurd rfl hne
  | cons text texts ih =>
    cases texts with
    | nil =>
      rw [List.intercalate_singleton]
      exact h text (by simp)
    | cons next texts =>
      rw [List.intercalate_cons_cons, List.append_assoc]
      apply (h text (by simp)).append_space
      exact ih (by simp) (fun other hmem => h other (by simp [hmem]))

/--
The texts that a quoted field really carries: no two spaces in a row, and none of the control
characters behind ASCII.
-/
def Carried (text : List Char) : Prop :=
  ¬[' ', ' '] <:+: text ∧ ∀ c ∈ text, ¬(0x80 ≤ c.toNat ∧ c.toNat ≤ 0x9f)

instance (text : List Char) : Decidable (Carried text) :=
  @instDecidableAnd _ _ inferInstance (List.decidableBAll _ text)

theorem canonical_quote {text : List Char} (h : Carried text) : Canonical (quote text) := by
  refine ⟨by simp [quote], by simp [quote], ?_, ?_, ?_⟩
  . rw [quote, ← List.cons_append, List.getLast?_concat]
    simp
  . rw [quote, List.isChain_cons, List.isChain_append]
    refine ⟨by simp [NotSpaces], ?_, .singleton _, by simp [NotSpaces]⟩
    exact flatMap_escape_notSpaces (List.not_pair_infix.mp h.1)
  . intro d hd
    simp only [quote, List.mem_cons, List.mem_append, List.mem_flatMap, List.not_mem_nil,
      or_false] at hd
    rcases hd with rfl | ⟨c, hc, hd⟩ | rfl
    . decide
    . rcases escape_cases c with ⟨heq, hlow, hdel⟩ | ⟨_, _, hvisible⟩
      . rw [heq, List.mem_singleton] at hd
        subst hd
        have hnot := h.2 d hc
        simp only [Text.isControl, Bool.or_eq_false_iff, Bool.and_eq_false_iff,
          decide_eq_false_iff_not]
        omega
      . exact (hvisible d hd).2
    . decide

theorem carried_of_canonical {text : List Char} (hsingle : (quote text).IsChain NotSpaces)
    (hplain : ∀ c ∈ quote text, Text.isControl c = false)
    : Carried text := by
  constructor
  . rintro ⟨before, after, rfl⟩
    apply List.not_pair_infix.mpr hsingle
    refine ⟨'"' :: before.flatMap escape, after.flatMap escape ++ ['"'], ?_⟩
    simp [quote, escape_space]
  . intro c hc hrange
    rcases escape_cases c with ⟨heq, _⟩ | ⟨hascii, _⟩
    . have hmem : c ∈ quote text := by
        simp only [quote, List.mem_cons, List.mem_append, List.mem_flatMap]
        exact .inr (.inl ⟨c, hc, by simp [heq]⟩)
      have := hplain c hmem
      simp only [Text.isControl, Bool.or_eq_false_iff, Bool.and_eq_false_iff,
        decide_eq_false_iff_not] at this
      omega
    . omega

theorem canonical_word {text : List Char} (h : IsWord text) : Canonical text := by
  have hspace : ' ' ∉ text := fun hmem => (h.2 ' ' hmem).2.1 rfl
  refine ⟨h.1, ?_, ?_, ?_, fun c hc => (h.2 c hc).2.2.2.2⟩
  . intro hhead
    exact hspace (List.mem_of_mem_head? hhead)
  . intro hlast
    exact hspace (List.mem_of_mem_getLast? hlast)
  . apply List.not_pair_infix.mp
    intro hsub
    exact hspace (hsub.subset (by simp))

theorem canonical_encode {field : Field} (hfield : field.WellFormed)
    (hcarried : field.quoted = true → Carried field.text.toList)
    : Canonical field.encode := by
  unfold Field.encode
  split
  . next hquoted => exact canonical_quote (hcarried hquoted)
  . next hquoted => exact canonical_word (hfield (by simpa using hquoted))

theorem parseLine_of_canonical {text : List Char} (h : Canonical text) (number : Nat)
    : parseLine text number =
        (parseFields number text.length text >>= fun fields => .ok ⟨fields⟩) := by
  unfold parseLine
  rw [if_neg, if_neg]
  . intro hany
    rw [List.any_eq_true] at hany
    obtain ⟨c, hc, hcontrol⟩ := hany
    have hplain := h.plain c hc
    simp only [hplain, Bool.false_or, decide_eq_true_eq] at hcontrol
    subst hcontrol
    revert hplain
    decide
  . rintro (hnil | hhead | hlast | htab | hspaces)
    . exact h.ne_nil hnil
    . exact h.head hhead
    . exact h.last hlast
    . have := h.plain _ htab
      revert this
      decide
    . exact List.not_pair_infix.mpr h.single hspaces

theorem canonical_of_parseLine {text : List Char} {number : Nat} {line : Line}
    (h : parseLine text number = .ok line)
    : Canonical text := by
  unfold parseLine at h
  split at h
  . cases h
  . next hseparators =>
    split at h
    . cases h
    . next hcontrol =>
      simp only [not_or] at hseparators
      obtain ⟨hnil, hhead, hlast, _, hspaces⟩ := hseparators
      refine ⟨hnil, hhead, hlast, List.not_pair_infix.mp hspaces, ?_⟩
      intro c hc
      simp only [List.any_eq_true, not_exists, not_and] at hcontrol
      have := hcontrol c hc
      simp only [Bool.or_eq_true, not_or, Bool.not_eq_true] at this
      exact this.1

def Line.WellFormed (line : Line) : Prop :=
  line.fields ≠ [] ∧ ∀ field ∈ line.fields, field.WellFormed

instance (line : Line) : Decidable line.WellFormed := inferInstanceAs (Decidable (_ ∧ _))

theorem parseLine_text_iff {line : Line} (hline : line.WellFormed) (number : Nat)
    : parseLine line.text number = .ok line ↔
        ∀ field ∈ line.fields, field.quoted = true → Carried field.text.toList := by
  constructor
  . intro h field hmem hquoted
    have hcanonical := canonical_of_parseLine h
    have hsub : field.encode <:+: line.text := List.infix_intercalate (List.mem_map_of_mem hmem)
    rw [Field.encode, if_pos hquoted] at hsub
    have hsingle := List.IsChain.infix hcanonical.single hsub
    apply carried_of_canonical hsingle
    intro c hc
    exact hcanonical.plain c (hsub.subset hc)
  . intro hcarried
    have hcanonical : Canonical line.text := by
      apply canonical_intercalate
      . simpa using hline.1
      . intro text hmem
        obtain ⟨field, hfield, rfl⟩ := List.mem_map.mp hmem
        exact canonical_encode (hline.2 field hfield) (hcarried field hfield)
    have hfields : parseFields number line.text.length line.text = .ok line.fields :=
      parseFields_intercalate number hline.2 le_rfl
    rw [parseLine_of_canonical hcanonical, hfields]
    rfl

theorem newline_not_mem_encode {field : Field} (hfield : field.WellFormed) : '\n' ∉ field.encode := by
  have hcontrol : Text.isControl '\n' = true := by decide
  unfold Field.encode
  split
  . intro hmem
    simp only [quote, List.mem_cons, Char.reduceEq, List.mem_append, List.mem_flatMap,
      List.not_mem_nil, or_false, false_or] at hmem
    obtain ⟨c, _, hmem⟩ := hmem
    rcases escape_cases c with ⟨heq, hlow, _⟩ | ⟨_, _, hvisible⟩
    . rw [heq, List.mem_singleton] at hmem
      subst hmem
      revert hlow
      decide
    . rw [(hvisible _ hmem).2] at hcontrol
      cases hcontrol
  . next hquoted =>
    intro hmem
    rw [((hfield (by simpa using hquoted)).2 _ hmem).2.2.2.2] at hcontrol
    cases hcontrol

theorem Line.newline_not_mem {line : Line} (hline : line.WellFormed) : '\n' ∉ line.text := by
  intro hmem
  rcases List.mem_intercalate_singleton hmem with hspace | ⟨text, htext, hmem⟩
  . cases hspace
  . obtain ⟨field, hfield, rfl⟩ := List.mem_map.mp htext
    exact newline_not_mem_encode (hline.2 field hfield) hmem

namespace Document

def WellFormed (document : Document) : Prop := ∀ line ∈ document.lines, line.WellFormed

instance (document : Document) : Decidable document.WellFormed :=
  inferInstanceAs (Decidable (∀ line ∈ document.lines, line.WellFormed))

theorem splitOn_lines {lines : List Line} (h : ∀ line ∈ lines, line.WellFormed)
    : (lines.flatMap Line.encode ++ "End\n".toList).splitOn '\n' =
        lines.map Line.text ++ ["End".toList, []] := by
  induction lines with
  | nil => decide
  | cons line lines ih =>
    have hencode : (line :: lines).flatMap Line.encode ++ "End\n".toList =
        line.text ++ '\n' :: (lines.flatMap Line.encode ++ "End\n".toList) := by
      simp [Line.encode, Line.text]
    rw [hencode, List.splitOn_append_cons_self_of_not_mem (Line.newline_not_mem (h line (by simp))),
      ih (fun other hmem => h other (by simp [hmem]))]
    rfl

theorem splitTerminator_encodeText {document : Document} (h : document.WellFormed)
    : splitTerminator document.encodeText '\n' =
        document.kind.header :: (document.lines.map Line.text ++ ["End".toList]) := by
  have hheader : '\n' ∉ document.kind.header := by
    cases document.kind <;> decide
  have hsplit : document.encodeText.splitOn '\n' =
      document.kind.header :: (document.lines.map Line.text ++ ["End".toList]) ++ [[]] := by
    rw [encodeText, List.splitOn_append_cons_self_of_not_mem hheader, splitOn_lines h]
    simp
  unfold splitTerminator
  rw [hsplit]
  simp only [List.getLast?_concat, if_true, List.dropLast_concat]

theorem getLast?_encodeText (document : Document) : document.encodeText.getLast? = some '\n' := by
  have hend : document.encodeText =
      (document.kind.header ++ '\n' :: (document.lines.flatMap Line.encode ++ "End".toList)) ++
        ['\n'] := by
    simp [encodeText]
  rw [hend, List.getLast?_concat]

theorem parseLines_iff {lines : List Line} (h : ∀ line ∈ lines, line.WellFormed) (number : Nat)
    : parseLines (lines.map Line.text) number = .ok lines ↔
        ∀ line ∈ lines, ∀ field ∈ line.fields, field.quoted = true → Carried field.text.toList := by
  induction lines generalizing number with
  | nil => simp [parseLines]
  | cons line lines ih =>
    have ih := ih (fun other hmem => h other (by simp [hmem])) (number + 1)
    have hline := parseLine_text_iff (h line (by simp)) number
    simp only [List.map_cons, parseLines, Except.bind_ok_iff, Except.ok.injEq, List.cons.injEq,
      List.mem_cons, forall_eq_or_imp]
    rw [← hline, ← ih]
    constructor
    . rintro ⟨_, hfirst, _, hrest, rfl, rfl⟩
      exact ⟨hfirst, hrest⟩
    . rintro ⟨hfirst, hrest⟩
      exact ⟨line, hfirst, lines, hrest, rfl, rfl⟩

/--
The documents that are read back as they were encoded.
-/
theorem parse_encode_iff (document : Document) (h : document.WellFormed)
    : parse document.encode document.kind = .ok document ↔
        document.lines ≠ [] ∧
          ∀ line ∈ document.lines, ∀ field ∈ line.fields,
            field.quoted = true → Carried field.text.toList := by
  rw [← parseLines_iff h 2]
  unfold parse encode
  rw [Bytes.toString?_ofString]
  dsimp only
  unfold parseText
  rw [String.toList_ofList, if_neg (not_not.mpr document.getLast?_encodeText),
    splitTerminator_encodeText h]
  obtain ⟨kind, lines⟩ := document
  cases lines with
  | nil => simp [fail]
  | cons line lines =>
    dsimp only
    rw [if_neg (by simp), if_neg (by simp), if_neg, List.tail_cons, List.dropLast_concat]
    . simp
    . rw [← List.cons_append, List.getLast?_concat]
      simp

/--
A request of one line, which carries a text.
-/
def subject (text : String) : Document where
  kind := .request
  lines := [⟨[⟨"Subject", false⟩, ⟨text, true⟩]⟩]

/--
The two spaces behind a full stop are taken for two separators.
-/
theorem subject_two_spaces_not_parsed
    : ¬∀ document : Document, document.WellFormed →
        parse document.encode document.kind = .ok document := by
  intro h
  have hparse := h (subject "End.  Begin") (by decide)
  revert hparse
  decide

theorem parse_encode_subject
    : (subject "a\t\n\x00\\\"é b").WellFormed ∧
        parse (subject "a\t\n\x00\\\"é b").encode .request =
          .ok (subject "a\t\n\x00\\\"é b") :=
  ⟨by decide, (parse_encode_iff _ (by decide)).mpr (by decide)⟩

end Document

end Tith.Ipc
