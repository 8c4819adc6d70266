import Tith.Ipc.Document
import Tith.Ipc.RoundTrip
import Tith.Lib.List

/-!
This module contains the proof that the text of a document is canonical, and the exact texts for which
that fails: a hexadecimal escape may also stand for a character that needs none.
-/

namespace Tith.Ipc

-- The escape of a printable character of ASCII.
def printableEscape (high low : Char) : Bool :=
  match hex high, hex low with
  | .ok high, .ok low => 0x20 ≤ high * 16 + low && high * 16 + low < 0x7f
  | _, _ => false

def escapesPrintable (text : List Char) : Bool :=
  match text with
  | [] => false
  | '\\' :: 'x' :: high :: low :: rest => printableEscape high low || escapesPrintable rest
  | '\\' :: _ :: rest => escapesPrintable rest
  | _ :: rest => escapesPrintable rest

/--
The piece `raw` of a text is written again as `encoded`. They are the same unless the piece has a
needless escape, which is longer than the character that it stands for.
-/
structure Rewritten (raw encoded : List Char) (needless : Bool) : Prop where
  scan : ∀ rest, escapesPrintable (raw ++ rest) = (needless || escapesPrintable rest)
  same : needless = false → encoded = raw
  shorter : needless = true → encoded.length < raw.length

namespace Rewritten

theorem nil : Rewritten [] [] false where
  scan := by simp
  same := by simp
  shorter := by simp

theorem append {raw raw' encoded encoded' : List Char} {needless needless' : Bool}
    (h : Rewritten raw encoded needless) (h' : Rewritten raw' encoded' needless')
    : Rewritten (raw ++ raw') (encoded ++ encoded') (needless || needless') := by
  constructor
  . intro rest
    rw [List.append_assoc, h.scan, h'.scan, Bool.or_assoc]
  . intro hneither
    rw [Bool.or_eq_false_iff] at hneither
    rw [h.same hneither.1, h'.same hneither.2]
  . intro heither
    have hle : encoded.length ≤ raw.length := by
      cases hneedless : needless with
      | false => rw [h.same hneedless]
      | true => apply Nat.le_of_lt (h.shorter hneedless)
    have hle' : encoded'.length ≤ raw'.length := by
      cases hneedless : needless' with
      | false => rw [h'.same hneedless]
      | true => apply Nat.le_of_lt (h'.shorter hneedless)
    rw [List.length_append, List.length_append]
    rcases Bool.or_eq_true_iff.mp heither with hneedless | hneedless
    . have hlt := h.shorter hneedless
      omega
    . have hlt := h'.shorter hneedless
      omega

theorem plain {raw : List Char} (h : '\\' ∉ raw) : Rewritten raw raw false := by
  refine ⟨?_, by simp, by simp⟩
  intro rest
  rw [Bool.false_or]
  induction raw with
  | nil => rfl
  | cons c raw ih =>
    simp only [List.mem_cons, not_or] at h
    rw [← ih h.2, List.cons_append]
    conv => lhs; unfold escapesPrintable
    split
    . next heq => cases heq
    . next heq =>
      injection heq with heq
      exact absurd heq.symm h.1
    . next heq =>
      injection heq with heq
      exact absurd heq.symm h.1
    . next heq =>
      injection heq with _ heq
      rw [heq]

theorem encode_eq_iff {raw encoded : List Char} {needless : Bool} (h : Rewritten raw encoded needless)
    : encoded = raw ↔ escapesPrintable raw = false := by
  have hscan := h.scan []
  rw [List.append_nil] at hscan
  rw [hscan]
  cases hneedless : needless with
  | false =>
    simp only [Bool.false_or, escapesPrintable, iff_true]
    apply h.same hneedless
  | true =>
    simp only [Bool.true_or, Bool.true_eq_false, iff_false]
    intro heq
    have hlt := h.shorter hneedless
    rw [heq] at hlt
    omega

end Rewritten

theorem hexDigit_of_lt
    : ∀ n < 16, Char.ofNat (if n < 10 then 48 + n else 55 + n) = hexDigit n := by
  decide

theorem hex_ok {value : Char} {n : Nat} (h : hex value = .ok n) : n < 16 ∧ value = hexDigit n := by
  have hcode : n < 16 ∧ value.toNat = if n < 10 then 48 + n else 55 + n := by
    unfold hex at h
    split at h
    . next hdigit =>
      injection h with h
      have hge : '0'.toNat ≤ value.toNat := hdigit.1
      have hle : value.toNat ≤ '9'.toNat := hdigit.2
      have h0 : '0'.toNat = 48 := rfl
      have h9 : '9'.toNat = 57 := rfl
      rw [if_pos] <;> omega
    . split at h
      . next hletter =>
        injection h with h
        have hge : 'A'.toNat ≤ value.toNat := hletter.1
        have hle : value.toNat ≤ 'F'.toNat := hletter.2
        have hA : 'A'.toNat = 65 := rfl
        have hF : 'F'.toNat = 70 := rfl
        rw [if_neg] <;> omega
      . cases h
  obtain ⟨hlt, hvalue⟩ := hcode
  refine ⟨hlt, ?_⟩
  rw [← hexDigit_of_lt n hlt]
  rw [← hvalue]
  rw [Char.ofNat_toNat]

theorem rewritten_named {e c : Char} (h : namedEscape e = some c)
    : Rewritten ['\\', e] (escape c) false := by
  have hescape : e ≠ 'x' ∧ escape c = ['\\', e] := by
    unfold namedEscape at h
    repeat' split at h
    -- The one escape that is left over has no name.
    rotate_right
    . cases h
    all_goals
      next heq =>
      injection h with h
      subst heq
      subst h
      decide
  rw [hescape.2]
  refine ⟨?_, by simp, by simp⟩
  intro rest
  rw [Bool.false_or, List.cons_append, List.cons_append, List.nil_append]
  conv => lhs; unfold escapesPrintable
  split
  . next heq => cases heq
  . next heq =>
    injection heq with _ heq
    injection heq with heq
    exact absurd heq hescape.1
  . next heq =>
    injection heq with _ heq
    injection heq with _ heq
    rw [heq]
  . next hnone heq =>
    injection heq with hc hrest
    exact absurd hrest.symm (hnone _ _ hc.symm)

theorem hexEscape_ok {line : Nat} {high low c : Char} (h : hexEscape line high low = .ok c)
    : c.toNat ≤ 0x7f ∧ high = hexDigit (c.toNat / 16) ∧ low = hexDigit (c.toNat % 16) ∧
        printableEscape high low = (0x20 ≤ c.toNat && c.toNat < 0x7f : Bool) ∧
        c ≠ '"' ∧ c ≠ '\\' ∧ c ≠ '\x00' ∧ c ≠ '\t' ∧ c ≠ '\n' ∧ c ≠ '\r' := by
  unfold hexEscape at h
  split at h
  . cases h
  . simp only [Except.bind_ok_iff] at h
    obtain ⟨m, hhigh, n, hlow, h⟩ := h
    obtain ⟨hm, hhigh'⟩ := hex_ok hhigh
    obtain ⟨hn, hlow'⟩ := hex_ok hlow
    split at h
    . cases h
    . next hrange =>
      injection h with h
      simp only [not_or] at hrange
      have hcode : c.toNat = m * 16 + n := by
        rw [← h, Char.toNat_ofNat, if_pos]
        left
        omega
      have hdiv : c.toNat / 16 = m := by omega
      have hmod : c.toNat % 16 = n := by omega
      have hnamed : ∀ d : Char, d.toNat ∈ [0, 9, 10, 13, '"'.toNat, '\\'.toNat] → c ≠ d := by
        intro d hd heq
        apply hrange.2
        rw [List.contains_iff_mem, ← hcode, heq]
        exact hd
      refine ⟨by omega, ?_, ?_, ?_, hnamed _ ?_, hnamed _ ?_, hnamed _ ?_, hnamed _ ?_, hnamed _ ?_,
        hnamed _ ?_⟩
      . rw [hdiv, hhigh']
      . rw [hmod, hlow']
      . rw [printableEscape, hhigh, hlow, hcode]
      all_goals decide

theorem rewritten_hex {line : Nat} {high low c : Char} (h : hexEscape line high low = .ok c)
    : ∃ needless, Rewritten ['\\', 'x', high, low] (escape c) needless := by
  obtain ⟨hle, hhigh, hlow, hprintable, hnamed⟩ := hexEscape_ok h
  refine ⟨printableEscape high low, ?_, ?_, ?_⟩
  . intro rest
    simp only [List.cons_append, List.nil_append]
    conv => lhs; unfold escapesPrintable
    rfl
  . intro hnot
    rw [hprintable] at hnot
    simp only [Bool.and_eq_false_iff, decide_eq_false_iff_not] at hnot
    unfold escape
    simp only [hnamed, if_false]
    rw [if_pos (by omega), hhigh, hlow]
  . intro hneedless
    rw [hprintable] at hneedless
    simp only [Bool.and_eq_true, decide_eq_true_eq] at hneedless
    unfold escape
    simp only [hnamed, if_false]
    rw [if_neg (by omega)]
    simp

theorem escape_plain {c : Char} (hquote : c ≠ '"') (hbackslash : c ≠ '\\')
    (hcontrol : ¬(c.toNat < 0x20 ∨ c.toNat = 0x7f))
    : escape c = [c] := by
  have hne : ∀ d : Char, d.toNat < 0x20 → c ≠ d := by
    rintro d hd rfl
    omega
  unfold escape
  rw [if_neg hquote, if_neg hbackslash, if_neg (hne _ (by decide)), if_neg (hne _ (by decide)),
    if_neg (hne _ (by decide)), if_neg (hne _ (by decide)), if_neg (by omega)]

theorem parseQuoted_rewritten {line : Nat} {input output text rest : List Char}
    (h : parseQuoted line input output = .ok (text, rest))
    : ∃ raw decoded needless, input = raw ++ '"' :: rest ∧ text = output ++ decoded ∧
        Rewritten raw (decoded.flatMap escape) needless := by
  -- What is in front of the rest is one unit, and the rest is read in the same way.
  have hstep : ∀ {unit rest' output : List Char} {c : Char} {needless : Bool},
      Rewritten unit (escape c) needless →
      (∃ raw decoded needless, rest' = raw ++ '"' :: rest ∧ text = (output ++ [c]) ++ decoded ∧
        Rewritten raw (decoded.flatMap escape) needless) →
      ∃ raw decoded needless, unit ++ rest' = raw ++ '"' :: rest ∧ text = output ++ decoded ∧
        Rewritten raw (decoded.flatMap escape) needless := by
    rintro unit rest' output c needless hunit ⟨raw, decoded, needless', hrest, htext, hraw⟩
    refine ⟨unit ++ raw, c :: decoded, needless || needless', ?_, ?_, ?_⟩
    . rw [hrest, List.append_assoc]
    . rw [htext, List.append_assoc, List.singleton_append]
    . rw [List.flatMap_cons]
      apply Rewritten.append hunit hraw
  fun_induction parseQuoted line input output with
  | case2 output rest' =>
    injection h with h
    injection h with htext hrest
    refine ⟨[], [], false, ?_, ?_, Rewritten.nil⟩
    . rw [hrest, List.nil_append]
    . rw [htext, List.append_nil]
  | case4 output e rest' c hnamed _ ih =>
    apply hstep (rewritten_named hnamed) (ih h)
  | case6 output high low rest' c hhex _ _ ih =>
    obtain ⟨needless, hunit⟩ := rewritten_hex hhex
    apply hstep hunit (ih h)
  | case12 output c rest' hquote hbackslash hcontrol ih =>
    have hunit : Rewritten [c] (escape c) false := by
      rw [escape_plain hquote hbackslash hcontrol]
      apply Rewritten.plain
      simpa using Ne.symm hbackslash
    apply hstep hunit (ih h)
  | case1 | case3 | case5 | case7 | case8 | case9 | case10 | case11 => cases h

theorem parseField_rewritten {number : Nat} {input rest : List Char} {field : Field}
    (h : parseField number input = .ok (field, rest))
    : ∃ raw needless, input = raw ++ rest ∧ Rewritten raw field.encode needless := by
  unfold parseField at h
  split at h
  . next input =>
    simp only [Except.bind_ok_iff, Prod.exists, Except.ok.injEq, Prod.mk.injEq] at h
    obtain ⟨text, _, hquoted, rfl, rfl⟩ := h
    obtain ⟨raw, decoded, needless, hinput, htext, hraw⟩ := parseQuoted_rewritten hquoted
    have hmark : Rewritten ['"'] ['"'] false := Rewritten.plain (by decide)
    refine ⟨['"'] ++ (raw ++ ['"']), false || (needless || false), ?_, ?_⟩
    . rw [hinput]
      simp
    . rw [List.nil_append] at htext
      simp only [Field.encode, if_true, String.toList_ofList, htext]
      apply Rewritten.append hmark (Rewritten.append hraw hmark)
  . dsimp only at h
    split at h
    . cases h
    . next hword =>
      simp only [not_or] at hword
      simp only [Except.ok.injEq, Prod.mk.injEq] at h
      obtain ⟨rfl, rfl⟩ := h
      refine ⟨(input.span (· ≠ ' ')).1, false, ?_, ?_⟩
      . rw [List.span_eq_takeWhile_dropWhile, List.takeWhile_append_dropWhile]
      . simp only [Field.encode, Bool.false_eq_true, if_false, String.toList_ofList]
        apply Rewritten.plain
        intro hmem
        apply hword.2.2
        rw [List.any_eq_true]
        exact ⟨_, hmem, by decide⟩

theorem parseFields_rewritten {number fuel : Nat} {input : List Char} {fields : List Field}
    (hlast : input.getLast? ≠ some ' ') (h : parseFields number fuel input = .ok fields)
    : ∃ needless, (input ≠ [] → fields ≠ []) ∧
        Rewritten input ([' '].intercalate (fields.map Field.encode)) needless := by
  induction fuel generalizing input fields with
  | zero =>
    unfold parseFields at h
    split at h
    . injection h with h
      rw [← h]
      exact ⟨false, by simp, Rewritten.nil⟩
    . cases h
    . next heq => cases heq
  | succ fuel ih =>
    unfold parseFields at h
    split at h
    . injection h with h
      rw [← h]
      exact ⟨false, by simp, Rewritten.nil⟩
    . next heq => cases heq
    . next c rest fuel' heq =>
      injection heq with heq
      subst heq
      simp only [Except.bind_ok_iff, Prod.exists] at h
      obtain ⟨field, rest', hfield, h⟩ := h
      obtain ⟨raw, needless, hinput, hraw⟩ := parseField_rewritten hfield
      split at h
      . injection h with h
        refine ⟨needless, by simp [← h], ?_⟩
        rw [← h, hinput, List.append_nil]
        simpa using hraw
      . next separator rest' =>
        split at h
        . cases h
        . next hseparator =>
          simp only [ne_eq, not_not] at hseparator
          subst hseparator
          simp only [Except.bind_ok_iff, Except.ok.injEq] at h
          obtain ⟨fields', hfields, rfl⟩ := h
          -- The line does not end in the separator, so that another field is behind it.
          have hne : rest' ≠ [] := by
            rintro rfl
            apply hlast
            rw [hinput, List.getLast?_concat]
          have hlast' : rest'.getLast? ≠ some ' ' := by
            intro heq
            apply hlast
            rw [hinput, List.getLast?_append_of_ne_nil _ (by simp), List.getLast?_cons_of_ne_nil hne]
            exact heq
          obtain ⟨needless', hnonempty, hrest⟩ := ih hlast' hfields
          have hspace : Rewritten [' '] [' '] false := Rewritten.plain (by decide)
          refine ⟨needless || (false || needless'), by simp, ?_⟩
          have hfields' : fields'.map Field.encode ≠ [] := by
            simpa using hnonempty hne
          have hencoded : [' '].intercalate ((field :: fields').map Field.encode) =
              field.encode ++ ([' '] ++ [' '].intercalate (fields'.map Field.encode)) := by
            rw [List.map_cons]
            cases hmap : fields'.map Field.encode with
            | nil => exact absurd hmap hfields'
            | cons e es => rw [List.intercalate_cons_cons, List.append_assoc]
          rw [hencoded, hinput]
          apply Rewritten.append hraw (Rewritten.append hspace hrest)

theorem parseLine_rewritten {number : Nat} {input : List Char} {line : Line}
    (h : parseLine input number = .ok line)
    : ∃ needless, Rewritten (input ++ ['\n']) line.encode needless := by
  have hcanonical := canonical_of_parseLine h
  unfold parseLine at h
  split at h
  . cases h
  . split at h
    . cases h
    . simp only [Except.bind_ok_iff, Except.ok.injEq] at h
      obtain ⟨fields, hfields, rfl⟩ := h
      obtain ⟨needless, _, hinput⟩ := parseFields_rewritten hcanonical.last hfields
      refine ⟨needless || false, ?_⟩
      apply Rewritten.append hinput
      apply Rewritten.plain
      decide

namespace Document

theorem parseLines_rewritten {raw : List (List Char)} {number : Nat} {lines : List Line}
    (h : parseLines raw number = .ok lines)
    : ∃ needless, Rewritten (raw.flatMap (· ++ ['\n'])) (lines.flatMap Line.encode) needless := by
  induction raw generalizing number lines with
  | nil =>
    unfold parseLines at h
    injection h with h
    rw [← h]
    exact ⟨false, Rewritten.nil⟩
  | cons value raw ih =>
    unfold parseLines at h
    simp only [Except.bind_ok_iff, Except.ok.injEq] at h
    obtain ⟨line, hline, lines', hlines, rfl⟩ := h
    obtain ⟨needless, hvalue⟩ := parseLine_rewritten hline
    obtain ⟨needless', hrest⟩ := ih hlines
    refine ⟨needless || needless', ?_⟩
    rw [List.flatMap_cons, List.flatMap_cons]
    apply Rewritten.append hvalue hrest

theorem splitTerminator_lines {text : List Char} (h : text.getLast? = some '\n')
    : (splitTerminator text '\n').flatMap (· ++ ['\n']) = text := by
  obtain ⟨body, rfl⟩ := List.getLast?_eq_some_iff.mp h
  unfold splitTerminator
  rw [List.splitOn_append_cons_self, List.splitOn_nil]
  simp only [List.getLast?_concat, if_true, List.dropLast_concat]
  rw [← List.intercalate_append_singleton, List.intercalate_splitOn]
  apply List.splitOn_ne_nil

theorem envelope_lines {raw : List (List Char)} {header last : List Char} (hlength : 3 ≤ raw.length)
    (hheader : raw.head? = some header) (hlast : raw.getLast? = some last)
    : raw = header :: (raw.tail.dropLast ++ [last]) := by
  cases raw with
  | nil => simp at hlength
  | cons first rest =>
    rw [List.head?_cons, Option.some.injEq] at hheader
    have hne : rest ≠ [] := by
      rintro rfl
      simp at hlength
    rw [List.getLast?_cons_of_ne_nil hne] at hlast
    obtain ⟨body, rfl⟩ := List.getLast?_eq_some_iff.mp hlast
    rw [hheader, List.tail_cons, List.dropLast_concat]

theorem parseText_rewritten {text : List Char} {kind : EnvelopeKind} {document : Document}
    (h : parseText text kind = .ok document)
    : ∃ needless, Rewritten text document.encodeText needless := by
  unfold parseText at h
  split at h
  . cases h
  . next hend =>
    simp only [ne_eq, not_not] at hend
    dsimp only at h
    split at h
    . cases h
    . next hlength =>
      split at h
      . cases h
      . next hheader =>
        split at h
        . cases h
        . next hlast =>
          simp only [ne_eq, not_not] at hheader hlast
          simp only [Except.bind_ok_iff, Except.ok.injEq] at h
          obtain ⟨lines, hlines, rfl⟩ := h
          have hraw := envelope_lines (by omega) hheader hlast
          have htext := splitTerminator_lines hend
          rw [hraw, List.flatMap_cons, List.flatMap_append, List.flatMap_singleton] at htext
          obtain ⟨needless, hvalues⟩ := parseLines_rewritten hlines
          have hfirst : Rewritten (kind.header ++ ['\n']) (kind.header ++ ['\n']) false := by
            apply Rewritten.plain
            cases kind <;> decide
          have hfinal : Rewritten ("End".toList ++ ['\n']) ("End".toList ++ ['\n']) false := by
            apply Rewritten.plain
            decide
          have hencode : encodeText ⟨kind, lines⟩ =
              (kind.header ++ ['\n']) ++ (lines.flatMap Line.encode ++ ("End".toList ++ ['\n'])) := by
            simp [encodeText]
          refine ⟨false || (needless || false), ?_⟩
          rw [← htext, hencode]
          apply Rewritten.append hfirst (Rewritten.append hvalues hfinal)

/--
A text that was accepted is the one that its document is written as, exactly if it escapes no printable
character.
-/
theorem encode_parse_iff (input : List UInt8) (kind : EnvelopeKind) (document : Document)
    (h : parse input kind = .ok document)
    : document.encode = input ↔
        ∀ text ∈ Bytes.toString? input, escapesPrintable text.toList = false := by
  unfold parse at h
  split at h
  . cases h
  . next text htext =>
    obtain ⟨needless, hrewritten⟩ := parseText_rewritten h
    rw [htext, ← Bytes.ofString_of_toString? htext]
    simp only [Option.mem_def, Option.some.injEq, forall_eq']
    rw [← hrewritten.encode_eq_iff, encode, Bytes.ofString_inj, ← String.toList_inj,
      String.toList_ofList]

/--
Two texts of one document: the second one escapes a letter.
-/
theorem escaped_letter_not_canonical
    : ¬∀ (input : List UInt8) (kind : EnvelopeKind) (document : Document),
        parse input kind = .ok document → document.encode = input := by
  intro h
  have hsame := h (Bytes.ofString "TITH-IPC 1\nSubject \"\\x41\"\nEnd\n") .request (subject "A")
    (by decide +kernel)
  revert hsame
  decide +kernel

theorem encode_parse_control
    : parse (Bytes.ofString "TITH-IPC 1\nSubject \"\\x1F\"\nEnd\n") .request =
          .ok (subject "\x1f") ∧
        (subject "\x1f").encode = Bytes.ofString "TITH-IPC 1\nSubject \"\\x1F\"\nEnd\n" :=
  ⟨by decide +kernel,
    (encode_parse_iff _ .request _ (by decide +kernel)).mpr (by
      intro text htext
      rw [Bytes.toString?_ofString] at htext
      injection htext with htext
      rw [← htext]
      decide +kernel)⟩

end Document

end Tith.Ipc
