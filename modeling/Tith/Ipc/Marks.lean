import Tith.Ipc.Canonical
import Tith.Ipc.Framer

/-!
This module contains the agreement of the framer, which compares the bytes of a line, with the fields that
the line is read as.
-/

namespace Tith.Ipc

def unquoted (text : String) : Field := ⟨text, false⟩

namespace Line

def opens (kind : EnvelopeKind) (line : Line) : Bool :=
  match kind with
  | .request =>
    line.fields = [unquoted "Attachment"] || line.fields = [unquoted "File"] ||
      line.fields.head? = some (unquoted "Job")
  | .result =>
    line.fields = [unquoted "Event"] ||
      (line.fields.head? = some (unquoted "Delivery") && decide (2 ≤ line.fields.length))

def mark (kind : EnvelopeKind) (line : Line) : Mark :=
  if line.fields = [unquoted "End"] then .closing else if line.opens kind then .opening else .plain

end Line

/--
The text of a line starts with its first field. A space is behind it exactly if there are more fields.
-/
structure Spells (raw : List Char) (line : Line) : Prop where
  newline_not_mem : '\n' ∉ raw
  exists_first : ∃ first rest field more,
    raw = first ++ rest ∧ line.fields = field :: more ∧
      (field.quoted = true → first.head? = some '"') ∧
      (field.quoted = false → first = field.text.toList ∧ ' ' ∉ first ∧ '"' ∉ first) ∧
      (rest = [] ∧ more = [] ∨ rest.head? = some ' ' ∧ more ≠ [])

theorem parseField_first {number : Nat} {input rest : List Char} {field : Field}
    (h : parseField number input = .ok (field, rest))
    : ∃ first, input = first ++ rest ∧ (field.quoted = true → first.head? = some '"') ∧
        (field.quoted = false → first = field.text.toList ∧ ' ' ∉ first ∧ '"' ∉ first) := by
  unfold parseField at h
  split at h
  . next input =>
    simp only [Except.bind_ok_iff, Prod.exists, Except.ok.injEq, Prod.mk.injEq] at h
    obtain ⟨text, _, hquoted, rfl, rfl⟩ := h
    obtain ⟨raw, _, _, hinput, _⟩ := parseQuoted_rewritten hquoted
    refine ⟨'"' :: (raw ++ ['"']), ?_, by simp, by simp⟩
    rw [hinput]
    simp
  . dsimp only at h
    split at h
    . cases h
    . next hword =>
      simp only [not_or] at hword
      simp only [Except.ok.injEq, Prod.mk.injEq] at h
      obtain ⟨rfl, rfl⟩ := h
      rw [List.span_eq_takeWhile_dropWhile] at hword ⊢
      refine ⟨input.takeWhile (· ≠ ' '), (List.takeWhile_append_dropWhile).symm, by simp, ?_⟩
      intro _
      refine ⟨by simp, ?_, ?_⟩
      . intro hmem
        simpa using List.mem_takeWhile_imp hmem
      . intro hmem
        apply hword.2.2
        rw [List.any_eq_true]
        exact ⟨_, hmem, by decide⟩

theorem spells_of_parseLine {raw : List Char} {number : Nat} {line : Line}
    (h : parseLine raw number = .ok line)
    : Spells raw line := by
  have hcanonical := canonical_of_parseLine h
  have hnewline : '\n' ∉ raw := by
    intro hmem
    have hplain := hcanonical.plain _ hmem
    revert hplain
    decide
  refine ⟨hnewline, ?_⟩
  unfold parseLine at h
  split at h
  . cases h
  . split at h
    . cases h
    . simp only [Except.bind_ok_iff, Except.ok.injEq] at h
      obtain ⟨fields, hfields, rfl⟩ := h
      obtain ⟨c, raw, rfl⟩ := List.exists_cons_of_ne_nil hcanonical.ne_nil
      rw [List.length_cons, parseFields] at hfields
      simp only [Except.bind_ok_iff, Prod.exists] at hfields
      obtain ⟨field, rest, hfield, hfields⟩ := hfields
      obtain ⟨first, hraw, hquoted, hunquoted⟩ := parseField_first hfield
      split at hfields
      . injection hfields with hfields
        exact ⟨first, [], field, [], by simpa using hraw, hfields.symm, hquoted, hunquoted, .inl ⟨rfl, rfl⟩⟩
      . next separator rest =>
        split at hfields
        . cases hfields
        . next hseparator =>
          simp only [ne_eq, not_not] at hseparator
          subst hseparator
          simp only [Except.bind_ok_iff, Except.ok.injEq] at hfields
          obtain ⟨more, hmore, rfl⟩ := hfields
          have hlast := hcanonical.last
          rw [hraw, List.getLast?_append_of_ne_nil _ (by simp)] at hlast
          have hne : rest ≠ [] := by
            rintro rfl
            exact hlast rfl
          rw [List.getLast?_cons_of_ne_nil hne] at hlast
          obtain ⟨_, hnonempty, _⟩ := parseFields_rewritten hlast hmore
          exact ⟨first, ' ' :: rest, field, more, hraw, rfl, hquoted, hunquoted, .inr ⟨rfl, hnonempty hne⟩⟩

theorem spells_text {line : Line} (h : line.WellFormed) : Spells line.text line := by
  refine ⟨Line.newline_not_mem h, ?_⟩
  obtain ⟨fields⟩ := line
  obtain ⟨field, more, rfl⟩ := List.exists_cons_of_ne_nil h.1
  have hfield := h.2 field (by simp)
  refine ⟨field.encode, (more.map Field.encode).flatMap (' ' :: ·), field, more, ?_, rfl, ?_, ?_, ?_⟩
  . rw [Line.text, List.map_cons, List.intercalate_singleton_cons]
  . intro hquoted
    simp [Field.encode, hquoted, quote]
  . intro hquoted
    have hword := hfield hquoted
    rw [Field.encode, if_neg (by simp [hquoted])]
    refine ⟨rfl, ?_, ?_⟩
    . intro hmem
      exact (hword.2 _ hmem).2.1 rfl
    . intro hmem
      exact (hword.2 _ hmem).2.2.1 rfl
  . cases more with
    | nil => exact .inl ⟨rfl, rfl⟩
    | cons next more => exact .inr ⟨rfl, by simp⟩

/--
The names that the framer looks for.
-/
def IsName (name : String) : Prop := name.toList ≠ [] ∧ ' ' ∉ name.toList ∧ '"' ∉ name.toList

theorem Spells.eq_iff {raw : List Char} {line : Line} (h : Spells raw line) {name : String} (hname : IsName name)
    : raw = name.toList ↔ line.fields = [unquoted name] := by
  obtain ⟨first, rest, ⟨text, quoted⟩, more, rfl, hfields, hquoted, hunquoted, hrest⟩ := h.exists_first
  rw [hfields]
  cases quoted with
  | true =>
    have hhead := hquoted rfl
    refine iff_of_false ?_ (by simp [unquoted])
    intro heq
    apply hname.2.2
    rw [← heq]
    exact List.mem_append_left _ (List.mem_of_head? hhead)
  | false =>
    obtain ⟨rfl, hspace, _⟩ := hunquoted rfl
    rcases hrest with ⟨rfl, rfl⟩ | ⟨hhead, hmore⟩
    . simp [unquoted, String.toList_inj]
    . refine iff_of_false ?_ (by simp [hmore])
      intro heq
      apply hname.2.1
      rw [← heq]
      exact List.mem_append_right _ (List.mem_of_head? hhead)

theorem append_separator_front {c : Char} {a b rest : List Char} (ha : c ∉ a) (hb : c ∉ b)
    (hrest : ∀ d ∈ rest.head?, d = c)
    : a ++ [c] <+: b ++ rest ↔ a = b ∧ rest ≠ [] := by
  have hspan (l : List Char) (hl : c ∉ l) (tail : List Char) (htail : ∀ d ∈ tail.head?, d = c)
      : (l ++ tail).span (· ≠ c) = (l, tail) := by
    apply List.span_append
    . intro d hd
      simp only [decide_eq_true_eq]
      rintro rfl
      exact hl hd
    . intro d hd
      simpa using htail d hd
  constructor
  . rintro ⟨tail, htail⟩
    have heq := congrArg (List.span (· ≠ c)) htail
    rw [List.append_assoc, hspan a ha _ (by simp), hspan b hb rest hrest] at heq
    injection heq with hfirst hrest
    exact ⟨hfirst, by simp [← hrest]⟩
  . rintro ⟨rfl, hne⟩
    obtain ⟨d, rest, rfl⟩ := List.exists_cons_of_ne_nil hne
    have hd := hrest d (by simp)
    subst hd
    exact ⟨rest, by simp⟩

theorem Spells.prefix_iff {raw : List Char} {line : Line} (h : Spells raw line) {name : String}
    (hname : IsName name)
    : name.toList ++ [' '] <+: raw ↔ line.fields.head? = some (unquoted name) ∧ 2 ≤ line.fields.length := by
  obtain ⟨first, rest, ⟨text, quoted⟩, more, rfl, hfields, hquoted, hunquoted, hrest⟩ := h.exists_first
  rw [hfields]
  cases quoted with
  | true =>
    have hhead := hquoted rfl
    refine iff_of_false ?_ (by simp [unquoted])
    rintro ⟨tail, htail⟩
    obtain ⟨c, name', hname'⟩ := List.exists_cons_of_ne_nil hname.1
    obtain ⟨d, first, rfl⟩ := List.exists_cons_of_ne_nil (fun hnil : first = [] => by simp [hnil] at hhead)
    rw [hname'] at htail
    simp only [List.cons_append, List.cons.injEq, List.head?_cons, Option.some.injEq] at htail hhead
    apply hname.2.2
    rw [hname', htail.1, hhead]
    simp
  | false =>
    obtain ⟨rfl, hspace, _⟩ := hunquoted rfl
    have hspaces : ∀ c ∈ rest.head?, c = ' ' := by
      rcases hrest with ⟨rfl, _⟩ | ⟨hhead, _⟩
      . simp
      . simp [hhead]
    rw [append_separator_front hname.2.1 hspace hspaces, String.toList_inj]
    have hmore : rest ≠ [] ↔ more ≠ [] := by
      rcases hrest with ⟨rfl, rfl⟩ | ⟨hhead, hmore⟩
      . simp
      . refine iff_of_true ?_ hmore
        rintro rfl
        cases hhead
    rw [hmore]
    simp [unquoted, eq_comm, Nat.one_le_iff_ne_zero]

/-!
The bytes of a line.
-/

def lineBytes (raw : List Char) : List UInt8 := Bytes.ofString (String.ofList (raw ++ ['\n']))

section Names
variable {raw : List Char} {name text : String}

theorem lineBytes_eq_iff (htext : text.toList = name.toList ++ ['\n'])
    : lineBytes raw = Bytes.ofString text ↔ raw = name.toList := by
  rw [lineBytes, Bytes.ofString_inj, ← String.toList_inj, htext, String.toList_ofList, List.append_left_inj]

theorem prefix_newline_iff (htext : text.toList = name.toList ++ ['\n']) (hraw : '\n' ∉ raw)
    (hname : '\n' ∉ name.toList) (hascii : ∀ c ∈ text.toList, c.toNat < 128)
    : Bytes.ofString text <+: lineBytes raw ↔ raw = name.toList := by
  rw [lineBytes, ← @String.ofList_toList text, Bytes.ofString_ofList_prefix hascii, htext,
    append_separator_front hname hraw (by simp)]
  simp [eq_comm]

theorem prefix_space_iff (htext : text.toList = name.toList ++ [' ']) (hascii : ∀ c ∈ text.toList, c.toNat < 128)
    : Bytes.ofString text <+: lineBytes raw ↔ name.toList ++ [' '] <+: raw := by
  rw [lineBytes, ← @String.ofList_toList text, Bytes.ofString_ofList_prefix hascii, htext]
  constructor
  . intro h
    rcases List.prefix_concat_iff.mp h with heq | hprefixed
    . have hlast := congrArg List.getLast? heq
      simp at hlast
    . exact hprefixed
  . intro h
    exact h.trans (List.prefix_append _ _)

end Names

theorem markOf_lineBytes {raw : List Char} {line : Line} (h : Spells raw line) (kind : EnvelopeKind)
    : DocumentFramer.markOf kind (lineBytes raw) = line.mark kind := by
  have hend : lineBytes raw = Bytes.ofString "End\n" ↔ line.fields = [unquoted "End"] :=
    (@lineBytes_eq_iff raw "End" _ (by simp)).trans (h.eq_iff (by simp [IsName]))
  have hopens : DocumentFramer.opens kind (lineBytes raw) = line.opens kind := by
    rw [Bool.eq_iff_iff]
    cases kind with
    | request =>
      have hattachment : lineBytes raw = Bytes.ofString "Attachment\n" ↔ line.fields = [unquoted "Attachment"] :=
        (@lineBytes_eq_iff raw "Attachment" _ (by simp)).trans (h.eq_iff (by simp [IsName]))
      have hfile : lineBytes raw = Bytes.ofString "File\n" ↔ line.fields = [unquoted "File"] :=
        (@lineBytes_eq_iff raw "File" _ (by simp)).trans (h.eq_iff (by simp [IsName]))
      have hjob : Bytes.ofString "Job\n" <+: lineBytes raw ↔ line.fields = [unquoted "Job"] :=
        (@prefix_newline_iff raw "Job" _ (by simp) h.newline_not_mem (by decide) (by simp)).trans
          (h.eq_iff (by simp [IsName]))
      have hjobs : Bytes.ofString "Job " <+: lineBytes raw ↔
          line.fields.head? = some (unquoted "Job") ∧ 2 ≤ line.fields.length :=
        (@prefix_space_iff raw "Job" _ (by simp) (by simp)).trans (h.prefix_iff (by simp [IsName]))
      have hhead : line.fields = [unquoted "Job"] ∨
          line.fields.head? = some (unquoted "Job") ∧ 2 ≤ line.fields.length ↔
            line.fields.head? = some (unquoted "Job") := by
        cases line.fields with
        | nil => simp
        | cons field more => cases more <;> simp
      simp only [DocumentFramer.opens, Line.opens, Bool.or_eq_true, decide_eq_true_eq, List.isPrefixOf_iff_prefix,
        hattachment, hfile, hjob, hjobs, or_assoc, hhead]
    | result =>
      have hevent : lineBytes raw = Bytes.ofString "Event\n" ↔ line.fields = [unquoted "Event"] :=
        (@lineBytes_eq_iff raw "Event" _ (by simp)).trans (h.eq_iff (by simp [IsName]))
      have hdelivery : Bytes.ofString "Delivery " <+: lineBytes raw ↔
          line.fields.head? = some (unquoted "Delivery") ∧ 2 ≤ line.fields.length :=
        (@prefix_space_iff raw "Delivery" _ (by simp) (by simp)).trans (h.prefix_iff (by simp [IsName]))
      simp only [DocumentFramer.opens, Line.opens, Bool.or_eq_true, Bool.and_eq_true, decide_eq_true_eq,
        List.isPrefixOf_iff_prefix, hevent, hdelivery]
  unfold DocumentFramer.markOf Line.mark
  simp only [hend, hopens]

/-!
Documents and the lines of their bytes.
-/

theorem byteLines_flatMap {raws : List (List Char)} (h : ∀ raw ∈ raws, '\n' ∉ raw)
    : byteLines (Bytes.ofString (String.ofList (raws.flatMap (· ++ ['\n'])))) = raws.map lineBytes := by
  induction raws with
  | nil => rfl
  | cons raw raws ih =>
    rw [List.forall_mem_cons] at h
    have hfeed : (10 : UInt8) ∉ Bytes.ofString (String.ofList raw) :=
      Bytes.not_mem_ofString_ofList (by decide) rfl h.1
    have hbytes (l : List Char) : Bytes.ofString (String.ofList (raw ++ '\n' :: l)) =
        Bytes.ofString (String.ofList raw) ++ 10 :: Bytes.ofString (String.ofList l) := by
      simp only [Bytes.ofString_ofList, List.flatMap_append, List.flatMap_cons]
      rfl
    rw [List.flatMap_cons, List.append_assoc, List.singleton_append, hbytes, byteLines_append hfeed, ih h.2,
      List.map_cons, lineBytes, hbytes]
    rfl

/--
A text between its header and its outer `End`.
-/
def envelope (kind : EnvelopeKind) (raws : List (List Char)) : List Char :=
  (kind.header :: (raws ++ ["End".toList])).flatMap (· ++ ['\n'])

theorem isDocument_envelope {kind : EnvelopeKind} {raws : List (List Char)} {lines : List Line}
    (hlines : List.Forall₂ Spells raws lines) {bound : Nat} (hbound : bound < 2 ^ 64)
    (hnested : Nested bound (lines.map (Line.mark kind)))
    : DocumentFramer.IsDocument kind (byteLines (Bytes.ofString (String.ofList (envelope kind raws)))) := by
  have hfeeds : ∀ raw ∈ kind.header :: (raws ++ ["End".toList]), '\n' ∉ raw := by
    simp only [List.mem_cons, List.mem_append, List.not_mem_nil, or_false]
    rintro raw (rfl | hraw | rfl)
    . cases kind <;> decide
    . obtain ⟨line, _, hspells⟩ := List.forall₂_mem_left hlines hraw
      exact hspells.newline_not_mem
    . decide
  have hmarks : (raws.map lineBytes).map (DocumentFramer.markOf kind) = lines.map (Line.mark kind) := by
    clear hfeeds hnested
    induction hlines with
    | nil => rfl
    | cons hfirst _ ih =>
      rw [List.map_cons, List.map_cons, List.map_cons, markOf_lineBytes hfirst, ih]
  have hbytes : lineBytes kind.header = Bytes.ofString (String.ofList kind.header) ++ [10] := by
    rw [lineBytes, Bytes.ofString_ofList, Bytes.ofString_ofList, List.flatMap_append]
    rfl
  have hend : lineBytes "End".toList = Bytes.ofString "End\n" :=
    (@lineBytes_eq_iff _ "End" _ (by simp)).mpr rfl
  refine ⟨raws.map lineBytes, bound, hbound, ?_, by rwa [hmarks]⟩
  rw [envelope, byteLines_flatMap hfeeds, List.map_cons, List.map_append, hbytes, List.map_singleton, hend]

theorem parse_envelope {input : List UInt8} {kind : EnvelopeKind} {document : Document}
    (h : Document.parse input kind = .ok document)
    : ∃ raws, List.Forall₂ Spells raws document.lines ∧
        input = Bytes.ofString (String.ofList (envelope kind raws)) := by
  have hlines {raws : List (List Char)} {number : Nat} {lines : List Line}
      (h : Document.parseLines raws number = .ok lines)
      : List.Forall₂ Spells raws lines := by
    induction raws generalizing number lines with
    | nil =>
      cases h
      exact .nil
    | cons raw raws ih =>
      simp only [Document.parseLines, Except.bind_ok_iff, Except.ok.injEq] at h
      obtain ⟨line, hline, lines', hlines, rfl⟩ := h
      exact .cons (spells_of_parseLine hline) (ih hlines)
  unfold Document.parse at h
  split at h
  . cases h
  . next text htext =>
    unfold Document.parseText at h
    split at h
    . cases h
    . next hend =>
      dsimp only at h
      split at h
      . cases h
      . next hlength =>
        split at h
        . cases h
        . next hheader =>
          split at h
          . cases h
          . next hlast =>
            simp only [ne_eq, not_not] at hend hheader hlast
            simp only [Except.bind_ok_iff, Except.ok.injEq] at h
            obtain ⟨lines, hread, rfl⟩ := h
            have hraw := Document.envelope_lines (by omega) hheader hlast
            refine ⟨(splitTerminator text.toList '\n').tail.dropLast, hlines hread, ?_⟩
            rw [envelope, ← hraw, Document.splitTerminator_lines hend, String.ofList_toList,
              Bytes.ofString_of_toString? htext]

theorem encode_envelope {document : Document} (h : document.WellFormed)
    : ∃ raws, List.Forall₂ Spells raws document.lines ∧
        document.encode = Bytes.ofString (String.ofList (envelope document.kind raws)) := by
  refine ⟨document.lines.map Line.text, ?_, ?_⟩
  . rw [List.forall₂_map_left_iff, List.forall₂_same]
    exact fun line hline => spells_text (h line hline)
  . rw [Document.encode, Document.encodeText, envelope, List.flatMap_cons, List.flatMap_append,
      List.flatMap_map]
    congr 2
    simp [Line.text]
    rfl

end Tith.Ipc
