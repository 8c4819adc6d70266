import Tith.Ipc.Document

/-!
This module contains the framer that cuts a stream of lines at the ends of its documents, and the nesting
of blocks that it counts.
-/

namespace Tith.Ipc

structure DocumentFramer where
  kind : EnvelopeKind
  lines : Nat
  depth : UInt64
  complete : Bool
  deriving DecidableEq, Repr

namespace DocumentFramer

def new (kind : EnvelopeKind) : DocumentFramer where
  kind := kind
  lines := 0
  depth := 0
  complete := false

/--
The lines that open a block. The source compares their bytes, the line feed included.
-/
def opens (kind : EnvelopeKind) (line : List UInt8) : Bool :=
  match kind with
  | .request =>
    line = Bytes.ofString "Attachment\n" || line = Bytes.ofString "File\n" ||
      (Bytes.ofString "Job\n").isPrefixOf line || (Bytes.ofString "Job ").isPrefixOf line
  | .result => line = Bytes.ofString "Event\n" || (Bytes.ofString "Delivery ").isPrefixOf line

def push (framer : DocumentFramer) (line : List UInt8) : Except IpcError Bool × DocumentFramer :=
  let framer := { framer with lines := framer.lines + 1 }
  if framer.complete then
    (fail framer.lines "bytes after outer End", framer)
  else if framer.lines = 1 then
    if line ≠ Bytes.ofString (String.ofList framer.kind.header) ++ [10] then
      (fail 1 "invalid envelope header", framer)
    else
      (.ok false, framer)
  else if line = Bytes.ofString "End\n" then
    if framer.depth = 0 then
      (.ok true, { framer with complete := true })
    else
      (.ok false, { framer with depth := framer.depth - 1 })
  else if opens framer.kind line then
    if framer.depth.toNat + 1 < 2 ^ 64 then
      (.ok false, { framer with depth := framer.depth + 1 })
    else
      (fail framer.lines "block nesting overflow", framer)
  else
    (.ok false, framer)

def feed (framer : DocumentFramer) (lines : List (List UInt8)) : List (Except IpcError Bool) :=
  match lines with
  | [] => []
  | line :: lines =>
    let (answer, framer) := framer.push line
    answer :: framer.feed lines

/--
The loop that reads one document from a stream of lines, and what it leaves.
-/
def readDocument (framer : DocumentFramer) (stream : List (List UInt8))
    : Except IpcError (List (List UInt8) × List (List UInt8)) :=
  match stream with
  | [] => fail framer.lines "connection ended before final End"
  | line :: stream =>
    match framer.push line with
    | (.error e, _) => .error e
    | (.ok true, _) => .ok ([line], stream)
    | (.ok false, framer) => do
      let (document, rest) ← framer.readDocument stream
      .ok (line :: document, rest)

end DocumentFramer

/--
The lines of a byte string, each with its line feed. What stands behind the last one is no whole line.
-/
def byteLines (input : List UInt8) : List (List UInt8) :=
  match input with
  | [] => []
  | b :: rest =>
    if b = 10 then
      [b] :: byteLines rest
    else
      match byteLines rest with
      | [] => [[b]]
      | line :: lines => (b :: line) :: lines

theorem byteLines_append {line rest : List UInt8} (h : 10 ∉ line)
    : byteLines (line ++ 10 :: rest) = (line ++ [10]) :: byteLines rest := by
  induction line with
  | nil => simp [byteLines]
  | cons b line ih =>
    simp only [List.mem_cons, not_or] at h
    rw [List.cons_append, byteLines, if_neg (Ne.symm h.1), ih h.2]
    rfl

theorem flatten_byteLines (input : List UInt8) : (byteLines input).flatten = input := by
  induction input with
  | nil => rfl
  | cons b input ih =>
    rw [byteLines]
    split
    . rw [List.flatten_cons, ih]
      rfl
    . split
      . next hnil =>
        rw [hnil] at ih
        rw [← ih]
        rfl
      . next line lines hlines =>
        rw [hlines] at ih
        rw [← ih]
        rfl

theorem byteLines_append_of_getLast {input : List UInt8} (h : input.getLast? = some 10) (rest : List UInt8)
    : byteLines (input ++ rest) = byteLines input ++ byteLines rest := by
  induction input with
  | nil => cases h
  | cons b input ih =>
    by_cases hnil : input = []
    . subst hnil
      injection h with h
      rw [show b = 10 from h, List.cons_append, byteLines, if_pos rfl]
      rfl
    . rw [List.getLast?_cons_of_ne_nil hnil] at h
      rw [List.cons_append, byteLines, byteLines, ih h]
      split
      . rfl
      . have hlines : byteLines input ≠ [] := by
          intro hlines
          apply hnil
          rw [← flatten_byteLines input, hlines]
          rfl
        obtain ⟨line, lines, hlines⟩ := List.exists_cons_of_ne_nil hlines
        rw [hlines]
        rfl

/-!
The nesting of blocks.
-/

inductive Mark where
  | opening
  | closing
  | plain
  deriving DecidableEq, Repr

/--
Every block that is opened is closed again, and no more than `bound` of them are open at once.
-/
inductive Nested : Nat → List Mark → Prop where
  | nil (bound : Nat) : Nested bound []
  | plain {bound : Nat} {marks : List Mark} (h : Nested bound marks) : Nested bound (.plain :: marks)
  | block {bound : Nat} {inner marks : List Mark} (hinner : Nested bound inner)
      (h : Nested (bound + 1) marks)
      : Nested (bound + 1) (.opening :: (inner ++ .closing :: marks))

namespace Nested

theorem append {bound : Nat} {marks marks' : List Mark} (h : Nested bound marks) (h' : Nested bound marks')
    : Nested bound (marks ++ marks') := by
  induction h with
  | nil => exact h'
  | plain _ ih => exact .plain (ih h')
  | block hinner _ _ ih =>
    rw [List.cons_append, List.append_assoc, List.cons_append]
    exact .block hinner (ih h')

theorem of_plain {bound : Nat} {marks : List Mark} (h : ∀ mark ∈ marks, mark = .plain)
    : Nested bound marks := by
  induction marks with
  | nil => exact .nil bound
  | cons mark marks ih =>
    rw [List.forall_mem_cons] at h
    rw [h.1]
    exact .plain (ih h.2)

end Nested

namespace DocumentFramer

/--
What the framer takes a line for. The line feed of a line that closes a block or the document is compared, too.
-/
def markOf (kind : EnvelopeKind) (line : List UInt8) : Mark :=
  if line = Bytes.ofString "End\n" then .closing else if opens kind line then .opening else .plain

/--
Behind the header, with some blocks open.
-/
structure Inside (kind : EnvelopeKind) (depth : Nat) (framer : DocumentFramer) : Prop where
  kind : framer.kind = kind
  lines : 0 < framer.lines
  depth : framer.depth.toNat = depth
  incomplete : framer.complete = false

theorem push_inside {kind : EnvelopeKind} {depth : Nat} {framer : DocumentFramer}
    (h : Inside kind depth framer) (line : List UInt8)
    : framer.push line =
        match markOf kind line with
        | .closing =>
          if depth = 0 then
            (.ok true, { framer with lines := framer.lines + 1, complete := true })
          else
            (.ok false, { framer with lines := framer.lines + 1, depth := framer.depth - 1 })
        | .opening =>
          if depth + 1 < 2 ^ 64 then
            (.ok false, { framer with lines := framer.lines + 1, depth := framer.depth + 1 })
          else
            (fail (framer.lines + 1) "block nesting overflow", { framer with lines := framer.lines + 1 })
        | .plain => (.ok false, { framer with lines := framer.lines + 1 }) := by
  have hlines := h.lines
  have hzero : framer.depth = 0 ↔ depth = 0 := by
    rw [← h.depth]
    exact ⟨fun heq => by rw [heq]; rfl, fun heq => UInt64.toNat_inj.mp heq⟩
  unfold push markOf
  dsimp only
  rw [h.incomplete, if_neg (by simp), if_neg (by omega), h.kind, h.depth]
  split
  . simp only [hzero]
  . split <;> rfl

theorem inside_opening {kind : EnvelopeKind} {depth : Nat} {framer : DocumentFramer}
    (h : Inside kind depth framer) (hdepth : depth + 1 < 2 ^ 64)
    : Inside kind (depth + 1) { framer with lines := framer.lines + 1, depth := framer.depth + 1 } where
  kind := h.kind
  lines := by simp
  depth := by
    have hone : (1 : UInt64).toNat = 1 := rfl
    rw [UInt64.toNat_add, h.depth, hone, Nat.mod_eq_of_lt hdepth]
  incomplete := h.incomplete

theorem inside_closing {kind : EnvelopeKind} {depth : Nat} {framer : DocumentFramer}
    (h : Inside kind (depth + 1) framer)
    : Inside kind depth { framer with lines := framer.lines + 1, depth := framer.depth - 1 } where
  kind := h.kind
  lines := by simp
  depth := by
    have hle : (1 : UInt64) ≤ framer.depth := by
      have hdepth := h.depth
      rw [UInt64.le_iff_toNat_le]
      change 1 ≤ framer.depth.toNat
      omega
    rw [UInt64.toNat_sub_of_le _ _ hle, h.depth]
    rfl
  incomplete := h.incomplete

theorem feed_nested {kind : EnvelopeKind} {bound : Nat} {marks : List Mark} (hnested : Nested bound marks)
    {depth : Nat} (hbound : depth + bound < 2 ^ 64) {framer : DocumentFramer} (h : Inside kind depth framer)
    {lines : List (List UInt8)} (hmarks : lines.map (markOf kind) = marks) (rest : List (List UInt8))
    : ∃ framer', Inside kind depth framer' ∧
        framer.feed (lines ++ rest) = List.replicate lines.length (.ok false) ++ framer'.feed rest := by
  induction hnested generalizing depth framer lines rest with
  | nil =>
    rw [List.map_eq_nil_iff] at hmarks
    subst hmarks
    exact ⟨framer, h, rfl⟩
  | plain _ ih =>
    obtain ⟨line, lines, rfl, hline, hmarks⟩ := List.map_eq_cons_iff.mp hmarks
    have hnext : Inside kind depth { framer with lines := framer.lines + 1 } :=
      ⟨h.kind, by simp, h.depth, h.incomplete⟩
    obtain ⟨framer', hframer', hfeed⟩ := ih hbound hnext hmarks rest
    refine ⟨framer', hframer', ?_⟩
    rw [List.cons_append, feed, push_inside h, hline]
    dsimp only
    rw [hfeed, List.length_cons, List.replicate_succ, List.cons_append]
  | @block bound inner marks hinner _ ihinner ih =>
    obtain ⟨line, lines, rfl, hline, hmarks⟩ := List.map_eq_cons_iff.mp hmarks
    obtain ⟨block, lines, rfl, hblock, hmarks⟩ := List.map_eq_append_iff.mp hmarks
    obtain ⟨last, lines, rfl, hlast, hmarks⟩ := List.map_eq_cons_iff.mp hmarks
    -- The lines of the block are read with one more block open than those behind it.
    have hopened := inside_opening h (by omega)
    obtain ⟨opened, hopened', hfeedblock⟩ := ihinner (by omega) hopened hblock (last :: (lines ++ rest))
    obtain ⟨framer', hframer', hfeed⟩ := ih hbound (inside_closing hopened') hmarks rest
    refine ⟨framer', hframer', ?_⟩
    rw [List.cons_append, feed, push_inside h, hline]
    dsimp only
    rw [if_pos (by omega)]
    dsimp only
    rw [List.append_assoc, List.cons_append, hfeedblock, feed, push_inside hopened', hlast]
    dsimp only
    rw [if_neg (by omega)]
    dsimp only
    rw [hfeed]
    simp only [List.length_cons, List.length_append, List.replicate_succ, List.cons_append, List.cons.injEq,
      true_and]
    rw [← List.cons_append, ← List.replicate_succ, ← List.append_assoc, List.replicate_append_replicate]

/--
The lines of a document: its header, nested blocks and its outer `End`.
-/
structure IsDocument (kind : EnvelopeKind) (lines : List (List UInt8)) : Prop where
  exists_body : ∃ body, ∃ bound < 2 ^ 64,
    lines = (Bytes.ofString (String.ofList kind.header) ++ [10]) :: (body ++ [Bytes.ofString "End\n"]) ∧
      Nested bound (body.map (markOf kind))

theorem feed_document {kind : EnvelopeKind} {lines : List (List UInt8)} (h : IsDocument kind lines)
    : (new kind).feed lines = List.replicate (lines.length - 1) (.ok false) ++ [.ok true] := by
  obtain ⟨body, bound, hbound, rfl, hnested⟩ := h.exists_body
  have hheader : (new kind).push (Bytes.ofString (String.ofList kind.header) ++ [10]) =
      (.ok false, { new kind with lines := 1 }) := by
    simp [push, new]
  have hinside : Inside kind 0 { new kind with lines := 1 } := ⟨rfl, by simp, rfl, rfl⟩
  obtain ⟨framer, hframer, hfeed⟩ :=
    feed_nested hnested (by omega) hinside rfl [Bytes.ofString "End\n"]
  have hlast : markOf kind (Bytes.ofString "End\n") = .closing := by simp [markOf]
  rw [feed, hheader]
  dsimp only
  rw [hfeed, feed, push_inside hframer, hlast]
  dsimp only
  rw [if_pos rfl, feed]
  simp only [List.length_cons, List.length_append, List.length_nil, Nat.add_sub_cancel]
  rfl

theorem readDocument_of_feed {framer : DocumentFramer} {n : Nat} {lines : List (List UInt8)}
    (h : framer.feed lines = List.replicate n (.ok false) ++ [.ok true]) (rest : List (List UInt8))
    : framer.readDocument (lines ++ rest) = .ok (lines, rest) := by
  induction lines generalizing framer n with
  | nil => simp [feed] at h
  | cons line lines ih =>
    rw [List.cons_append, readDocument]
    rw [feed] at h
    dsimp only at h
    obtain ⟨answer, framer', hpush⟩ : ∃ answer framer', framer.push line = (answer, framer') := ⟨_, _, rfl⟩
    rw [hpush] at h ⊢
    cases n with
    | zero =>
      simp only [List.replicate_zero, List.nil_append, List.cons.injEq] at h
      rw [h.1]
      have hnil : lines = [] := by
        cases lines with
        | nil => rfl
        | cons _ _ => simp [feed] at h
      rw [hnil]
      rfl
    | succ n =>
      simp only [List.replicate_succ, List.cons_append, List.cons.injEq] at h
      rw [h.1]
      dsimp only
      rw [ih h.2]
      rfl

theorem getLast?_of_isDocument {kind : EnvelopeKind} {input : List UInt8} (h : IsDocument kind (byteLines input))
    : input.getLast? = some 10 := by
  obtain ⟨body, _, _, hlines, _⟩ := h.exists_body
  rw [← flatten_byteLines input, hlines, ← List.cons_append, List.flatten_append, List.flatten_singleton,
    List.getLast?_append_of_ne_nil _ (by decide)]
  decide

theorem readDocument_document {kind : EnvelopeKind} {lines : List (List UInt8)} (h : IsDocument kind lines)
    (rest : List (List UInt8))
    : (new kind).readDocument (lines ++ rest) = .ok (lines, rest) :=
  readDocument_of_feed (feed_document h) rest

end DocumentFramer

end Tith.Ipc
