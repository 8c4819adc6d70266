import Tith.Ipc.Marks
import Tith.Ipc.Submit

/-!
This module contains the nesting of the requests that the parsers take: the framer counts the blocks that
they read.
-/

namespace Tith.Ipc

open StateExcept

/--
What stands on the lines is nested.
-/
def NestedLines (bound : Nat) (lines : List Line) : Prop := Nested bound (lines.map (Line.mark .request))

/--
The rest of a block, its end and what is nested behind it.
-/
def ClosesLines (bound : Nat) (lines : List Line) : Prop :=
  ∃ inner line rest, lines = inner ++ line :: rest ∧ NestedLines bound inner ∧
    line.mark .request = .closing ∧ NestedLines (bound + 1) rest

/--
A line that is no part of the nesting may stand in front.
-/
def PlainClosed (P : List Line → Prop) : Prop :=
  ∀ line lines, line.mark .request = .plain → P lines → P (line :: lines)

theorem plainClosed_nested (bound : Nat) : PlainClosed (NestedLines bound) := by
  intro line lines hline h
  unfold NestedLines
  rw [List.map_cons, hline]
  exact .plain h

theorem plainClosed_closes (bound : Nat) : PlainClosed (ClosesLines bound) := by
  rintro line lines hline ⟨inner, last, rest, rfl, hinner, hlast, hrest⟩
  exact ⟨line :: inner, last, rest, rfl, plainClosed_nested bound line inner hline hinner, hlast, hrest⟩

theorem exact_single {line : Line} {name : String} {fields : List Field} (h : exact line [name] = some fields)
    : line.fields = unquoted name :: fields := by
  obtain ⟨all⟩ := line
  unfold exact at h
  split at h
  . next hguard =>
    injection h with h
    cases all with
    | nil => simp at hguard
    | cons field rest =>
      obtain ⟨text, quoted⟩ := field
      simp only [List.zip_cons_cons, List.zip_nil_right, List.all_cons, List.all_nil, Bool.and_true,
        Bool.and_eq_true, Bool.not_eq_true', beq_iff_eq] at hguard
      rw [← h]
      simp [unquoted, hguard.2.1, hguard.2.2]
  . cases h

/--
The names of lines that open and close no block.
-/
def IsDirective (name : String) : Prop :=
  name ≠ "End" ∧ name ≠ "Attachment" ∧ name ≠ "File" ∧ name ≠ "Job"

instance (name : String) : Decidable (IsDirective name) := inferInstanceAs (Decidable (_ ∧ _ ∧ _ ∧ _))

theorem mark_directive {line : Line} {name : String} (hname : IsDirective name)
    (h : line.fields.head? = some (unquoted name))
    : line.mark .request = .plain := by
  obtain ⟨field, fields, hfields⟩ := List.exists_cons_of_ne_nil
    (fun hnil : line.fields = [] => by simp [hnil] at h)
  obtain ⟨hend, hattachment, hfile, hjob⟩ := hname
  have hfield : field = unquoted name := by simpa [hfields] using h
  have hother {other : String} (hne : name ≠ other) : unquoted name ≠ unquoted other := by
    intro heq
    exact hne (congrArg Field.text heq)
  simp [Line.mark, Line.opens, hfields, hfield, hother hend, hother hattachment, hother hfile, hother hjob]

/-!
The directives that the cursor reads.
-/

namespace Cursor

variable {P Q : List Line → Prop}

/--
`Backward` about the lines that are still to be read.
-/
def Before (P : List Line → Prop) (m : CursorM α) (Q : List Line → Prop) : Prop :=
  Backward (fun cursor => P cursor.lines) m (fun cursor => Q cursor.lines)

theorem before_error (message : String) : Before P (error message : CursorM α) Q := by
  constructor
  intro cursor a cursor' hrun
  cases hrun

theorem current_run {name : String} {cursor cursor' : Cursor} {fields : Option (List Field)}
    (h : current name cursor = .ok (fields, cursor'))
    : cursor' = cursor ∧ fields = cursor.lines.head?.bind (fun line => exact line [name]) := by
  obtain ⟨lines, number⟩ := cursor
  cases lines with
  | nil =>
    cases h
    exact ⟨rfl, rfl⟩
  | cons line lines =>
    cases h
    exact ⟨rfl, rfl⟩

theorem current_cons {name : String} {cursor cursor' : Cursor} {fields : List Field}
    (h : current name cursor = .ok (some fields, cursor'))
    : cursor' = cursor ∧ ∃ line rest, cursor.lines = line :: rest ∧ line.fields = unquoted name :: fields := by
  obtain ⟨rfl, hfields⟩ := current_run h
  refine ⟨rfl, ?_⟩
  cases hlines : cursor'.lines with
  | nil => simp [hlines] at hfields
  | cons line rest =>
    rw [hlines, List.head?_cons, Option.bind_some] at hfields
    exact ⟨line, rest, rfl, exact_single hfields.symm⟩

theorem advance_run {cursor cursor' : Cursor} {a : Unit} (h : advance cursor = .ok (a, cursor'))
    : cursor'.lines = cursor.lines.tail := by
  cases h
  rfl

theorem before_requiredFields {name : String} (hname : IsDirective name) (hP : PlainClosed P)
    : Before P (requiredFields name) P := by
  constructor
  intro cursor fields cursor' hrun h
  rw [requiredFields, bind_run_iff] at hrun
  obtain ⟨found, looked, hcurrent, hrun⟩ := hrun
  cases found with
  | none => cases hrun
  | some found =>
    obtain ⟨rfl, line, rest, hlines, hfields⟩ := current_cons hcurrent
    simp only [bind_run_iff] at hrun
    obtain ⟨_, advanced, hadvance, hpure⟩ := hrun
    cases hpure
    rw [advance_run hadvance, hlines] at h
    rw [hlines]
    exact hP line rest (mark_directive hname (by rw [hfields]; rfl)) h

theorem before_requiredQuoted {name : String} (hname : IsDirective name) (hP : PlainClosed P)
    : Before P (requiredQuoted name) P := by
  apply backward_bind (before_requiredFields hname hP)
  intro fields
  split
  . exact backward_pure
  . exact before_error _

theorem peek_run {name : String} {read : List Field → Except String α} {cursor cursor' : Cursor}
    {value : Option α} (hname : IsDirective name) (h : peek name read cursor = .ok (value, cursor'))
    : cursor' = cursor ∧
        (value.isSome → ∃ line rest, cursor.lines = line :: rest ∧ line.mark .request = .plain) := by
  rw [peek, bind_run_iff] at h
  obtain ⟨found, looked, hcurrent, h⟩ := h
  cases found with
  | none =>
    cases h
    exact ⟨(current_run hcurrent).1, by simp⟩
  | some found =>
    obtain ⟨rfl, line, rest, hlines, hfields⟩ := current_cons hcurrent
    dsimp only at h
    cases hread : read found with
    | error message =>
      rw [hread] at h
      cases h
    | ok value =>
      rw [hread] at h
      cases h
      exact ⟨rfl, fun _ => ⟨line, rest, hlines, mark_directive hname (by rw [hfields]; rfl)⟩⟩

theorem before_optional {name : String} {read : List Field → Except String α} (hname : IsDirective name)
    (hP : PlainClosed P)
    : Before P (optional name read) P := by
  constructor
  intro cursor value cursor' hrun h
  rw [optional, bind_run_iff] at hrun
  obtain ⟨found, looked, hpeek, hrun⟩ := hrun
  obtain ⟨rfl, hplain⟩ := peek_run hname hpeek
  cases found with
  | none =>
    cases hrun
    exact h
  | some found =>
    obtain ⟨line, rest, hlines, hmark⟩ := hplain rfl
    simp only [bind_run_iff] at hrun
    obtain ⟨_, advanced, hadvance, hpure⟩ := hrun
    cases hpure
    rw [advance_run hadvance, hlines] at h
    rw [hlines]
    exact hP line rest hmark h

theorem before_optionalNumber {name : String} {parse : String → Option α} {message : String}
    (hname : IsDirective name) (hP : PlainClosed P)
    : Before P (optionalNumber name parse message) P := by
  apply backward_bind (before_optional hname hP)
  intro value
  split
  . exact backward_pure
  . split
    . exact before_error _
    . exact backward_pure

theorem before_optionalAutoU64 {name : String} (hname : IsDirective name) (hP : PlainClosed P)
    : Before P (optionalAutoU64 name) P :=
  backward_bind (before_optionalNumber hname hP) (fun _ => backward_pure)

theorem before_repeated {next : CursorM (Option α)} (h : Before P next P) : Before P (repeated next) P := by
  have hgo (fuel : Nat) : Before P (repeated.go next fuel) P := by
    induction fuel with
    | zero => exact backward_pure
    | succ fuel ih =>
      apply backward_bind h
      intro value
      split
      . exact backward_pure
      . exact backward_bind ih (fun _ => backward_pure)
  constructor
  intro cursor values cursor' hrun hP
  exact (hgo cursor.lines.length).run cursor values cursor' hrun hP

theorem before_finish {bound : Nat} : Before (NestedLines bound) finish (fun _ => True) := by
  constructor
  intro cursor a cursor' hrun _
  rw [finish, bind_run_iff] at hrun
  obtain ⟨_, _, hget, hrun⟩ := hrun
  cases hget
  split at hrun
  . next hnil =>
    rw [hnil]
    exact .nil bound
  . cases hrun

theorem peekExact_run {name : String} {cursor cursor' : Cursor}
    (h : peekExact name cursor = .ok (true, cursor'))
    : cursor' = cursor ∧ ∃ line rest, cursor.lines = line :: rest ∧ line.fields = [unquoted name] := by
  rw [peekExact, bind_run_iff] at h
  obtain ⟨found, looked, hcurrent, hpure⟩ := h
  obtain ⟨hfound, rfl⟩ := pure_run_iff.mp hpure
  simp only [decide_eq_true_eq] at hfound
  subst hfound
  exact current_cons hcurrent

theorem before_requiredEnd {bound : Nat} : Before (ClosesLines bound) requiredEnd (NestedLines (bound + 1)) := by
  constructor
  intro cursor a cursor' hrun h
  rw [requiredEnd, bind_run_iff] at hrun
  obtain ⟨peeked, looked, hpeek, hrun⟩ := hrun
  cases peeked with
  | false => cases hrun
  | true =>
    obtain ⟨rfl, line, rest, hlines, hfields⟩ := peekExact_run hpeek
    rw [advance_run hrun, hlines] at h
    rw [hlines]
    exact ⟨[], line, rest, rfl, .nil bound, by simp [Line.mark, hfields], h⟩

theorem nestedLines_block {bound : Nat} {line : Line} {lines : List Line} (hline : line.mark .request = .opening)
    (h : ClosesLines bound lines)
    : NestedLines (bound + 1) (line :: lines) := by
  obtain ⟨inner, last, rest, rfl, hinner, hlast, hrest⟩ := h
  unfold NestedLines
  rw [List.map_cons, List.map_append, List.map_cons, hline, hlast]
  exact .block hinner hrest

theorem mark_block {line : Line} {name : String} (hname : name = "Attachment" ∨ name = "File")
    (h : line.fields = [unquoted name])
    : line.mark .request = .opening := by
  rcases hname with rfl | rfl <;> simp [Line.mark, Line.opens, h, unquoted]

end Cursor

open Cursor

/-!
The parts of a job.
-/

section Parts
variable {P Q : List Line → Prop}

theorem parseSourceName_run {source : Source} {cursor cursor' : Cursor}
    (h : parseSourceName cursor = .ok (source, cursor'))
    : cursor' = cursor ∧ ∃ line rest, cursor.lines = line :: rest ∧ line.mark .request = .plain := by
  rw [parseSourceName, bind_run_iff] at h
  obtain ⟨path, looked, hpath, h⟩ := h
  obtain ⟨rfl, hplain⟩ := peek_run (by decide) hpath
  cases path with
  | some path =>
    cases h
    exact ⟨rfl, hplain rfl⟩
  | none =>
    dsimp only at h
    rw [bind_run_iff] at h
    obtain ⟨handle, looked, hhandle, h⟩ := h
    obtain ⟨rfl, hplain⟩ := peek_run (by decide) hhandle
    cases handle with
    | none => cases h
    | some handle =>
      cases h
      exact ⟨rfl, hplain rfl⟩

theorem before_sourceName (hP : PlainClosed P) {f : Source → CursorM α} (hf : ∀ source, Before P (f source) Q)
    : Before P (parseSourceName >>= fun source => advance >>= fun _ => f source) Q := by
  constructor
  intro cursor a cursor' hrun h
  simp only [bind_run_iff] at hrun
  obtain ⟨source, looked, hname, _, advanced, hadvance, hrun⟩ := hrun
  obtain ⟨rfl, line, rest, hlines, hmark⟩ := parseSourceName_run hname
  have hrest := (hf source).run advanced a cursor' hrun h
  rw [advance_run hadvance, hlines] at hrest
  rw [hlines]
  exact hP line rest hmark hrest

theorem before_parseIngestion (hP : PlainClosed P) : Before P parseIngestion P := by
  apply backward_bind (before_optional (by decide) hP)
  intro value
  split
  . exact backward_pure
  . exact backward_pure
  . exact backward_pure
  . exact before_error _

theorem before_parseDisposition (hP : PlainClosed P) : Before P parseDisposition P := by
  apply backward_bind (before_optional (by decide) hP)
  intro value
  split
  . exact backward_pure
  . exact backward_pure
  . exact backward_pure
  . exact backward_pure
  . exact before_error _

theorem before_parseWireFilename (hP : PlainClosed P) (attachment : Bool)
    : Before P (parseWireFilename attachment) P := by
  apply backward_bind (before_optional (by decide) hP)
  intro value
  split
  . split
    . exact backward_pure
    . exact before_error _
  . split
    . exact backward_pure
    . exact before_error _
  . exact backward_pure

theorem before_parseExpected (hP : PlainClosed P) (attachment : Bool) : Before P (parseExpected attachment) P := by
  unfold parseExpected
  split
  . apply backward_bind (before_optionalNumber (by decide) hP)
    intro size
    apply backward_bind (before_optional (by decide) hP)
    intro hash
    exact backward_pure
  . exact backward_pure

theorem before_parseSource (hP : PlainClosed P) (attachment : Bool) : Before P (parseSource attachment) P := by
  apply before_sourceName hP
  intro source
  apply backward_bind (before_parseIngestion hP)
  intro ingestion
  apply backward_bind (before_parseDisposition hP)
  intro disposition
  apply backward_bind (before_parseWireFilename hP attachment)
  intro wireFilename
  apply backward_bind (before_optionalAutoU64 (by decide) hP)
  intro timestamp
  apply backward_bind (before_parseExpected hP attachment)
  intro expected
  exact backward_pure

theorem before_open {bound : Nat} {name : String} (hname : name = "Attachment" ∨ name = "File")
    {skip : CursorM α} {f : CursorM α} (hskip : Before (NestedLines (bound + 1)) skip Q)
    (hf : Before (ClosesLines bound) f Q)
    : Before (NestedLines (bound + 1))
        (peekExact name >>= fun found => if !found then skip else advance >>= fun _ => f) Q := by
  constructor
  intro cursor a cursor' hrun h
  rw [bind_run_iff] at hrun
  obtain ⟨found, looked, hpeek, hrun⟩ := hrun
  cases found with
  | false =>
    rw [peekExact, bind_run_iff] at hpeek
    obtain ⟨_, _, hcurrent, hpure⟩ := hpeek
    obtain ⟨_, rfl⟩ := pure_run_iff.mp hpure
    obtain ⟨rfl, _⟩ := current_run hcurrent
    exact hskip.run _ a cursor' hrun h
  | true =>
    obtain ⟨rfl, line, rest, hlines, hfields⟩ := peekExact_run hpeek
    simp only [Bool.not_true, Bool.false_eq_true, if_false, bind_run_iff] at hrun
    obtain ⟨_, advanced, hadvance, hrun⟩ := hrun
    have hrest := hf.run advanced a cursor' hrun h
    rw [advance_run hadvance, hlines] at hrest
    rw [hlines]
    exact nestedLines_block (mark_block hname hfields) hrest

theorem before_parseAttachment : Before (NestedLines 1) parseAttachment (NestedLines 1) := by
  apply before_open (.inl rfl) backward_pure
  apply backward_bind (before_parseSource (plainClosed_closes 0) true)
  intro source
  exact backward_bind before_requiredEnd (fun _ => backward_pure)

theorem before_parseMessageDelivery (hP : PlainClosed P) (kind : MessageKind)
    : Before P (parseMessageDelivery kind) P := by
  cases kind with
  | netMail =>
    apply backward_bind (before_optional (by decide) hP)
    intro deliveryClass
    apply backward_bind (before_optional (by decide) hP)
    intro nextHop
    apply backward_bind (before_optional (by decide) hP)
    intro failurePolicy
    exact backward_pure
  | echoMail => exact backward_pure

theorem before_parsePeerDelivery (hP : PlainClosed P) (destination : String)
    : Before P (parsePeerDelivery destination) P := by
  apply backward_bind (before_optional (by decide) hP)
  intro deliveryClass
  apply backward_bind (before_optional (by decide) hP)
  intro mode
  apply backward_bind (before_optional (by decide) hP)
  intro failurePolicy
  exact backward_pure

theorem before_parseFileTarget (hP : PlainClosed P) (peer : Bool) : Before P (parseFileTarget peer) P := by
  unfold parseFileTarget
  split
  . apply backward_bind (before_requiredQuoted (by decide) hP)
    intro destination
    exact backward_bind (before_parsePeerDelivery hP destination) (fun _ => backward_pure)
  . exact backward_bind (before_requiredQuoted (by decide) hP) (fun _ => backward_pure)

end Parts

/-!
The bodies of the jobs, which are read to their last line.
-/

theorem before_parseMessage (kind : MessageKind)
    : Before (NestedLines 1) (parseMessage kind) (fun _ => True) := by
  have hP := plainClosed_nested 1
  apply backward_bind (before_requiredQuoted (by decide) hP)
  intro origin
  apply backward_bind (before_optional (by decide) hP)
  intro localIdentity
  apply backward_bind (before_optional (by decide) hP)
  intro signedOrigin
  apply backward_bind (before_optional (by decide) hP)
  intro signedOriginPublicKey
  apply backward_bind (before_requiredQuoted (by cases kind <;> decide) hP)
  intro destinationOrArea
  apply backward_bind (before_requiredQuoted (by decide) hP)
  intro toUser
  apply backward_bind (before_requiredQuoted (by decide) hP)
  intro fromUser
  apply backward_bind (before_optionalAutoU64 (by decide) hP)
  intro timestamp
  apply backward_bind (before_optional (by decide) hP)
  intro subject
  apply backward_bind (before_optional (by decide) hP)
  intro messageText
  apply backward_bind (before_optionalNumber (by decide) hP)
  intro legacyAttributes
  apply backward_bind (before_optionalNumber (by decide) hP)
  intro timestampOffset
  apply backward_bind (before_optional (by decide) hP)
  intro tearLine
  apply backward_bind (before_optional (by decide) hP)
  intro originLine
  apply backward_bind (before_optional (by decide) hP)
  intro messageId
  apply backward_bind (before_optional (by decide) hP)
  intro replyTo
  apply backward_bind (before_optional (by decide) hP)
  intro signature
  apply backward_bind (before_repeated (before_optional (by decide) hP))
  intro vias
  apply backward_bind (before_repeated (before_optional (by decide) hP))
  intro seenBy
  apply backward_bind (before_repeated (before_optional (by decide) hP))
  intro additionalKludgeLines
  apply backward_bind (before_parseMessageDelivery hP kind)
  intro delivery
  apply backward_bind (before_repeated before_parseAttachment)
  intro attachments
  exact backward_bind before_finish (fun _ => backward_pure)

theorem before_parseFileRequest : Before (NestedLines 1) parseFileRequest (fun _ => True) := by
  have hP := plainClosed_nested 1
  apply backward_bind (before_requiredQuoted (by decide) hP)
  intro origin
  apply backward_bind (before_requiredQuoted (by decide) hP)
  intro destination
  apply backward_bind (before_requiredQuoted (by decide) hP)
  intro filename
  apply backward_bind (before_optionalNumber (by decide) hP)
  intro newerThan
  apply backward_bind (before_parsePeerDelivery hP destination)
  intro delivery
  exact backward_bind before_finish (fun _ => backward_pure)

theorem before_parseFile (peer : Bool) : Before (NestedLines 1) (parseFile peer) (fun _ => True) := by
  have hP := plainClosed_nested 1
  have hblock := plainClosed_closes 0
  apply backward_bind (before_requiredQuoted (by decide) hP)
  intro origin
  apply backward_bind (before_optional (by decide) hP)
  intro signedOrigin
  apply backward_bind (before_parseFileTarget hP peer)
  intro target
  apply backward_bind (before_open (.inr rfl) (before_error _) backward_pure)
  intro _
  apply backward_bind (before_parseSource hblock false)
  intro source
  apply backward_bind (before_optional (by decide) hblock)
  intro shortDescription
  apply backward_bind (before_repeated (before_optional (by decide) hblock))
  intro longDescriptionLines
  apply backward_bind (before_optional (by decide) hblock)
  intro tearLine
  apply backward_bind (before_optional (by decide) hblock)
  intro magicWord
  apply backward_bind (before_optional (by decide) hblock)
  intro replaces
  apply backward_bind (before_optionalNumber (by decide) hblock)
  intro expectedSize
  apply backward_bind (before_optional (by decide) hblock)
  intro expectedHash
  apply backward_bind before_requiredEnd
  intro _
  exact backward_bind before_finish (fun _ => backward_pure)

theorem before_parseForward : Before (NestedLines 1) parseForward (fun _ => True) := by
  apply backward_bind (before_requiredFields (by decide) (plainClosed_nested 1))
  intro fields
  split
  . exact backward_bind before_finish (fun _ => backward_pure)
  . exact @before_error (NestedLines 1) (fun _ => True) _ _

theorem before_parseBody (kind : ParsedJobKind) : Before (NestedLines 1) (parseBody kind) (fun _ => True) := by
  have hmap {α : Type} {m : CursorM α} {f : α → SubmissionBody} (h : Before (NestedLines 1) m (fun _ => True))
      : Before (NestedLines 1) (f <$> m) (fun _ => True) :=
    backward_bind h (fun _ => backward_pure)
  cases kind with
  | forward => exact before_parseForward
  | file => exact hmap (before_parseFile false)
  | peerFile => exact hmap (before_parseFile true)
  | fileRequest => exact hmap before_parseFileRequest
  | netMail => exact hmap (before_parseMessage .netMail)
  | echoMail => exact hmap (before_parseMessage .echoMail)

theorem before_parseJobBody (kind : ParsedJobKind)
    : Before (NestedLines 1) (parseJobBody kind) (fun _ => True) := by
  have hP := plainClosed_nested 1
  apply backward_bind (before_requiredQuoted (by decide) hP)
  intro application
  apply backward_bind (before_requiredQuoted (by decide) hP)
  intro idempotencyKey
  exact backward_bind (before_parseBody kind) (fun _ => backward_pure)

/-!
Batches.
-/

theorem fields_of_isExactly {name : String} {line : Line} (h : isExactly name line = true)
    : line.fields = [unquoted name] := by
  simp only [isExactly, decide_eq_true_eq] at h
  exact exact_single h

theorem splitJob_some {depth : Nat} {lines job rest : List Line} (h : splitJob depth lines = some (job, rest))
    : lines = job ++ rest ∧ ∃ body last, job = body ++ [last] ∧ last.mark .request = .closing := by
  have hstep {depth : Nat} {line : Line} {lines job rest : List Line}
      (ih : ∀ {job rest}, splitJob depth lines = some (job, rest) →
        lines = job ++ rest ∧ ∃ body last, job = body ++ [last] ∧ last.mark .request = .closing)
      (h : (splitJob depth lines).map (fun parts => (line :: parts.1, parts.2)) = some (job, rest))
      : line :: lines = job ++ rest ∧ ∃ body last, job = body ++ [last] ∧ last.mark .request = .closing := by
    rw [Option.map_eq_some_iff] at h
    obtain ⟨⟨tail, rest'⟩, htail, heq⟩ := h
    injection heq with hjob hrest
    subst hjob
    subst hrest
    obtain ⟨hlines, body, last, htail', hlast⟩ := ih htail
    exact ⟨by rw [hlines, List.cons_append], line :: body, last, by rw [htail', List.cons_append], hlast⟩
  induction lines generalizing depth job rest with
  | nil => cases h
  | cons line lines ih =>
    rw [splitJob] at h
    split at h
    . exact hstep (fun h => ih h) h
    . split at h
      . next hend =>
        split at h
        . injection h with h
          injection h with hjob hrest
          subst hjob
          subst hrest
          exact ⟨rfl, [], line, rfl, by simp [Line.mark, fields_of_isExactly hend]⟩
        . exact hstep (fun h => ih h) h
      . exact hstep (fun h => ih h) h

theorem jobEnd_ok {opening : Line} {rest job rest' : List Line} {number : Nat}
    (h : jobEnd opening rest number = .ok (job, rest'))
    : opening :: rest = job ++ rest' ∧ opening.mark .request = .opening ∧
        ∃ body last, job = opening :: (body ++ [last]) ∧ last.mark .request = .closing := by
  unfold jobEnd at h
  split at h
  . cases h
  . next hopening =>
    split at h
    . cases h
    . next tail rest' hsplit =>
      cases h
      obtain ⟨hrest, body, last, rfl, hlast⟩ := splitJob_some hsplit
      refine ⟨by rw [hrest, List.cons_append], ?_, body, last, rfl, hlast⟩
      obtain ⟨fields⟩ := opening
      cases fields with
      | nil => simp at hopening
      | cons field fields =>
        obtain ⟨text, quoted⟩ := field
        simp only [List.head?_cons, Option.all_some, Bool.or_eq_true, decide_eq_true_eq, not_or, not_not,
          Bool.not_eq_true] at hopening
        simp [Line.mark, Line.opens, unquoted, hopening.1, hopening.2]

theorem nested_parseJob {operation : SubmitOperation} {opening last : Line} {body : List Line} {number : Nat}
    {job : SubmissionJob} (h : parseJob operation (opening :: (body ++ [last])) number = .ok job)
    : NestedLines 1 body := by
  unfold parseJob at h
  simp only [Except.bind_ok_iff, Prod.exists] at h
  obtain ⟨kind, _, application, idempotencyKey, parsed, cursor, hbody, _⟩ := h
  rw [List.dropLast_concat] at hbody
  exact (before_parseJobBody kind).run _ _ cursor hbody trivial

theorem nested_parseJobs {operation : SubmitOperation} {fuel : Nat} {lines : List Line} {number : Nat}
    {jobs : List SubmissionJob} (h : parseJobs operation fuel lines number = .ok jobs)
    : NestedLines 2 lines := by
  induction fuel generalizing lines number jobs with
  | zero =>
    cases lines with
    | nil => exact .nil 2
    | cons line lines => cases h
  | succ fuel ih =>
    cases lines with
    | nil => exact .nil 2
    | cons opening rest =>
      simp only [parseJobs, Except.bind_ok_iff, Prod.exists] at h
      obtain ⟨job, rest', hend, first, hjob, others, hothers, _⟩ := h
      obtain ⟨hlines, hopening, body, last, rfl, hlast⟩ := jobEnd_ok hend
      rw [hlines]
      rw [List.cons_append, List.append_assoc, List.singleton_append]
      exact nestedLines_block hopening ⟨body, last, rest', rfl, nested_parseJob hjob, hlast, ih hothers⟩

/-!
The other requests have no blocks.
-/

theorem nestedLines_plain {bound : Nat} {lines : List Line}
    (h : ∀ line ∈ lines, line.mark .request = .plain)
    : NestedLines bound lines := by
  apply Nested.of_plain
  simpa using h

theorem mark_exact {line : Line} {name : String} {fields : List Field} (h : exact line [name] = some fields)
    (hname : IsDirective name)
    : line.mark .request = .plain :=
  mark_directive hname (by rw [exact_single h]; rfl)

theorem isDocument_of_parse {input : List UInt8} {document : Document}
    (h : Document.parse input .request = .ok document) {bound : Nat} (hbound : bound < 2 ^ 64)
    (hnested : NestedLines bound document.lines)
    : DocumentFramer.IsDocument .request (byteLines input) := by
  obtain ⟨raws, hlines, rfl⟩ := parse_envelope h
  exact isDocument_envelope hlines hbound hnested

theorem isDocument_submission {input : List UInt8} {request : SubmissionRequest}
    (h : SubmissionRequest.parse input = .ok request)
    : DocumentFramer.IsDocument .request (byteLines input) := by
  simp only [SubmissionRequest.parse, Except.bind_ok_iff] at h
  obtain ⟨document, hdocument, h⟩ := h
  apply isDocument_of_parse hdocument (show 2 < 2 ^ 64 by decide)
  split at h
  . cases h
  . next first rest hlines =>
    simp only [Except.bind_ok_iff, Option.okOr_eq_ok] at h
    obtain ⟨operation, hoperation, jobs, hjobs, _⟩ := h
    have hfirst : first.mark .request = .plain := by
      unfold SubmissionRequest.submitOperation at hoperation
      split at hoperation
      . next hexact =>
        exact @mark_directive first "Submit" (by decide) (by rw [fields_of_isExactly hexact]; rfl)
      . split at hoperation
        . next hexact =>
          exact @mark_directive first "Submit-Items" (by decide) (by rw [fields_of_isExactly hexact]; rfl)
        . cases hoperation
    rw [hlines]
    exact plainClosed_nested 2 first rest hfirst (nested_parseJobs hjobs)

theorem isDocument_lookup {input : List UInt8} {request : LookupSubmission}
    (h : LookupSubmission.parse input = .ok request)
    : DocumentFramer.IsDocument .request (byteLines input) := by
  have hkeys {lines : List Line} {number : Nat} {keys keys' : List String}
      (h : LookupSubmission.parseKeys lines number keys = .ok keys')
      : ∀ line ∈ lines, line.mark .request = .plain := by
    induction lines generalizing number keys with
    | nil => simp
    | cons line lines ih =>
      unfold LookupSubmission.parseKeys at h
      split at h
      . next text hexact =>
        split at h
        . rw [List.forall_mem_cons]
          exact ⟨mark_exact hexact (by decide), ih h⟩
        . cases h
      . cases h
  simp only [LookupSubmission.parse, Except.bind_ok_iff] at h
  obtain ⟨document, hdocument, h⟩ := h
  apply isDocument_of_parse hdocument (show 0 < 2 ^ 64 by decide)
  split at h
  . cases h
  . next first rest hlines =>
    split at h
    . next application hexact =>
      split at h
      . cases h
      . rw [Except.bind_ok_iff] at h
        obtain ⟨keys, hread, _⟩ := h
        rw [hlines]
        apply nestedLines_plain
        rw [List.forall_mem_cons]
        exact ⟨mark_exact hexact (by decide), hkeys hread⟩
    . cases h

theorem plain_parseReroute {jobId : String} {first : Line} {rest : List Line} {request : JobRequest}
    (h : parseReroute jobId (first :: rest) = .ok request)
    : ∀ line ∈ rest, line.mark .request = .plain := by
  have hnext {line : Line} {nextHop : NextHop} (h : rerouteNextHop line = .ok nextHop)
      : line.mark .request = .plain := by
    apply @mark_directive line "Next-Hop" (by decide)
    unfold rerouteNextHop at h
    split at h
    . next heq => rw [heq]; rfl
    . next heq => rw [heq]; rfl
    . next heq => rw [heq]; rfl
    . cases h
  have hpolicy {line : Line} {policy : FailureOverride} (h : rerouteFailurePolicy line = .ok policy)
      : line.mark .request = .plain := by
    apply @mark_directive line "Failure-Policy" (by decide)
    unfold rerouteFailurePolicy at h
    split at h
    . next heq => rw [heq]; rfl
    . next heq => rw [heq]; rfl
    . cases h
  unfold parseReroute at h
  split at h
  . next heq =>
    injection heq with _ heq
    simp only [Except.bind_ok_iff] at h
    obtain ⟨nextHop, hread, _⟩ := h
    simpa [heq] using hnext hread
  . next heq =>
    injection heq with _ heq
    simp only [Except.bind_ok_iff] at h
    obtain ⟨nextHop, hread, policy, hreadPolicy, _⟩ := h
    simpa [heq] using ⟨hnext hread, hpolicy hreadPolicy⟩
  . cases h

theorem plain_parseOperation {first : Line} {rest : List Line} {request : JobRequest}
    (h : JobRequest.parseOperation first.fields rest.isEmpty (first :: rest) = .ok request)
    : ∀ line ∈ first :: rest, line.mark .request = .plain := by
  have hplain {op : String} {fields : List Field} (hfields : first.fields = ⟨op, false⟩ :: fields)
      (hop : IsDirective op)
      : first.mark .request = .plain :=
    mark_directive hop (by rw [hfields]; rfl)
  have hsingle {op : String} {fields : List Field} (hfields : first.fields = ⟨op, false⟩ :: fields)
      (hop : IsDirective op) (hrest : rest.isEmpty = true)
      : ∀ line ∈ first :: rest, line.mark .request = .plain := by
    rw [List.isEmpty_iff] at hrest
    simpa [hrest] using hplain hfields hop
  unfold JobRequest.parseOperation at h
  split at h
  . next op id hfields =>
    split at h
    . next hguard => exact hsingle hfields (by rcases hguard.1 with rfl | rfl <;> decide) hguard.2.2
    . split at h
      . next hguard => exact hsingle hfields (by rcases hguard.1 with rfl | rfl <;> decide) hguard.2.2
      . split at h
        . next hguard =>
          rw [List.forall_mem_cons]
          exact ⟨hplain hfields (by rw [hguard.1]; decide), plain_parseReroute h⟩
        . cases h
  . next op id paths hfields =>
    split at h
    . next hguard => exact hsingle hfields (by rcases hguard.1 with rfl | rfl <;> decide) hguard.2.2.2
    . cases h
  . next op application mode hfields =>
    split at h
    . next hguard => exact hsingle hfields (by rw [hguard.1]; decide) hguard.2.2.2
    . cases h
  . next op application event hfields =>
    split at h
    . next hguard => exact hsingle hfields (by rw [hguard.1]; decide) hguard.2.2.2
    . cases h
  . cases h

theorem isDocument_job {input : List UInt8} {request : JobRequest} (h : JobRequest.parse input = .ok request)
    : DocumentFramer.IsDocument .request (byteLines input) := by
  simp only [JobRequest.parse, Except.bind_ok_iff] at h
  obtain ⟨document, hdocument, h⟩ := h
  apply isDocument_of_parse hdocument (show 0 < 2 ^ 64 by decide)
  split at h
  . cases h
  . next first rest hlines =>
    rw [hlines] at h ⊢
    exact nestedLines_plain (plain_parseOperation h)

namespace ConsumeRequest

theorem plain_oneQuoted {line : Line} {name text : String} (h : oneQuoted line name = some text)
    (hname : IsDirective name)
    : line.mark .request = .plain := by
  unfold oneQuoted at h
  split at h
  . next hexact => exact mark_exact hexact hname
  . cases h

theorem plain_unsignedLine {line : Line} {name : String} {number : Nat} {value : UInt64}
    (h : unsignedLine line name number = .ok value) (hname : IsDirective name)
    : line.mark .request = .plain := by
  unfold unsignedLine at h
  split at h
  . cases h
  . next hexact => exact mark_exact hexact hname
  . cases h

theorem plain_presentationOf {line : Line} {presentation : Presentation}
    (h : presentationOf line = .ok presentation)
    : line.mark .request = .plain := by
  unfold presentationOf at h
  split at h
  . next hexact => exact mark_exact hexact (by decide)
  . next hexact => exact mark_exact hexact (by decide)
  . cases h

theorem plain_control {operation : Line} {name : String} {ids : String × String}
    (h : control operation name = some ids) (hname : IsDirective name)
    : operation.mark .request = .plain := by
  unfold control at h
  split at h
  . next hexact => exact mark_exact hexact hname
  . cases h

theorem plain_parseClaim {application mode : String} {operation : Line} {rest : List Line}
    {request : ConsumeRequest} (h : parseClaim application mode (operation :: rest) = .ok request)
    : ∀ line ∈ rest, line.mark .request = .plain := by
  unfold parseClaim at h
  split at h
  . next heq =>
    injection heq with _ heq
    split at h
    . simp only [Except.bind_ok_iff, Option.okOr_eq_ok] at h
      obtain ⟨key, hkey, h⟩ := h
      split at h
      . cases h
      . rw [Except.bind_ok_iff] at h
        obtain ⟨presentation, hpresentation, _⟩ := h
        simpa [heq] using ⟨plain_oneQuoted hkey (by decide), plain_presentationOf hpresentation⟩
    . cases h
  . cases h

theorem plain_single {operation : Line} {rest : List Line} (h : requireLineCount (operation :: rest) 1 = .ok ())
    : ∀ line ∈ rest, line.mark .request = .plain := by
  unfold requireLineCount at h
  split at h
  . next hlength => simp [List.length_eq_zero_iff.mp (Nat.succ.inj hlength)]
  . cases h

theorem plain_parseControl {operation : Line} {rest : List Line} {request : ConsumeRequest}
    (h : parseControl operation (operation :: rest) = .ok request)
    : ∀ line ∈ operation :: rest, line.mark .request = .plain := by
  rw [List.forall_mem_cons]
  unfold parseControl at h
  split at h
  . next hcontrol =>
    rw [Except.bind_ok_iff] at h
    obtain ⟨_, hcount, _⟩ := h
    exact ⟨plain_control hcontrol (by decide), plain_single hcount⟩
  . split at h
    . next hcontrol =>
      rw [Except.bind_ok_iff] at h
      obtain ⟨_, hcount, _⟩ := h
      exact ⟨plain_control hcontrol (by decide), plain_single hcount⟩
    . split at h
      . next hcontrol =>
        rw [Except.bind_ok_iff] at h
        obtain ⟨_, hcount, _⟩ := h
        exact ⟨plain_control hcontrol (by decide), plain_single hcount⟩
      . split at h
        . next hcontrol =>
          refine ⟨plain_control hcontrol (by decide), ?_⟩
          unfold parseDefer at h
          split at h
          . next heq =>
            injection heq with _ heq
            simp only [Except.bind_ok_iff, Option.okOr_eq_ok] at h
            obtain ⟨retryAfter, hretry, description, hdescription, _⟩ := h
            simpa [heq] using ⟨plain_unsignedLine hretry (by decide), plain_oneQuoted hdescription (by decide)⟩
          . cases h
        . split at h
          . next hcontrol =>
            refine ⟨plain_control hcontrol (by decide), ?_⟩
            unfold parseReject at h
            split at h
            . next heq =>
              injection heq with _ heq
              simp only [Except.bind_ok_iff, Option.okOr_eq_ok] at h
              obtain ⟨description, hdescription, _⟩ := h
              simpa [heq] using plain_oneQuoted hdescription (by decide)
            . cases h
          . unfold parseQuery at h
            split at h
            . next hexact =>
              split at h
              . rw [Except.bind_ok_iff] at h
                obtain ⟨_, hcount, _⟩ := h
                exact ⟨mark_exact hexact (by decide), plain_single hcount⟩
              . cases h
            . cases h

end ConsumeRequest

theorem isDocument_consume {input : List UInt8} {request : ConsumeRequest}
    (h : ConsumeRequest.parse input = .ok request)
    : DocumentFramer.IsDocument .request (byteLines input) := by
  simp only [ConsumeRequest.parse, Except.bind_ok_iff] at h
  obtain ⟨document, hdocument, h⟩ := h
  apply isDocument_of_parse hdocument (show 0 < 2 ^ 64 by decide)
  split at h
  . cases h
  . next operation rest hlines =>
    rw [hlines] at h ⊢
    apply nestedLines_plain
    split at h
    . next hcapabilities =>
      simpa [hcapabilities.2] using mark_exact hcapabilities.1 (by decide)
    . split at h
      . next hexact =>
        rw [List.forall_mem_cons]
        exact ⟨mark_exact hexact (by decide), ConsumeRequest.plain_parseClaim h⟩
      . exact ConsumeRequest.plain_parseControl h

end Tith.Ipc
