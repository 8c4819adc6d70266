import Tith.Ipc.Results
import Tith.Store.Identifiers

/-!
This module contains that every result document is framed at its end: its unquoted fields are words and its
blocks are nested.
-/

namespace Tith.Ipc

/-!
Words.
-/

theorem IsWord.of_forall {text : List Char} (hne : text ≠ []) {p : Char → Bool}
    (htext : ∀ c ∈ text, p c = true) (hp : ∀ c, p c = true → IsWord [c])
    : IsWord text := by
  refine ⟨hne, ?_⟩
  intro c hc
  exact (hp c (htext c hc)).2 c (by simp)

theorem isWord_digit {c : Char} (h : c.isDigit = true) : IsWord [c] := by
  simp only [Char.isDigit, Bool.and_eq_true, decide_eq_true_eq, ge_iff_le, UInt32.le_iff_toNat_le] at h
  have hlow : 48 ≤ c.toNat := h.1
  have hhigh : c.toNat ≤ 57 := h.2
  have hne (d : Char) (hd : d.toNat < 48 ∨ 57 < d.toNat) : c ≠ d := by
    rintro rfl
    omega
  refine ⟨by simp, ?_⟩
  intro d hd
  rw [List.mem_singleton] at hd
  subst hd
  refine ⟨by omega, hne _ (by decide), hne _ (by decide), hne _ (by decide), ?_⟩
  simp only [Text.isControl]
  simp
  omega

theorem isWord_decimal (n : Nat) : IsWord (decimal n).toList := by
  rw [decimal, String.toList_ofList]
  apply IsWord.of_forall (Nat.toDigits_ne_nil) (p := Char.isDigit) _ (fun _ => isWord_digit)
  intro c hc
  exact Nat.isDigit_of_mem_toDigits (by decide) (by decide) hc

theorem isWord_digitChar {n : Nat} (h : n < 16) : IsWord [Nat.digitChar n] := by
  interval_cases n <;> decide

theorem isWord_identifier {kind : Char} {text : String} (h : IsIdentifier kind text) (hkind : IsWord [kind])
    : IsWord text.toList := by
  obtain ⟨bytes, rfl⟩ := h
  rw [identifierOf, String.toList_ofList]
  refine ⟨by simp, ?_⟩
  simp only [List.mem_flatMap, hexDigits, List.mem_cons, List.not_mem_nil, or_false]
  rintro c (rfl | ⟨byte, _, rfl | rfl⟩)
  . exact hkind.2 c (by simp)
  . have hbyte := byte.toNat_lt
    have hhigh : byte.toNat / 16 < 16 := by omega
    exact (isWord_digitChar hhigh).2 _ (List.mem_singleton_self _)
  . have hlow : byte.toNat % 16 < 16 := by omega
    exact (isWord_digitChar hlow).2 _ (List.mem_singleton_self _)

theorem isWord_jobStateName (value : JobState) : IsWord (jobStateName value).toList := by
  cases value <;> decide

theorem isWord_stateName (value : InboundState) : IsWord (stateName value).toList := by
  cases value <;> decide

theorem isWord_kindName (value : StoredKind) : IsWord (kindName value).toList := by
  cases value <;> decide

theorem isWord_jobKindName (value : JobKind) : IsWord (jobKindName value).toList := by
  cases value <;> decide

theorem isWord_authName (value : ItemAuthentication) : IsWord (authName value).toList := by
  cases value <;> decide

theorem isWord_cleanupName (value : CleanupState) : IsWord (cleanupName value).toList := by
  cases value <;> decide

theorem isWord_sourceKindName (value : SourceKind) : IsWord (sourceKindName value).toList := by
  cases value <;> decide

theorem isWord_modeName (value : DeliveryMode) : IsWord (modeName value).toList := by
  cases value <;> decide

theorem isWord_dispositionName (value : FailureDisposition) : IsWord (dispositionName value).toList := by
  cases value <;> decide

theorem isWord_notificationName (value : FailureNotification) : IsWord (notificationName value).toList := by
  cases value <;> decide

/-!
Lines.
-/

@[simp]
theorem quoted_wellFormed (text : String) : (quoted text).WellFormed := by
  simp [quoted, Field.WellFormed]

@[simp]
theorem unquoted_wellFormed {text : String} : (unquoted text).WellFormed ↔ IsWord text.toList := by
  simp [unquoted, Field.WellFormed]

/--
The names of lines that open and close no block of a result.
-/
def IsLabel (name : String) : Prop :=
  IsWord name.toList ∧ name ≠ "End" ∧ name ≠ "Event" ∧ name ≠ "Delivery"

instance (name : String) : Decidable (IsLabel name) := inferInstanceAs (Decidable (_ ∧ _ ∧ _ ∧ _))

/--
A line that may stand anywhere in a result.
-/
structure Plain (line : Line) : Prop where
  wellFormed : line.WellFormed
  mark : line.mark .result = .plain

theorem plain_line {name : String} {fields : List Field} (hname : IsLabel name)
    (hfields : ∀ field ∈ fields, field.WellFormed)
    : Plain ⟨unquoted name :: fields⟩ := by
  obtain ⟨hword, hend, hevent, hdelivery⟩ := hname
  refine ⟨⟨by simp, ?_⟩, by simp [Line.mark, Line.opens, unquoted, hend, hevent, hdelivery]⟩
  rw [List.forall_mem_cons]
  exact ⟨unquoted_wellFormed.mpr hword, hfields⟩

/--
Lines of a result in which every block that is opened is closed.
-/
structure Blocks (lines : List Line) : Prop where
  wellFormed : ∀ line ∈ lines, line.WellFormed
  nested : Nested 1 (lines.map (Line.mark .result))

namespace Blocks

theorem of_plain {lines : List Line} (h : ∀ line ∈ lines, Plain line) : Blocks lines := by
  refine ⟨fun line hline => (h line hline).wellFormed, Nested.of_plain ?_⟩
  simp only [List.mem_map]
  rintro mark ⟨line, hline, rfl⟩
  exact (h line hline).mark

theorem append {lines lines' : List Line} (h : Blocks lines) (h' : Blocks lines') : Blocks (lines ++ lines') := by
  refine ⟨?_, ?_⟩
  . simp only [List.forall_mem_append]
    exact ⟨h.wellFormed, h'.wellFormed⟩
  . rw [List.map_append]
    exact h.nested.append h'.nested

theorem flatMap {xs : List α} {f : α → List Line} (h : ∀ x ∈ xs, Blocks (f x)) : Blocks (xs.flatMap f) := by
  induction xs with
  | nil => exact of_plain (by simp)
  | cons x xs ih =>
    rw [List.forall_mem_cons] at h
    rw [List.flatMap_cons]
    exact h.1.append (ih h.2)

theorem block {opening : Line} {inner : List Line} (hopening : opening.WellFormed)
    (hmark : opening.mark .result = .opening) (hinner : ∀ line ∈ inner, Plain line)
    : Blocks (opening :: (inner ++ [⟨[unquoted "End"]⟩])) := by
  have hend : Line.mark .result ⟨[unquoted "End"]⟩ = .closing := by simp [Line.mark]
  refine ⟨?_, ?_⟩
  . simp only [List.forall_mem_cons, List.forall_mem_append]
    exact ⟨hopening, fun line hline => (hinner line hline).wellFormed, by decide, by simp⟩
  . rw [List.map_cons, List.map_append, hmark, List.map_singleton, hend]
    apply Nested.block _ (.nil 1)
    apply Nested.of_plain
    simp only [List.mem_map]
    rintro mark ⟨line, hline, rfl⟩
    exact (hinner line hline).mark

end Blocks

/--
What a reader of a stream of results needs of a result.
-/
def Framed (bytes : List UInt8) : Prop := DocumentFramer.IsDocument .result (byteLines bytes)

theorem framed_result {lines : List Line} (h : Blocks lines) : Framed (result lines) := by
  obtain ⟨raws, hspells, hbytes⟩ := @encode_envelope ⟨.result, lines⟩ h.wellFormed
  unfold Framed result
  rw [hbytes]
  exact isDocument_envelope hspells (show 1 < 2 ^ 64 by decide) h.nested

/-!
Results.
-/

theorem framed_operationResult {operation : String} {values : List String} (hoperation : IsLabel operation)
    (hvalues : ∀ value ∈ values, IsWord value.toList)
    : Framed (operationResult operation values) := by
  apply framed_result
  apply Blocks.of_plain
  rw [List.forall_mem_singleton]
  apply plain_line hoperation
  simp only [List.mem_map]
  rintro field ⟨value, hvalue, rfl⟩
  exact unquoted_wellFormed.mpr (hvalues value hvalue)

theorem framed_errorResult {kind : String} (hkind : IsWord kind.toList) (description : String)
    : Framed (errorResult kind description) := by
  apply framed_result
  apply Blocks.of_plain
  rw [List.forall_mem_singleton]
  exact plain_line (by decide) (by simp [hkind])

theorem framed_controlResult {operation : String} (hoperation : IsLabel operation) (outcome : ControlOutcome)
    : Framed (controlResult operation outcome) := by
  unfold controlResult
  cases outcome with
  | completed state => exact framed_operationResult hoperation (by simp [isWord_jobStateName]; decide)
  | busy state => exact framed_operationResult hoperation (by simp [isWord_jobStateName]; decide)
  | notPermitted state => exact framed_operationResult hoperation (by simp [isWord_jobStateName]; decide)

theorem plain_failureLine {kind : String} (hkind : IsWord kind.toList) (position : Nat) (description : String)
    : Plain (failureLine position kind description) :=
  plain_line (by decide) (by simp [isWord_decimal, hkind])

theorem framed_submitNotCommitted {operation : String} {failures : List Line} (hoperation : IsLabel operation)
    (hfailures : ∀ line ∈ failures, Plain line)
    : Framed (submitNotCommitted operation failures) := by
  apply framed_result
  apply Blocks.of_plain
  rw [List.forall_mem_cons]
  exact ⟨plain_line hoperation (by simp; decide), hfailures⟩

theorem framed_submitFailure {operation kind : String} (hoperation : IsLabel operation)
    (hkind : IsWord kind.toList) (position : Nat) (description : String)
    : Framed (submitFailure operation position kind description) := by
  apply framed_submitNotCommitted hoperation
  rw [List.forall_mem_singleton]
  exact plain_failureLine hkind position description

/--
The identifier of the job of an outcome.
-/
def CommitOutcome.jobId (outcome : CommitOutcome) : String :=
  match outcome with
  | .new jobId _ => jobId
  | .existing jobId _ => jobId

theorem framed_submitCommitted {operation : String} {outcomes : List CommitOutcome}
    (hoperation : IsLabel operation)
    (houtcomes : ∀ outcome ∈ outcomes, IsIdentifier 'J' (CommitOutcome.jobId outcome))
    : Framed (submitCommitted operation outcomes) := by
  apply framed_result
  apply Blocks.of_plain
  rw [List.forall_mem_cons]
  refine ⟨plain_line hoperation (by simp; decide), ?_⟩
  simp only [List.mem_map, Prod.exists]
  rintro line ⟨outcome, index, hmem, rfl⟩
  have hword := isWord_identifier (houtcomes outcome (List.fst_mem_of_mem_zipIdx hmem)) (by decide)
  cases outcome with
  | new jobId state =>
    exact plain_line (by decide) (by
      simp only [CommitOutcome.jobId] at hword
      simp [isWord_decimal, isWord_jobStateName, hword]
      decide)
  | existing jobId state =>
    exact plain_line (by decide) (by
      simp only [CommitOutcome.jobId] at hword
      simp [isWord_decimal, isWord_jobStateName, hword]
      decide)

theorem framed_lookupResult {values : List SubmissionLookup}
    (hvalues : ∀ jobId state, .existing jobId state ∈ values → IsIdentifier 'J' jobId)
    : Framed (lookupResult values) := by
  apply framed_result
  apply Blocks.of_plain
  rw [List.forall_mem_cons]
  refine ⟨plain_line (by decide) (by simp; decide), ?_⟩
  simp only [List.mem_map, Prod.exists]
  rintro line ⟨value, index, hmem, rfl⟩
  cases value with
  | existing jobId state =>
    have hword := isWord_identifier (hvalues jobId state (List.fst_mem_of_mem_zipIdx hmem)) (by decide)
    exact plain_line (by decide) (by
      simp [isWord_decimal, isWord_jobStateName, hword]
      decide)
  | notFound =>
    exact plain_line (by decide) (by
      simp [isWord_decimal]
      decide)

theorem framed_capabilities (operations features : List String) : Framed (capabilities operations features) := by
  apply framed_result
  apply Blocks.of_plain
  rw [List.forall_mem_cons]
  refine ⟨plain_line (by decide) (by simp; decide), ?_⟩
  simp only [List.mem_append, List.mem_map]
  rintro line (⟨value, _, rfl⟩ | ⟨value, _, rfl⟩)
  . exact plain_line (by decide) (by simp)
  . exact plain_line (by decide) (by simp)

theorem framed_eventsResult {events : List OutboundEvent}
    (hevents : ∀ event ∈ events, IsIdentifier 'J' event.jobId)
    : Framed (eventsResult events) := by
  apply framed_result
  refine (@Blocks.of_plain [_] ?_).append (Blocks.flatMap ?_)
  . rw [List.forall_mem_singleton]
    exact plain_line (by decide) (by simp; decide)
  . intro event hevent
    have hword := isWord_identifier (hevents event hevent) (by decide)
    have hprevious : IsWord (event.previous.elim "None" jobStateName).toList := by
      cases event.previous with
      | none => decide
      | some state => exact isWord_jobStateName state
    let inner : List Line :=
      [⟨[unquoted "Event-ID", quoted event.eventId]⟩, ⟨[unquoted "Job", unquoted event.jobId]⟩,
        ⟨[unquoted "Previous", unquoted (event.previous.elim "None" jobStateName)]⟩,
        ⟨[unquoted "Current", unquoted (jobStateName event.current)]⟩,
        ⟨[unquoted "Changed", unquoted (decimal event.changed.toNat)]⟩,
        ⟨[unquoted "Last-Result", quoted event.lastResult]⟩]
    apply @Blocks.block _ inner (by decide) (by simp [Line.mark, Line.opens, unquoted])
    simp only [inner, List.forall_mem_cons]
    exact ⟨plain_line (by decide) (by simp), plain_line (by decide) (by simpa using hword),
      plain_line (by decide) (by simpa using hprevious),
      plain_line (by decide) (by simp [isWord_jobStateName]),
      plain_line (by decide) (by simp [isWord_decimal]), plain_line (by decide) (by simp), by simp⟩

theorem plain_policyLine {kind : String} (hkind : IsWord kind.toList) (policy : FailurePolicy)
    : Plain (policyLine kind policy) :=
  plain_line (by decide) (by
    simp [hkind, isWord_dispositionName, isWord_notificationName]
    decide)

theorem plain_deliveryLines (copy : DeliveryRecord) : ∀ line ∈ deliveryLines copy, Plain line := by
  have hpolicies (policies : List FailurePolicy)
      : ∀ line ∈ List.zipWith policyLine ["Relay-Denied", "Rejected"] policies, Plain line := by
    intro line hline
    rw [← List.map_uncurry_zip_eq_zipWith, List.mem_map] at hline
    obtain ⟨⟨kind, policy⟩, hmem, rfl⟩ := hline
    have hkinds : ∀ kind ∈ ["Relay-Denied", "Rejected"], IsWord kind.toList := by decide
    exact plain_policyLine (hkinds kind (List.of_mem_zip hmem).1) policy
  unfold deliveryLines
  simp only [List.forall_mem_append, List.forall_mem_cons]
  exact ⟨⟨plain_line (by decide) (by simp [isWord_modeName]), plain_line (by decide) (by simp), by simp⟩,
    hpolicies _⟩

theorem blocks_deliveryBlock (copy : DeliveryRecord) : Blocks (deliveryBlock copy) := by
  apply Blocks.block _ (by simp [Line.mark, Line.opens, unquoted])
  . simp only [List.forall_mem_append, List.forall_mem_cons]
    exact ⟨plain_deliveryLines copy, plain_line (by decide) (by simp [isWord_decimal]),
      plain_line (by decide) (by simp), by simp⟩
  . refine ⟨by simp, ?_⟩
    simp [isWord_decimal, isWord_jobStateName]
    decide

theorem plain_progressLines (job : OutboundJob) : ∀ line ∈ progressLines job, Plain line := by
  unfold progressLines
  simp only [List.forall_mem_cons]
  exact ⟨plain_line (by decide) (by simp [isWord_decimal]), plain_line (by decide) (by simp [isWord_decimal]),
    plain_line (by decide) (by simp [isWord_decimal]), plain_line (by decide) (by simp), by simp⟩

theorem plain_sourcePathLines (paths : Bool) (job : OutboundJob)
    : ∀ line ∈ sourcePathLines paths job, Plain line := by
  unfold sourcePathLines
  split
  . intro line hline
    rw [List.mem_filterMap] at hline
    obtain ⟨source, _, hpath⟩ := hline
    rw [Option.map_eq_some_iff] at hpath
    obtain ⟨path, _, rfl⟩ := hpath
    exact plain_line (by decide) (by simp [isWord_decimal])
  . simp

theorem framed_outboundQueryResult {job : OutboundJob} {itemAware paths : Bool} {bytes : List UInt8}
    (hjob : IsIdentifier 'J' job.jobId) (h : outboundQueryResult job itemAware paths = some bytes)
    : Framed bytes := by
  have hword := isWord_identifier hjob (by decide)
  have hfirst {operation : String} (hoperation : IsLabel operation)
      : ∀ line ∈ ([⟨[unquoted operation, unquoted "Completed"]⟩,
          ⟨[unquoted "Job", unquoted job.jobId, unquoted (jobStateName job.state)]⟩,
          ⟨[unquoted "Application", quoted job.application.name]⟩] : List Line), Plain line := by
    simp only [List.forall_mem_cons]
    exact ⟨plain_line hoperation (by simp; decide),
      plain_line (by decide) (by simp [hword, isWord_jobStateName]), plain_line (by decide) (by simp), by simp⟩
  have htarget : Plain (targetLine job.target) := by
    cases job.target with
    | destination value => exact plain_line (by decide) (by simp)
    | area value => exact plain_line (by decide) (by simp)
  unfold outboundQueryResult at h
  dsimp only at h
  split at h
  . injection h with h
    rw [← h]
    apply framed_result
    refine (((((Blocks.of_plain (hfirst (by decide))).append (Blocks.of_plain ?_)).append
      (Blocks.of_plain (plain_progressLines job))).append
      (Blocks.flatMap (fun copy _ => blocks_deliveryBlock copy))).append (Blocks.of_plain ?_)).append
      (Blocks.of_plain (plain_sourcePathLines paths job))
    . simp only [List.forall_mem_cons]
      exact ⟨plain_line (by decide) (by simp [isWord_jobKindName]), plain_line (by decide) (by simp), htarget,
        by simp⟩
    . simp only [List.forall_mem_map]
      intro source _
      exact plain_line (by decide) (by simp [isWord_decimal, isWord_sourceKindName, isWord_cleanupName])
  . split at h
    . next copy _ value _ _ =>
      injection h with h
      rw [← h]
      apply framed_result
      apply Blocks.of_plain
      simp only [List.forall_mem_append, List.forall_mem_map]
      refine ⟨⟨⟨⟨⟨hfirst (by decide), ?_⟩, plain_deliveryLines copy⟩, plain_progressLines job⟩, ?_⟩,
        plain_sourcePathLines paths job⟩
      . simp only [List.forall_mem_cons]
        exact ⟨plain_line (by decide) (by simp), plain_line (by decide) (by simp), by simp⟩
      . intro source _
        exact plain_line (by decide) (by simp [isWord_decimal, isWord_cleanupName])
    . cases h

theorem plain_forwardJobLines {record : InboundRecord}
    (hforward : ∀ jobId, record.forwardJob = some jobId → IsIdentifier 'J' jobId)
    : ∀ line ∈ forwardJobLines record, Plain line := by
  unfold forwardJobLines
  split
  . simp
  . next jobId hjob =>
    rw [List.forall_mem_singleton]
    exact plain_line (by decide) (by simpa using isWord_identifier (hforward jobId hjob) (by decide))

theorem plain_payloadLines (base64 : Nodelist.Base64) (record : InboundRecord)
    : ∀ line ∈ payloadLines base64 record, Plain line := by
  unfold payloadLines
  simp only [List.forall_mem_cons]
  exact ⟨plain_line (by decide) (by simp [isWord_decimal]), plain_line (by decide) (by simp), by simp⟩

theorem plain_arrivalLines (base64 : Nodelist.Base64) (record : InboundRecord)
    : ∀ line ∈ arrivalLines base64 record, Plain line := by
  unfold arrivalLines
  simp only [List.forall_mem_cons]
  exact ⟨plain_line (by decide) (by simp [isWord_kindName]), plain_line (by decide) (by simp),
    plain_line (by decide) (by simp), plain_line (by decide) (by simp),
    plain_line (by decide) (by simp [isWord_authName]), plain_line (by decide) (by simp [isWord_decimal]),
    by simp⟩

theorem framed_claimResult (base64 : Nodelist.Base64) {claim : Claim} (hrecord : IdentifiedRecord claim.record.inboundId claim.record)
    (htoken : IsIdentifier 'C' claim.claimToken) (path : String)
    : Framed (claimResult base64 claim path) := by
  have hid := isWord_identifier hrecord.id (by decide)
  have htoken := isWord_identifier htoken (by decide)
  apply framed_result
  apply Blocks.of_plain
  simp only [List.forall_mem_append, List.forall_mem_singleton]
  refine ⟨⟨⟨⟨?_, plain_arrivalLines _ _⟩, plain_payloadLines _ _⟩, plain_forwardJobLines hrecord.forwardJob⟩,
    plain_line (by decide) (by simp)⟩
  simp only [List.forall_mem_cons]
  exact ⟨plain_line (by decide) (by simp; decide), plain_line (by decide) (by simp [hid]; decide),
    plain_line (by decide) (by simp [htoken]), plain_line (by decide) (by simp [isWord_decimal]), by simp⟩

theorem framed_queryResult (base64 : Nodelist.Base64) {record : InboundRecord} (hrecord : IdentifiedRecord record.inboundId record)
    : Framed (queryResult base64 record) := by
  have hid := isWord_identifier hrecord.id (by decide)
  apply framed_result
  apply Blocks.of_plain
  simp only [List.forall_mem_append, List.forall_mem_map]
  refine ⟨⟨⟨⟨⟨⟨?_, plain_arrivalLines _ _⟩, ?_⟩, ?_⟩, plain_payloadLines _ _⟩, ?_⟩,
    plain_forwardJobLines hrecord.forwardJob⟩
  . simp only [List.forall_mem_cons]
    exact ⟨plain_line (by decide) (by simp; decide), plain_line (by decide) (by simp [hid, isWord_stateName]),
      plain_line (by decide) (by simp), by simp⟩
  . simp only [List.forall_mem_cons]
    exact ⟨plain_line (by decide) (by simp [isWord_decimal]),
      plain_line (by decide) (by simp [isWord_decimal]), by simp⟩
  . intro expires _
    exact plain_line (by decide) (by simp [isWord_decimal])
  . intro value _
    exact plain_line (by decide) (by simp)

end Tith.Ipc
