import Tith.Bso.Correlate

/-!
This module contains the proof that a reference file is read again as the entries that have not been submitted, over
any number of runs, and that no text is submitted in two of them.
-/

namespace Tith

namespace Bso

open Legacy

section Text

variable {raw : List Char} {reference : Reference}

theorem trimReturns_trimReturns (raw : List Char) : trimReturns (trimReturns raw) = trimReturns raw := by
  unfold trimReturns
  rw [List.reverse_reverse, List.dropWhile_idempotent]

theorem parseReferenceLine_trimReturns (raw : List Char)
    : parseReferenceLine (trimReturns raw) = parseReferenceLine raw := by
  unfold parseReferenceLine
  rw [trimReturns_trimReturns]

theorem stripEnding_trimReturns (raw : List Char) : stripEnding (trimReturns raw ++ ['\n']) = trimReturns raw := by
  have hhead : ∀ rest, (trimReturns raw).reverse ≠ '\r' :: rest := by
    intro rest h
    have hnot := List.head?_dropWhile_not (fun c => decide (c = '\r')) raw.reverse
    unfold trimReturns at h
    rw [List.reverse_reverse] at h
    rw [h] at hnot
    simp at hnot
  unfold stripEnding
  rw [List.reverse_append, List.reverse_singleton, List.singleton_append]
  split
  . next rest h => exact absurd (List.cons.inj h).2 (hhead rest)
  . next rest _ h => rw [← (List.cons.inj h).2, List.reverse_reverse]
  . next h => exact absurd rfl (h _)

theorem entry_written (h : entry raw = some reference) : entry (reference.line ++ ['\n']) = some reference := by
  unfold entry at h ⊢
  rw [line_parseReferenceLine h, stripEnding_trimReturns, parseReferenceLine_trimReturns, h]

theorem mem_of_stripEnding {c : Char} (h : c ∈ stripEnding raw) : c ∈ raw := by
  unfold stripEnding at h
  split at h
  . next rest heq =>
    rw [← List.mem_reverse, heq]
    simp_all
  . next rest _ heq =>
    rw [← List.mem_reverse, heq]
    simp_all
  . exact h

theorem mem_of_trimReturns {c : Char} (h : c ∈ trimReturns raw) : c ∈ raw := by
  unfold trimReturns at h
  rw [List.mem_reverse] at h
  exact List.mem_reverse.mp ((List.dropWhile_suffix _).subset h)

theorem not_mem_stripEnding_of_fed {body : List Char} (h : '\n' ∉ body) : '\n' ∉ stripEnding (body ++ ['\n']) := by
  unfold stripEnding
  rw [List.reverse_append, List.reverse_singleton, List.singleton_append]
  split
  . next rest heq =>
    intro hmem
    apply h
    rw [← List.mem_reverse, (List.cons.inj heq).2]
    exact List.mem_cons_of_mem _ (List.mem_reverse.mp hmem)
  . next rest _ heq =>
    intro hmem
    apply h
    rw [← List.mem_reverse, (List.cons.inj heq).2]
    exact List.mem_reverse.mp hmem
  . next heq => exact absurd rfl (heq _)

theorem feed_not_mem_line {raws : List (List Char)} (hraws : RawLines raws) (hmem : raw ∈ raws)
    (h : entry raw = some reference)
    : '\n' ∉ reference.line := by
  rw [line_parseReferenceLine h]
  intro hfeed
  have hfeed := mem_of_trimReturns hfeed
  induction hraws with
  | nil => cases hmem
  | last body hne hbody =>
    rw [List.mem_singleton] at hmem
    subst hmem
    exact hbody (mem_of_stripEnding hfeed)
  | cons body raws hbody _ ih =>
    rcases List.mem_cons.mp hmem with rfl | hmem
    . exact not_mem_stripEnding_of_fed hbody hfeed
    . exact ih hmem

theorem rawLines_append {body rest : List Char} (h : '\n' ∉ body)
    : rawLines (body ++ '\n' :: rest) = (body ++ ['\n']) :: rawLines rest := by
  induction body with
  | nil => simp [rawLines]
  | cons c body ih =>
    rw [List.mem_cons, not_or] at h
    rw [List.cons_append, rawLines, if_neg (Ne.symm h.1), ih h.2]
    rfl

theorem rawLines_written {texts : List (List Char)} (h : ∀ text ∈ texts, '\n' ∉ text)
    : rawLines (texts.flatMap (· ++ ['\n'])) = texts.map (· ++ ['\n']) := by
  induction texts with
  | nil => rfl
  | cons text texts ih =>
    rw [List.forall_mem_cons] at h
    rw [List.flatMap_cons, List.append_assoc, List.singleton_append, rawLines_append h.1, ih h.2, List.map_cons]

theorem parseReference_retire (contents : List Char) (consumed : List (List Char))
    : parseReference ((retire contents consumed).getD []) =
        (parseReference contents).filter (fun reference => reference.line ∉ consumed) := by
  unfold retire
  split
  . next h => simp [h]
  . have hentries : ∀ reference ∈ parseReference contents,
        '\n' ∉ reference.line ∧ entry (reference.line ++ ['\n']) = some reference := by
      intro reference hreference
      rw [parseReference_eq, List.mem_filterMap] at hreference
      obtain ⟨raw, hraw, hentry⟩ := hreference
      exact ⟨feed_not_mem_line (rawLines_rawLines contents) hraw hentry, entry_written hentry⟩
    generalize parseReference contents = references at hentries ⊢
    rw [getD_rewriteReference, parseReference_eq, rawLines_written, List.filterMap_map, List.filter_map,
      List.filterMap_map]
    . rw [List.filterMap_congr (g := some), List.filterMap_some]
      . rfl
      . intro reference hreference
        exact (hentries reference (List.mem_of_mem_filter hreference)).2
    . intro text htext
      obtain ⟨reference, hreference, rfl⟩ := List.mem_map.mp (List.mem_of_mem_filter htext)
      exact (hentries reference hreference).1

end Text

/-!
Runs. Each sweep finds the file as the one before has left it.
-/

/--
One sweep over a reference file: with the messages of a packet, or alone.
-/
inductive Sweep where
  | packet (messages : List PackedMessage) (tic : Reference → Option (List Char)) (style : AttachStyle)
      (submits : CorrelatedMessage → Nat → Bool) (sends : List Reference → Bool)
  | lone (tic : Reference → Option (List Char)) (style : AttachStyle) (sends : List Reference → Bool)

/--
The texts of the entries that a sweep submits.
-/
def Sweep.consumed (sweep : Sweep) (references : List Reference) : List (List Char) :=
  match sweep with
  | .packet messages tic style submits sends =>
    consumedTexts (correlate messages references tic style) submits sends
  | .lone tic style sends => unclaimedEntries (correlate [] references tic style) sends

/--
The daemon accepts the text in a sweep that finds these entries: with the message that has claimed it, or among the
entries that no message has claimed.
-/
def Sweep.Accepts (sweep : Sweep) (references : List Reference) (text : List Char) : Prop :=
  match sweep with
  | .packet messages tic style submits sends =>
    let correlation := correlate messages references tic style
    (∃ place owned, correlation.messages[place]? = some owned ∧ submits owned place = true ∧
        text ∈ owned.consumed) ∨
      sends correlation.unclaimed = true ∧ ∃ reference ∈ correlation.unclaimed, reference.line = text
  | .lone tic style sends =>
    let correlation := correlate [] references tic style
    sends correlation.unclaimed = true ∧ ∃ reference ∈ correlation.unclaimed, reference.line = text

/--
What is left of the file. There is none once everything has been submitted.
-/
def Sweep.run (sweep : Sweep) (file : Option (List Char)) : Option (List Char) :=
  match sweep with
  | .packet messages tic style submits sends => (Bso.packet messages file tic style submits sends).reference
  | .lone tic style sends => file.bind (fun contents => loneReference contents tic style sends)

def entries (file : Option (List Char)) : List Reference := parseReference (file.getD [])

/--
The file behind the sweeps, and what each of them has submitted.
-/
def sweeps (file : Option (List Char)) (steps : List Sweep) : Option (List Char) × List (List (List Char)) :=
  match steps with
  | [] => (file, [])
  | step :: steps =>
    let rest := sweeps (step.run file) steps
    (rest.1, step.consumed (entries file) :: rest.2)

section Sweep

variable {references : List Reference} {tic : Reference → Option (List Char)} {style : AttachStyle}

theorem mem_unclaimedEntries {messages : List PackedMessage} {sends : List Reference → Bool} {text : List Char}
    (h : text ∈ unclaimedEntries (correlate messages references tic style) sends)
    : ∃ reference ∈ references, reference.line = text := by
  obtain ⟨⟨slots, left, haccounts⟩, -⟩ := correlate_accounts messages references tic style
  have hmem : ∀ reference ∈ (correlate messages references tic style).unclaimed, reference ∈ references := by
    intro reference hreference
    have hleft := haccounts.left.subset (List.mem_append_right _ hreference)
    have hall := (haccounts.order.map Prod.fst).subset hleft
    rwa [List.zipIdx_map_fst] at hall
  unfold unclaimedEntries at h
  split at h
  . cases h
  . split at h
    . obtain ⟨reference, hreference, rfl⟩ := List.mem_map.mp h
      exact ⟨reference, hmem reference hreference, rfl⟩
    . cases h

theorem mem_unclaimedEntries_iff {correlation : Correlation} {sends : List Reference → Bool} {text : List Char}
    : text ∈ unclaimedEntries correlation sends ↔
        sends correlation.unclaimed = true ∧ ∃ reference ∈ correlation.unclaimed, reference.line = text := by
  unfold unclaimedEntries
  split
  . next hnone => simp [hnone]
  . split
    . next hsends => simp [hsends]
    . next hsends => simp [hsends]

theorem Sweep.mem_consumed (sweep : Sweep) {text : List Char}
    : text ∈ sweep.consumed references ↔ sweep.Accepts references text := by
  cases sweep with
  | lone tic style sends => exact mem_unclaimedEntries_iff
  | packet messages tic style submits sends =>
    unfold Sweep.consumed Sweep.Accepts consumedTexts
    dsimp only
    rw [List.mem_append, mem_unclaimedEntries_iff, List.mem_flatMap]
    apply or_congr_left
    constructor
    . rintro ⟨⟨owned, place⟩, howned, htext⟩
      obtain ⟨hmem, hsubmits⟩ := List.mem_filter.mp howned
      exact ⟨place, owned, List.mem_zipIdx_iff_getElem?.mp hmem, hsubmits, htext⟩
    . rintro ⟨place, owned, hget, hsubmits, htext⟩
      exact ⟨(owned, place), List.mem_filter.mpr ⟨List.mem_zipIdx_iff_getElem?.mpr hget, hsubmits⟩, htext⟩

theorem Sweep.consumed_subset (sweep : Sweep) {text : List Char} (h : text ∈ sweep.consumed references)
    : ∃ reference ∈ references, reference.line = text := by
  -- A sweep submits entries of the file only.
  cases sweep with
  | lone tic style sends => exact mem_unclaimedEntries h
  | packet messages tic style submits sends =>
    obtain ⟨⟨slots, left, haccounts⟩, -⟩ := correlate_accounts messages references tic style
    rcases List.mem_append.mp h with h | h
    . obtain ⟨⟨owned, place⟩, howned, htext⟩ := List.mem_flatMap.mp h
      have hmem := List.fst_mem_of_mem_zipIdx (List.mem_of_mem_filter howned)
      obtain ⟨group, hgroup, -, hconsumed, -⟩ := List.forall₂_mem_left haccounts.claims hmem
      dsimp only at htext
      rw [hconsumed, List.mem_map] at htext
      obtain ⟨entry, hentry, rfl⟩ := htext
      rw [List.reduceOption_mem_iff] at hentry
      have htaken := List.reduceOption_mem_iff.mpr (List.mem_flatten.mpr ⟨group, hgroup, hentry⟩)
      have hall := haccounts.partition.subset (List.mem_append_left _ htaken)
      exact ⟨entry.1, List.fst_mem_of_mem_zipIdx hall, rfl⟩
    . exact mem_unclaimedEntries h

end Sweep

theorem entries_run (sweep : Sweep) (file : Option (List Char))
    : entries (sweep.run file) =
        (entries file).filter (fun reference => reference.line ∉ sweep.consumed (entries file)) := by
  cases file with
  | none =>
    cases sweep with
    | packet => rfl
    | lone => rfl
  | some contents =>
    cases sweep with
    | packet messages tic style submits sends => exact parseReference_retire contents _
    | lone tic style sends => exact parseReference_retire contents _

/--
Over any sweeps: the entries of the file are in the end those whose texts no sweep has submitted, in their order. What
a sweep submits is what the daemon accepts of the entries that it finds. It was in the file, and no later sweep submits
the same text.
-/
theorem sweeps_account (file : Option (List Char)) (steps : List Sweep)
    : entries (sweeps file steps).1 =
          (entries file).filter (fun reference => ∀ consumed ∈ (sweeps file steps).2, reference.line ∉ consumed) ∧
        (∀ consumed ∈ (sweeps file steps).2, ∀ text ∈ consumed, ∃ reference ∈ entries file, reference.line = text) ∧
        List.Pairwise List.Disjoint (sweeps file steps).2 ∧
        (sweeps file steps).2.length = steps.length ∧
        ∀ (n : Nat) step consumed, steps[n]? = some step → (sweeps file steps).2[n]? = some consumed →
          ∀ text, text ∈ consumed ↔ step.Accepts (entries (sweeps file (steps.take n)).1) text := by
  induction steps generalizing file with
  | nil => simp [sweeps]
  | cons step steps ih =>
    obtain ⟨hentries, hsubset, hdisjoint, hlength, haccepted⟩ := ih (step.run file)
    rw [entries_run] at hentries hsubset
    refine ⟨?_, ?_, ?_, congrArg Nat.succ hlength, ?_⟩
    . unfold sweeps
      dsimp only
      rw [hentries, List.filter_filter]
      congr 1
      funext reference
      rw [Bool.eq_iff_iff]
      simp [and_comm]
    . unfold sweeps
      rw [List.forall_mem_cons]
      constructor
      . intro text htext
        exact step.consumed_subset htext
      . intro consumed hconsumed text htext
        obtain ⟨reference, hreference, hline⟩ := hsubset consumed hconsumed text htext
        exact ⟨reference, List.mem_of_mem_filter hreference, hline⟩
    . unfold sweeps
      rw [List.pairwise_cons]
      refine ⟨?_, hdisjoint⟩
      intro consumed hconsumed text htext hagain
      obtain ⟨reference, hreference, rfl⟩ := hsubset consumed hconsumed text hagain
      have hnot := (List.mem_filter.mp hreference).2
      rw [decide_eq_true_eq] at hnot
      exact hnot htext
    . intro n step' consumed hstep hconsumed text
      unfold sweeps at hconsumed
      cases n with
      | zero =>
        cases hstep
        cases hconsumed
        exact step.mem_consumed
      | succ n => exact haccepted n step' consumed hstep hconsumed text

end Bso

end Tith
