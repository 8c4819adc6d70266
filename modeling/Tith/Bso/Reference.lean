import Tith.Legacy.Packet

/-!
This module contains the reference files of an outbound: which entries one has, and what is written back when some
of them have been submitted.
-/

namespace Tith

namespace Bso

open Legacy

/--
An entry with its text, as it stood in the file up to the end of its line.
-/
structure Reference where
  name : List Char
  disposition : Disposition
  line : List Char
  deriving DecidableEq, Repr

/--
The lines of a text, each with what ends it.
-/
def rawLines (contents : List Char) : List (List Char) :=
  match contents with
  | [] => []
  | c :: rest =>
    if c = '\n' then
      [c] :: rawLines rest
    else
      match rawLines rest with
      | [] => [[c]]
      | line :: lines => (c :: line) :: lines

/--
A line without the line feed, and the carriage return in front of it, that end it.
-/
def stripEnding (raw : List Char) : List Char :=
  match raw.reverse with
  | '\n' :: '\r' :: rest => rest.reverse
  | '\n' :: rest => rest.reverse
  | _ => raw

def lines (contents : List Char) : List (List Char) := (rawLines contents).map stripEnding

def trimReturns (raw : List Char) : List Char := (raw.reverse.dropWhile (· = '\r')).reverse

def parseReferenceLine (raw : List Char) : Option Reference :=
  let line := trimReturns raw
  let named (disposition : Disposition) (name : List Char) : Option Reference :=
    if name = [] then none else some ⟨name, disposition, line⟩
  match line with
  | [] => none
  | '#' :: name => named .truncate name
  | '^' :: name => named .delete name
  | '-' :: name => named .delete name
  -- These have been processed already.
  | '~' :: _ => none
  | '!' :: _ => none
  | '@' :: name => named .keep name
  | _ => named .keep line

def parseReference (contents : List Char) : List Reference := (lines contents).filterMap parseReferenceLine

def asAttachment (reference : Reference) : Attachment := ⟨reference.name, reference.disposition⟩

/--
What becomes of the file: it is removed when nothing is kept.
-/
def rewriteReference (keep : List (List Char)) : Option (List Char) :=
  if keep = [] then none else some (keep.flatMap (· ++ ['\n']))

/--
A reference file after the entries with these texts have been submitted.
-/
def retire (contents : List Char) (consumed : List (List Char)) : Option (List Char) :=
  if consumed = [] then
    some contents
  else
    rewriteReference (((parseReference contents).map Reference.line).filter (· ∉ consumed))

/-!
Submitted entries. They are told apart by their places among the entries.
-/

def entry (raw : List Char) : Option Reference := parseReferenceLine (stripEnding raw)

/--
Which lines hold a submitted entry.
-/
def marked (taken : Nat → Bool) (raws : List (List Char)) (index : Nat) : List (List Char × Bool) :=
  match raws with
  | [] => []
  | raw :: raws =>
    match entry raw with
    | none => (raw, false) :: marked taken raws index
    | some _ => (raw, taken index) :: marked taken raws (index + 1)

/--
The texts of the submitted entries.
-/
def consumedLines (taken : Nat → Bool) (references : List Reference) : List (List Char) :=
  (references.zipIdx.filter (fun entry => taken entry.2)).map (fun entry => entry.1.line)

def remaining (taken : Nat → Bool) (contents : List Char) : List Char :=
  ((marked taken (rawLines contents) 0).filter (fun line => !line.2)).flatMap Prod.fst

theorem flatten_rawLines (contents : List Char) : (rawLines contents).flatten = contents := by
  induction contents with
  | nil => rfl
  | cons c rest ih =>
    unfold rawLines
    split
    . rw [List.flatten_cons, ih]
      rfl
    . split
      . next h =>
        rw [h] at ih
        rw [← ih]
        rfl
      . next line lines h =>
        rw [h, List.flatten_cons] at ih
        rw [List.flatten_cons, List.cons_append, ih]

/--
A line ends with the only line feed in it. The last one may lack it.
-/
inductive RawLines : List (List Char) → Prop where
  | nil : RawLines []
  | last (body : List Char) (hne : body ≠ []) (hbody : '\n' ∉ body) : RawLines [body]
  | cons (body : List Char) (raws : List (List Char)) (hbody : '\n' ∉ body) (h : RawLines raws)
    : RawLines ((body ++ ['\n']) :: raws)

theorem rawLines_rawLines (contents : List Char) : RawLines (rawLines contents) := by
  induction contents with
  | nil => exact .nil
  | cons c rest ih =>
    unfold rawLines
    split
    . next h =>
      subst h
      exact .cons [] _ (by simp) ih
    . next hc =>
      split
      . exact .last [c] (by simp) (by simpa using Ne.symm hc)
      . next line lines h =>
        rw [h] at ih
        cases ih with
        | last body hne hbody => exact .last (c :: line) (by simp) (by simp [Ne.symm hc, hbody])
        | cons body raws hbody hraws => exact .cons (c :: body) lines (by simp [Ne.symm hc, hbody]) hraws

theorem RawLines.sublist {raws raws' : List (List Char)} (h : RawLines raws) (hsub : List.Sublist raws' raws)
    : RawLines raws' := by
  induction h generalizing raws' with
  | nil =>
    rw [List.sublist_nil.mp hsub]
    exact .nil
  | last body hne hbody =>
    rcases List.sublist_singleton.mp hsub with rfl | rfl
    . exact .nil
    . exact .last body hne hbody
  | cons body raws hbody _ ih =>
    cases hsub with
    | cons _ hsub => exact ih hsub
    | cons_cons _ hsub => exact .cons body _ hbody (ih hsub)

theorem RawLines.fed {raws : List (List Char)} (h : RawLines raws)
    (hlast : raws.flatten = [] ∨ raws.flatten.getLast? = some '\n')
    : ∀ raw ∈ raws, ∃ body, '\n' ∉ body ∧ raw = body ++ ['\n'] := by
  induction h with
  | nil => simp
  | last body hne hbody =>
    rw [List.flatten_singleton] at hlast
    rcases hlast with hlast | hlast
    . exact absurd hlast hne
    . exact absurd (List.mem_of_getLast? hlast) hbody
  | cons body raws hbody _ ih =>
    rw [List.forall_mem_cons]
    refine ⟨⟨body, hbody, rfl⟩, ih ?_⟩
    rw [List.flatten_cons, List.getLast?_append] at hlast
    cases hrest : raws.flatten.getLast? with
    | none => exact .inl (List.getLast?_eq_none_iff.mp hrest)
    | some c =>
      right
      rw [hrest] at hlast
      simpa using hlast

section Entry

variable {raw : List Char} {reference : Reference}

theorem line_parseReferenceLine (h : parseReferenceLine raw = some reference)
    : reference.line = trimReturns raw := by
  unfold parseReferenceLine at h
  dsimp only at h
  repeat' split at h
  all_goals first
    | cases h; rfl
    | cases h

theorem length_trimReturns_le (raw : List Char) : (trimReturns raw).length ≤ raw.length := by
  unfold trimReturns
  rw [List.length_reverse]
  exact (List.dropWhile_suffix _).length_le.trans_eq List.length_reverse

theorem length_stripEnding_le {body : List Char} : (stripEnding (body ++ ['\n'])).length ≤ body.length := by
  unfold stripEnding
  rw [List.reverse_append]
  split
  . next rest h =>
    have hlength := congrArg List.length h
    simp at hlength ⊢
    omega
  . next rest _ h =>
    have hlength := congrArg List.length h
    simp at hlength ⊢
    omega
  . next h =>
    exact absurd rfl (h body.reverse)

theorem length_entry_le {body : List Char} (h : entry (body ++ ['\n']) = some reference)
    : reference.line.length ≤ body.length := by
  rw [line_parseReferenceLine h]
  exact (length_trimReturns_le _).trans length_stripEnding_le

end Entry

section Marked

variable (taken : Nat → Bool)

theorem map_marked (raws : List (List Char)) (index : Nat) : (marked taken raws index).map Prod.fst = raws := by
  fun_induction marked taken raws index with
  | case1 => rfl
  | case2 index raw raws _ ih => rw [List.map_cons, ih]
  | case3 index raw raws _ _ ih => rw [List.map_cons, ih]

theorem entry_of_marked {raws : List (List Char)} {index : Nat} {line : List Char × Bool}
    (hline : line ∈ marked taken raws index) (hmarked : line.2 = true)
    : ∃ reference, entry line.1 = some reference := by
  fun_induction marked taken raws index with
  | case1 => cases hline
  | case2 index raw raws _ ih =>
    rcases List.mem_cons.mp hline with rfl | hline
    . cases hmarked
    . exact ih hline
  | case3 index raw raws reference hentry ih =>
    rcases List.mem_cons.mp hline with rfl | hline
    . exact ⟨reference, hentry⟩
    . exact ih hline

theorem parseReference_eq (contents : List Char) : parseReference contents = (rawLines contents).filterMap entry := by
  unfold parseReference lines
  rw [List.filterMap_map]
  rfl

theorem consumedLines_marked (raws : List (List Char)) (index : Nat)
    : (((raws.filterMap entry).zipIdx index).filter (fun entry => taken entry.2)).map (fun entry => entry.1.line) =
        ((marked taken raws index).filter Prod.snd).filterMap (fun line => (entry line.1).map Reference.line) := by
  fun_induction marked taken raws index with
  | case1 => rfl
  | case2 index raw raws hentry ih =>
    rw [List.filterMap_cons_none hentry, ih]
    rfl
  | case3 index raw raws reference hentry ih =>
    rw [List.filterMap_cons_some hentry, List.zipIdx_cons, List.filter_cons, List.filter_cons]
    dsimp only
    split
    . rw [List.map_cons, ih, List.filterMap_cons_some (by rw [hentry]; rfl)]
    . exact ih

theorem mem_consumedLines {contents : List Char} {text : List Char}
    : text ∈ consumedLines taken (parseReference contents) ↔
        ∃ line ∈ marked taken (rawLines contents) 0, line.2 = true ∧
          ∃ reference, entry line.1 = some reference ∧ reference.line = text := by
  rw [consumedLines, parseReference_eq, consumedLines_marked, List.mem_filterMap]
  simp only [List.mem_filter, Option.map_eq_some_iff]
  tauto

end Marked

/-!
What is written back.
-/

/--
What is written for a line when these texts have been submitted.
-/
def kept (consumed : List (List Char)) (raw : List Char) : List Char :=
  match entry raw with
  | none => []
  | some reference => if reference.line ∈ consumed then [] else reference.line ++ ['\n']

section Kept

variable {consumed : List (List Char)} {raw : List Char}

theorem kept_of_none (h : entry raw = none) : kept consumed raw = [] := by
  unfold kept
  rw [h]

theorem kept_of_some {reference : Reference} (h : entry raw = some reference)
    : kept consumed raw = if reference.line ∈ consumed then [] else reference.line ++ ['\n'] := by
  unfold kept
  rw [h]

theorem kept_eq_self (hne : raw ≠ [])
    : kept consumed raw = raw ↔
        ∃ reference, entry raw = some reference ∧ raw = reference.line ++ ['\n'] ∧ reference.line ∉ consumed := by
  unfold kept
  split
  . next h => simp [h, hne.symm]
  . next reference h =>
    split
    . next hmem => simp [h, hmem, hne.symm]
    . next hmem => simp [h, hmem, eq_comm]

theorem getLast?_kept (h : kept consumed raw ≠ []) : (kept consumed raw).getLast? = some '\n' := by
  unfold kept at h ⊢
  split at h
  . exact absurd rfl h
  . split at h
    . exact absurd rfl h
    . next hmem => rw [if_neg hmem, List.getLast?_concat]

theorem length_kept_le {body : List Char} : (kept consumed (body ++ ['\n'])).length ≤ (body ++ ['\n']).length := by
  unfold kept
  split
  . exact Nat.zero_le _
  . next reference h =>
    split
    . exact Nat.zero_le _
    . have hle := length_entry_le h
      rw [List.length_append, List.length_append]
      omega

theorem flatMap_kept_end (raws : List (List Char))
    : raws.flatMap (kept consumed) = [] ∨ (raws.flatMap (kept consumed)).getLast? = some '\n' := by
  induction raws with
  | nil => exact .inl rfl
  | cons raw raws ih =>
    rw [List.flatMap_cons]
    rcases ih with hnil | hlast
    . rw [hnil, List.append_nil]
      by_cases h : kept consumed raw = []
      . exact .inl h
      . exact .inr (getLast?_kept h)
    . right
      rw [List.getLast?_append, hlast]
      rfl

theorem keep_eq_flatMap (raws : List (List Char))
    : (((raws.filterMap entry).map Reference.line).filter (· ∉ consumed)).flatMap (· ++ ['\n']) =
        raws.flatMap (kept consumed) := by
  induction raws with
  | nil => rfl
  | cons raw raws ih =>
    rw [List.flatMap_cons]
    cases h : entry raw with
    | none =>
      rw [List.filterMap_cons_none h, ih, kept_of_none h, List.nil_append]
    | some reference =>
      rw [List.filterMap_cons_some h, List.map_cons, kept_of_some h]
      by_cases hmem : reference.line ∈ consumed
      . rw [List.filter_cons_of_neg (by simpa using hmem), ih, if_pos hmem, List.nil_append]
      . rw [List.filter_cons_of_pos (by simpa using hmem), List.flatMap_cons, ih, if_neg hmem]

end Kept

theorem eq_of_flatMap_eq {f g : α → List β} {l : List α} (hle : ∀ a ∈ l, (f a).length ≤ (g a).length)
    (h : l.flatMap f = l.flatMap g)
    : ∀ a ∈ l, f a = g a := by
  induction l with
  | nil => simp
  | cons a l ih =>
    have hrest : ∀ a ∈ l, (f a).length ≤ (g a).length := fun a hmem => hle a (by simp [hmem])
    have hshort : (l.flatMap f).length ≤ (l.flatMap g).length := by
      rw [List.length_flatMap, List.length_flatMap]
      exact List.sum_le_sum hrest
    rw [List.flatMap_cons, List.flatMap_cons] at h
    have hlength := congrArg List.length h
    have hfirst := hle a (by simp)
    rw [List.length_append, List.length_append] at hlength
    obtain ⟨ha, hl⟩ := List.append_inj h (by omega)
    rw [List.forall_mem_cons]
    exact ⟨ha, ih hrest hl⟩

theorem flatMap_eq_filter {f : α → List β} {p : α → Bool} {l : List α} (h : ∀ a ∈ l, p a = false → f a = [])
    : l.flatMap f = (l.filter p).flatMap f := by
  induction l with
  | nil => rfl
  | cons a l ih =>
    have hrest := ih fun a hmem => h a (by simp [hmem])
    cases hp : p a with
    | true => rw [List.filter_cons_of_pos hp, List.flatMap_cons, List.flatMap_cons, hrest]
    | false => rw [List.filter_cons_of_neg (by simp [hp]), List.flatMap_cons, h a (by simp) hp, List.nil_append, hrest]

theorem flatMap_kept_iff {consumed raws : List (List Char)} (h : RawLines raws)
    : raws.flatMap (kept consumed) = raws.flatten ↔ ∀ raw ∈ raws, kept consumed raw = raw := by
  constructor
  . intro heq
    have hfed := h.fed (heq ▸ flatMap_kept_end raws)
    rw [← List.flatMap_id'] at heq
    apply eq_of_flatMap_eq _ heq
    intro raw hraw
    obtain ⟨body, -, rfl⟩ := hfed raw hraw
    exact length_kept_le
  . intro hall
    rw [← List.flatMap_id']
    exact List.flatMap_congr hall

theorem RawLines.ne_nil {raws : List (List Char)} (h : RawLines raws) : ∀ raw ∈ raws, raw ≠ [] := by
  induction h with
  | nil => simp
  | last body hne hbody => simpa using hne
  | cons body raws hbody _ ih =>
    rw [List.forall_mem_cons]
    exact ⟨by simp, ih⟩

theorem getD_rewriteReference (keep : List (List Char))
    : (rewriteReference keep).getD [] = keep.flatMap (· ++ ['\n']) := by
  unfold rewriteReference
  split
  . next h => rw [h]; rfl
  . rfl

/--
A reference file is written back exactly as it was without the submitted entries, if and only if nothing has been
submitted or every other line is an entry that ends in a line feed alone, with a text that has not been submitted.
-/
theorem retire_exact (taken : Nat → Bool) (contents : List Char)
    : (retire contents (consumedLines taken (parseReference contents))).getD [] = remaining taken contents ↔
        consumedLines taken (parseReference contents) = [] ∨
          ∀ line ∈ marked taken (rawLines contents) 0, line.2 = false →
            ∃ reference,
              entry line.1 = some reference ∧ line.1 = reference.line ++ ['\n'] ∧
                reference.line ∉ consumedLines taken (parseReference contents) := by
  have hmem : ∀ text, text ∈ consumedLines taken (parseReference contents) ↔ _ := fun _ => mem_consumedLines taken
  generalize consumedLines taken (parseReference contents) = consumed at hmem ⊢
  have hraws := map_marked taken (rawLines contents) 0
  unfold remaining
  generalize hlines : marked taken (rawLines contents) 0 = lines at hmem hraws ⊢
  by_cases hnone : consumed = []
  . have hunmarked : ∀ line ∈ lines, line.2 = false := by
      intro line hline
      rw [Bool.eq_false_iff]
      intro hmarked
      obtain ⟨reference, hentry⟩ := entry_of_marked taken (hlines ▸ hline) hmarked
      have hconsumed := (hmem reference.line).mpr ⟨line, hline, hmarked, reference, hentry, rfl⟩
      rw [hnone] at hconsumed
      cases hconsumed
    have hall : lines.filter (fun line => !line.2) = lines := by
      rw [List.filter_eq_self]
      intro line hline
      rw [hunmarked line hline]
      rfl
    rw [retire, if_pos hnone, hall, List.flatMap_def, hraws, flatten_rawLines]
    simp [hnone]
  . have hwritten : (retire contents consumed).getD [] =
        ((lines.filter (fun line => !line.2)).map Prod.fst).flatMap (kept consumed) := by
      rw [retire, if_neg hnone, getD_rewriteReference, parseReference_eq, keep_eq_flatMap, ← hraws, List.flatMap_map,
        List.flatMap_map]
      apply flatMap_eq_filter
      intro line hline hmarked
      rw [Bool.not_eq_false'] at hmarked
      obtain ⟨reference, hentry⟩ := entry_of_marked taken (hlines ▸ hline) hmarked
      rw [kept_of_some hentry, if_pos ((hmem reference.line).mpr ⟨line, hline, hmarked, reference, hentry, rfl⟩)]
    have hleft : RawLines ((lines.filter (fun line => !line.2)).map Prod.fst) := by
      apply (rawLines_rawLines contents).sublist
      rw [← hraws]
      exact List.filter_sublist.map Prod.fst
    have hremaining : (lines.filter (fun line => !line.2)).flatMap Prod.fst =
        ((lines.filter (fun line => !line.2)).map Prod.fst).flatten := List.flatMap_def ..
    rw [hwritten, hremaining, flatMap_kept_iff hleft, List.forall_mem_map, or_iff_right hnone]
    constructor
    . intro h line hline hunmarked
      have hfiltered : line ∈ lines.filter (fun line => !line.2) := List.mem_filter.mpr ⟨hline, by simp [hunmarked]⟩
      have hne := hleft.ne_nil line.1 (List.mem_map_of_mem hfiltered)
      exact (kept_eq_self hne).mp (h line hfiltered)
    . intro h line hfiltered
      have hne := hleft.ne_nil line.1 (List.mem_map_of_mem hfiltered)
      obtain ⟨hline, hunmarked⟩ := List.mem_filter.mp hfiltered
      exact (kept_eq_self hne).mpr (h line hline (by simpa using hunmarked))

end Bso

end Tith
