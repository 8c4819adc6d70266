import Tith.Bso.Reference
import Tith.Lib.FirstFit

/-!
This module contains the messages of a packet paired with the reference file beside it: which entries a message owns,
what becomes of the others, and what is left of the file once some of them have been submitted.
-/

namespace Tith

namespace Bso

open Legacy

inductive AttachStyle where
  | binkley
  | flags
  deriving DecidableEq, Repr

structure CorrelatedMessage where
  message : PackedMessage
  attachments : List Attachment
  consumed : List (List Char)

structure Correlation where
  messages : List CorrelatedMessage
  distributions : List (Reference × List Char)
  unclaimed : List Reference

def fileList (subject : List Char) : List (List Char) :=
  (subject.splitOnP (fun c => c = ',' || c = ' ')).filter (· ≠ [])

def tail (value : List Char) : List Char :=
  (value.reverse.takeWhile (fun c => c ≠ '/' && c ≠ '\\')).reverse.map Char.toLower

def sameFile (reference subjectName : List Char) : Bool := tail reference = tail subjectName

def trim (text : List Char) : List Char :=
  ((text.dropWhile ttsWhitespace).reverse.dropWhile ttsWhitespace).reverse

def ticArea (contents : List Char) : Option (List Char) :=
  (lines contents).findSome? fun line => do
    let (keyword, value) ← Text.splitOnce ' ' line
    if eqIgnoreAsciiCase keyword "Area".toList then some (trim value) else none

def isDirective (c : Char) : Bool := c = '#' || c = '^' || c = '-' || c = '~' || c = '!' || c = '@'

/--
A name of the subject without the directives that it may carry. Those of the reference file count.
-/
def bareName (style : AttachStyle) (wanted : List Char) : List Char :=
  match style with
  | .binkley => wanted.dropWhile isDirective
  | .flags => wanted

/--
What a message has claimed so far, and the places of all entries that are claimed.
-/
structure Claims where
  claimed : List Nat
  attachments : List Attachment
  consumed : List (List Char)

def claimFile (style : AttachStyle) (references : List Reference) (claims : Claims) (wanted : List Char) : Claims :=
  let bare := bareName style wanted
  if bare = [] then
    claims
  else
    match references.zipIdx.find? (fun entry => entry.2 ∉ claims.claimed && sameFile entry.1.name bare) with
    | none => claims
    | some (reference, index) =>
      { claimed := index :: claims.claimed
        attachments := claims.attachments ++ [asAttachment reference]
        consumed := claims.consumed ++ [reference.line] }

def correlateMessage (style : AttachStyle) (references : List Reference) (claimed : List Nat)
    (message : PackedMessage)
    : CorrelatedMessage × List Nat :=
  let claims :=
    if message.hasFileAttached then
      (fileList message.subject).foldl (claimFile style references) ⟨claimed, [], []⟩
    else
      ⟨claimed, [], []⟩
  (⟨message, claims.attachments, claims.consumed⟩, claims.claimed)

def correlateMessages (style : AttachStyle) (references : List Reference) (claimed : List Nat)
    (messages : List PackedMessage)
    : List CorrelatedMessage × List Nat :=
  match messages with
  | [] => ([], claimed)
  | message :: messages =>
    let first := correlateMessage style references claimed message
    let rest := correlateMessages style references first.2 messages
    (first.1 :: rest.1, rest.2)

/--
The entries at places that are not claimed.
-/
def pool (references : List Reference) (claimed : List Nat) : List (Reference × Nat) :=
  references.zipIdx.filter (fun entry => entry.2 ∉ claimed)

/--
The messages with their entries, and the entries that no message claims. `tic` is the text of the TIC that lies beside
the file of an entry, if it can be read.
-/
def correlate (messages : List PackedMessage) (references : List Reference) (tic : Reference → Option (List Char))
    (style : AttachStyle)
    : Correlation :=
  let correlated := correlateMessages style references [] messages
  let left := (pool references correlated.2).map Prod.fst
  let area (reference : Reference) := (tic reference).bind ticArea
  { messages := correlated.1
    distributions := left.filterMap (fun reference => (area reference).map (reference, ·))
    unclaimed := left.filter (fun reference => (area reference).isNone) }

/-!
What a run submits, and what it leaves.
-/

/--
The packet and its reference file after a run.
-/
structure PacketRun where
  removed : Bool
  reference : Option (List Char)

/--
The texts of the entries that no message claims, if they have been committed.
-/
def unclaimedEntries (correlation : Correlation) (sends : List Reference → Bool) : List (List Char) :=
  if correlation.unclaimed = [] then
    []
  else if sends correlation.unclaimed then
    correlation.unclaimed.map Reference.line
  else
    []

def consumedTexts (correlation : Correlation) (submits : CorrelatedMessage → Nat → Bool)
    (sends : List Reference → Bool)
    : List (List Char) :=
  let committed := correlation.messages.zipIdx.filter (fun owned => submits owned.1 owned.2)
  committed.flatMap (fun owned => owned.1.consumed) ++ unclaimedEntries correlation sends

/--
One packet. `submits` tells which messages are committed, and `sends` whether the files of the other entries are.
-/
def packet (messages : List PackedMessage) (reference : Option (List Char)) (tic : Reference → Option (List Char))
    (style : AttachStyle) (submits : CorrelatedMessage → Nat → Bool) (sends : List Reference → Bool)
    : PacketRun :=
  let references := (reference.map parseReference).getD []
  let correlation := correlate messages references tic style
  { removed := correlation.messages.zipIdx.all (fun owned => submits owned.1 owned.2)
    reference := reference.bind (fun contents => retire contents (consumedTexts correlation submits sends)) }

/--
A reference file without a packet.
-/
def loneReference (contents : List Char) (tic : Reference → Option (List Char)) (style : AttachStyle)
    (sends : List Reference → Bool)
    : Option (List Char) :=
  retire contents (unclaimedEntries (correlate [] (parseReference contents) tic style) sends)

/-!
The claims of a message are first fits.
-/

def entryKey (entry : Reference × Nat) : List Char := tail entry.1.name

def wantsOf (style : AttachStyle) (names : List (List Char)) : List (List Char) :=
  ((names.map (bareName style)).filter (· ≠ [])).map tail

def wants (style : AttachStyle) (message : PackedMessage) : List (List Char) :=
  if message.hasFileAttached then wantsOf style (fileList message.subject) else []

theorem find?_claimed (references : List Reference) (claimed : List Nat) (bare : List Char)
    : references.zipIdx.find? (fun entry => entry.2 ∉ claimed && sameFile entry.1.name bare) =
        (pool references claimed).find? (fun entry => entryKey entry = tail bare) := by
  unfold pool
  rw [List.find?_filter]
  congr 1
  funext entry
  rw [Bool.decide_and, Bool.decide_eq_true, Bool.decide_eq_true]
  rfl

theorem nodup_pool (references : List Reference) (claimed : List Nat)
    : ((pool references claimed).map Prod.snd).Nodup := by
  have hnodup : (references.zipIdx.map Prod.snd).Nodup := by
    rw [List.zipIdx_map_snd]
    exact List.nodup_range'
  exact (List.filter_sublist.map Prod.snd).nodup hnodup

theorem eraseP_eq_filter [DecidableEq α] {p : α × Nat → Bool} {l : List (α × Nat)} {entry : α × Nat}
    (hnodup : (l.map Prod.snd).Nodup) (h : l.find? p = some entry)
    : l.eraseP p = l.filter (fun other => other.2 ≠ entry.2) := by
  rw [FirstFit.eraseP_eq_filter hnodup.of_map, h]
  apply List.filter_congr
  intro other hother
  rw [decide_eq_decide, not_iff_not, Option.some.injEq]
  constructor
  . rintro rfl
    rfl
  . intro hsame
    exact List.inj_on_of_nodup_map hnodup hother (List.mem_of_find?_eq_some h) hsame

theorem pool_cons (references : List Reference) (claimed : List Nat) (index : Nat)
    : pool references (index :: claimed) = (pool references claimed).filter (fun other => other.2 ≠ index) := by
  unfold pool
  rw [List.filter_filter]
  congr 1
  funext entry
  simp only [List.mem_cons, not_or, ne_eq, Bool.decide_and]

section Claims

variable (style : AttachStyle) (references : List Reference)

def owned (claims : Claims) (taken : List (Reference × Nat)) (claimed : List Nat) : Claims :=
  { claimed
    attachments := claims.attachments ++ taken.map (fun entry => asAttachment entry.1)
    consumed := claims.consumed ++ taken.map (fun entry => entry.1.line) }

theorem foldl_claimFile (names : List (List Char)) (claims : Claims)
    : ∃ claimed,
        names.foldl (claimFile style references) claims =
          owned claims (FirstFit.takeAll entryKey (pool references claims.claimed) (wantsOf style names)).1.reduceOption
            claimed ∧
        pool references claimed =
          (FirstFit.takeAll entryKey (pool references claims.claimed) (wantsOf style names)).2 := by
  induction names generalizing claims with
  | nil =>
    refine ⟨claims.claimed, ?_, rfl⟩
    simp [wantsOf, FirstFit.takeAll, owned]
  | cons name names ih =>
    rw [List.foldl_cons]
    by_cases hbare : bareName style name = []
    . have hwants : wantsOf style (name :: names) = wantsOf style names := by simp [wantsOf, hbare]
      rw [claimFile, if_pos hbare, hwants]
      exact ih claims
    . have hwants : wantsOf style (name :: names) = tail (bareName style name) :: wantsOf style names := by
        simp [wantsOf, hbare]
      rw [claimFile, if_neg hbare, hwants, FirstFit.takeAll, find?_claimed]
      cases hfind : (pool references claims.claimed).find? fun entry => entryKey entry = tail (bareName style name) with
      | none =>
        rw [List.eraseP_of_forall_not (by simpa using hfind)]
        exact ih claims
      | some entry =>
        obtain ⟨claimed, hclaims, hpool⟩ := ih
          { claimed := entry.2 :: claims.claimed
            attachments := claims.attachments ++ [asAttachment entry.1]
            consumed := claims.consumed ++ [entry.1.line] }
        have herase := eraseP_eq_filter (nodup_pool references claims.claimed) hfind
        rw [← pool_cons] at herase
        rw [herase]
        refine ⟨claimed, ?_, hpool⟩
        dsimp only
        rw [hclaims]
        simp [owned, List.reduceOption_cons_of_some]

theorem correlateMessage_spec (claimed : List Nat) (message : PackedMessage)
    : ∃ taken : List (Option (Reference × Nat)),
        (correlateMessage style references claimed message).1 =
          ⟨message, taken.reduceOption.map (fun entry => asAttachment entry.1),
            taken.reduceOption.map (fun entry => entry.1.line)⟩ ∧
        (taken, pool references (correlateMessage style references claimed message).2) =
          FirstFit.takeAll entryKey (pool references claimed) (wants style message) := by
  unfold correlateMessage wants
  split
  . obtain ⟨after, hclaims, hpool⟩ := foldl_claimFile style references (fileList message.subject) ⟨claimed, [], []⟩
    refine ⟨_, ?_, Prod.ext rfl ?_⟩
    . rw [hclaims]
      simp [owned]
    . rw [hclaims]
      exact hpool
  . exact ⟨[], rfl, rfl⟩

def correlated (message : PackedMessage) (taken : List (Option (Reference × Nat))) : CorrelatedMessage :=
  { message
    attachments := taken.reduceOption.map (fun entry => asAttachment entry.1)
    consumed := taken.reduceOption.map (fun entry => entry.1.line) }

theorem correlateMessages_spec (claimed : List Nat) (messages : List PackedMessage)
    : ∃ groups : List (List (Option (Reference × Nat))),
        (correlateMessages style references claimed messages).1 = List.zipWith correlated messages groups ∧
        List.Forall₂ (fun message group =>
          List.Forall₂ (fun taken want => ∀ entry ∈ taken, entryKey entry = want) group (wants style message))
          messages groups ∧
        (groups.flatten, pool references (correlateMessages style references claimed messages).2) =
          FirstFit.takeAll entryKey (pool references claimed) (messages.flatMap (wants style)) := by
  induction messages generalizing claimed with
  | nil => exact ⟨[], rfl, .nil, rfl⟩
  | cons message messages ih =>
    obtain ⟨taken, hfirst, htaken⟩ := correlateMessage_spec style references claimed message
    obtain ⟨groups, hrest, hforall, hgroups⟩ := ih (correlateMessage style references claimed message).2
    obtain ⟨htaken, hpool⟩ := Prod.ext_iff.mp htaken
    obtain ⟨hgroups, hleft⟩ := Prod.ext_iff.mp hgroups
    dsimp only at htaken hpool hgroups hleft
    refine ⟨taken :: groups, ?_, .cons ?_ hforall, ?_⟩
    . rw [correlateMessages, hrest, hfirst]
      rfl
    . rw [htaken]
      exact FirstFit.key_takeAll _ _ _
    . rw [List.flatMap_cons, FirstFit.takeAll_append, ← hpool, ← hgroups, ← hleft, ← htaken, List.flatten_cons]
      rfl

theorem sublist_of_keys {group : List (Option (Reference × Nat))} {names : List (List Char)}
    (h : List.Forall₂ (fun taken want => ∀ entry ∈ taken, entryKey entry = want) group names)
    : List.Sublist (group.reduceOption.map entryKey) names := by
  induction h with
  | nil => exact List.Sublist.refl _
  | @cons taken want _ _ hkey _ ih =>
    cases taken with
    | none => exact ih.cons want
    | some entry =>
      rw [List.reduceOption_cons_of_some, List.map_cons, hkey entry rfl]
      exact ih.cons_cons want

theorem length_reduceOption_eq (group : List (Option α))
    : group.reduceOption.length = group.length ↔ ∀ taken ∈ group, taken.isSome = true := by
  rw [List.reduceOption_length_eq_iff]

def specs (message : PackedMessage) : List (List Char) :=
  if message.hasFileAttached then fileList message.subject else []

theorem length_wants_eq (message : PackedMessage)
    : (wants style message).length = (specs message).length ↔ ∀ name ∈ specs message, bareName style name ≠ [] := by
  unfold wants specs
  split
  . have hlength : ((fileList message.subject).map (bareName style)).length = (fileList message.subject).length :=
      List.length_map _
    rw [wantsOf, List.length_map, ← hlength, List.length_filter_eq_length_iff]
    simp
  . simp

theorem length_wants_le (message : PackedMessage) : (wants style message).length ≤ (specs message).length := by
  unfold wants specs
  split
  . rw [wantsOf, List.length_map]
    exact (List.length_filter_le _ _).trans_eq (List.length_map _)
  . exact Nat.le_refl _

end Claims

theorem pool_nil (references : List Reference) : pool references [] = references.zipIdx := by
  unfold pool
  simp

theorem nodup_zipIdx (references : List Reference) : references.zipIdx.Nodup := by
  have hnodup := nodup_pool references []
  rw [pool_nil] at hnodup
  exact hnodup.of_map

theorem map_entryKey_zipIdx (references : List Reference)
    : references.zipIdx.map entryKey = references.map (fun reference => tail reference.name) := by
  have hmap : references.zipIdx.map entryKey =
      (references.zipIdx.map Prod.fst).map (fun reference => tail reference.name) := by
    rw [List.map_map]
    rfl
  rw [hmap, List.zipIdx_map_fst]

/--
Each entry has one place: with the message that claims it, among the distributions, or unclaimed. A message has a slot
for each file that it wants, and the slots of all messages are filled first come, first served.
-/
structure Accounts (style : AttachStyle) (messages : List PackedMessage) (references : List Reference)
    (result : Correlation) (slots : List (List (Option (Reference × Nat)))) (left : List (Reference × Nat))
    : Prop where
  partition : List.Perm (slots.flatten.reduceOption ++ left) references.zipIdx
  order : List.Sublist left references.zipIdx
  served : FirstFit.Served entryKey references.zipIdx (messages.flatMap (wants style)) slots.flatten
  messages : result.messages.map CorrelatedMessage.message = messages
  claims
    : List.Forall₂ (fun owned group =>
        owned.attachments = group.reduceOption.map (fun entry => asAttachment entry.1) ∧
          owned.consumed = group.reduceOption.map (fun entry => entry.1.line) ∧
          group.length = (wants style owned.message).length ∧
          List.Sublist (group.reduceOption.map entryKey) (wants style owned.message)) result.messages slots
  left : List.Perm (result.distributions.map Prod.fst ++ result.unclaimed) (left.map Prod.fst)

theorem perm_distributions {area : Reference → Option (List Char)} (left : List Reference)
    : List.Perm
        ((left.filterMap (fun reference => (area reference).map (reference, ·))).map Prod.fst ++
          left.filter (fun reference => (area reference).isNone))
        left := by
  induction left with
  | nil => exact .refl _
  | cons reference left ih =>
    cases h : area reference with
    | none =>
      rw [List.filterMap_cons_none (by rw [h]; rfl), List.filter_cons_of_pos (by rw [h]; rfl)]
      exact List.perm_middle.trans (ih.cons reference)
    | some name =>
      rw [List.filterMap_cons_some (by rw [h]; rfl), List.filter_cons_of_neg (by rw [h]; simp)]
      exact ih.cons reference

section Groups

variable {style : AttachStyle} {messages : List PackedMessage} {groups : List (List (Option (Reference × Nat)))}

theorem correlated_claims
    (h : List.Forall₂ (fun message group =>
      List.Forall₂ (fun taken want => ∀ entry ∈ taken, entryKey entry = want) group (wants style message))
      messages groups)
    : (List.zipWith correlated messages groups).map CorrelatedMessage.message = messages ∧
        List.Forall₂ (fun owned group =>
          owned.attachments = group.reduceOption.map (fun entry => asAttachment entry.1) ∧
            owned.consumed = group.reduceOption.map (fun entry => entry.1.line) ∧
            group.length = (wants style owned.message).length ∧
            List.Sublist (group.reduceOption.map entryKey) (wants style owned.message))
          (List.zipWith correlated messages groups) groups := by
  induction h with
  | nil => exact ⟨rfl, .nil⟩
  | cons hkey _ ih =>
    rw [List.zipWith_cons_cons, List.map_cons, ih.1]
    exact ⟨rfl, .cons ⟨rfl, rfl, hkey.length_eq, sublist_of_keys hkey⟩ ih.2⟩

theorem correlated_complete
    (h : List.Forall₂ (fun message group =>
      List.Forall₂ (fun taken want => ∀ entry ∈ taken, entryKey entry = want) group (wants style message))
      messages groups)
    : (∀ owned ∈ List.zipWith correlated messages groups,
        owned.attachments.length = (specs owned.message).length) ↔
      (∀ message ∈ messages, ∀ name ∈ specs message, bareName style name ≠ []) ∧
        ∀ taken ∈ groups.flatten, taken.isSome = true := by
  induction h with
  | nil => simp
  | @cons message group _ _ hkey _ ih =>
    have hwants := length_wants_eq style message
    have hle := length_wants_le style message
    have htaken := length_reduceOption_eq group
    have hshort := List.reduceOption_length_le group
    have hlength := hkey.length_eq
    have hattachments : (correlated message group).attachments.length = group.reduceOption.length := List.length_map _
    have hboth : group.reduceOption.length = (specs message).length ↔
        (wants style message).length = (specs message).length ∧ group.reduceOption.length = group.length := by
      omega
    rw [List.zipWith_cons_cons, List.forall_mem_cons, ih, List.forall_mem_cons, List.flatten_cons,
      List.forall_mem_append, hattachments, ← hwants, ← htaken]
    change _ = (specs message).length ∧ _ ↔ _
    rw [hboth]
    tauto

end Groups

/--
Nothing is lost when a packet is paired with its reference file, and the entries go to the messages first come, first
served. Each message gets one file for each name in its subject if and only if each name is left without its
directives, and no file is named more often than there are entries for it.
-/
theorem correlate_accounts (messages : List PackedMessage) (references : List Reference)
    (tic : Reference → Option (List Char)) (style : AttachStyle)
    : (∃ slots left, Accounts style messages references (correlate messages references tic style) slots left) ∧
        ((∀ owned ∈ (correlate messages references tic style).messages,
            owned.attachments.length = (specs owned.message).length) ↔
          (∀ message ∈ messages, ∀ name ∈ specs message, bareName style name ≠ []) ∧
            ∀ file, (messages.flatMap (wants style)).count file ≤
              (references.map (fun reference => tail reference.name)).count file) := by
  obtain ⟨groups, hmessages, hkeys, htaken⟩ := correlateMessages_spec style references [] messages
  rw [pool_nil] at htaken
  obtain ⟨hgroups, hleft⟩ := Prod.ext_iff.mp htaken
  dsimp only at hgroups hleft
  have hcorrelated : (correlate messages references tic style).messages = List.zipWith correlated messages groups :=
    hmessages
  constructor
  . refine ⟨groups, pool references (correlateMessages style references [] messages).2, ?_⟩
    constructor
    . rw [hgroups, hleft]
      exact FirstFit.perm_takeAll _ _ _
    . exact List.filter_sublist
    . rw [hgroups]
      exact FirstFit.served_takeAll entryKey (nodup_zipIdx references) _
    . rw [hcorrelated]
      exact (correlated_claims hkeys).1
    . rw [hcorrelated]
      exact (correlated_claims hkeys).2
    . exact perm_distributions _
  . rw [hcorrelated, correlated_complete hkeys, hgroups, FirstFit.all_taken_iff, map_entryKey_zipIdx]
    convert Iff.rfl

namespace Sample

/--
A message that carries the files its subject names.
-/
def attached (subject : String) : PackedMessage where
  origin := ⟨1, 1, 1, 0⟩
  destination := ⟨1, 1, 2, 0⟩
  attributes := attributeFileAttached
  dateTime := []
  toUser := []
  fromUser := []
  subject := subject.toList
  controls := []
  text := []
  area := none

def references : List Reference := parseReference "^a.zip\nb.zip\n#c.zip\n".toList

end Sample

/--
Two messages want the one file. The second is left with the other file that it names.
-/
theorem correlate_accounts_contended
    : ∃ slots left,
        Accounts .binkley [Sample.attached "A.ZIP", Sample.attached "a.zip,b.zip"] Sample.references
          (correlate [Sample.attached "A.ZIP", Sample.attached "a.zip,b.zip"] Sample.references (fun _ => none)
            .binkley) slots left ∧
        slots.map (fun group => group.map (Option.map Prod.snd)) = [[some 0], [none, some 1]] := by
  obtain ⟨slots, left, haccounts⟩ := (correlate_accounts [Sample.attached "A.ZIP", Sample.attached "a.zip,b.zip"]
    Sample.references (fun _ => none) .binkley).1
  refine ⟨slots, left, haccounts, ?_⟩
  have hclaims := haccounts.claims
  cases hclaims with
  | @cons _ first _ rest hfirst hrest =>
    cases hrest with
    | @cons _ second _ rest hsecond hrest =>
      cases hrest
      obtain ⟨a, rfl⟩ := List.length_eq_one_iff.mp (hfirst.2.2.1.trans (by decide))
      obtain ⟨b, c, rfl⟩ := List.length_eq_two.mp (hsecond.2.2.1.trans (by decide))
      have hslot := haccounts.served.slot
      have ha := Option.some.inj (hslot 0 "a.zip".toList (by decide))
      rw [show [[a], [b, c]].flatten.take 0 = [] from rfl] at ha
      obtain rfl : a = Sample.references.zipIdx[0]? := ha.trans (by decide)
      have hb := Option.some.inj (hslot 1 "a.zip".toList (by decide))
      rw [show [[Sample.references.zipIdx[0]?], [b, c]].flatten.take 1 = [Sample.references.zipIdx[0]?] from rfl]
        at hb
      obtain rfl : b = none := hb.trans (by decide)
      have hc := Option.some.inj (hslot 2 "b.zip".toList (by decide))
      rw [show [[Sample.references.zipIdx[0]?], [none, c]].flatten.take 2 = [Sample.references.zipIdx[0]?, none]
        from rfl] at hc
      obtain rfl : c = Sample.references.zipIdx[1]? := hc.trans (by decide)
      rfl

end Bso

end Tith
