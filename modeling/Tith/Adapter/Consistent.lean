import Tith.Adapter.References
import Tith.Adapter.Unblocked

/-!
This module contains the publication of an item as a set: whether its objects have different names, and whether
every file that a packet or a TIC refers to is among the objects in front of it.
-/

namespace Tith

namespace Adapter

section Sets

/--
The objects have different names, with capital letters or without, and the files of each packet and each TIC are the
ones in front of it that have these names, with the given contents.
-/
structure Consistent (contents : List (List UInt8)) (objects : List Publication) : Prop where
  distinct : (objects.map fun object => object.name.toList.map Char.toLower).Nodup
  found : ∀ before object after files, objects = before ++ object :: after → object.files = some files →
    List.Forall₂ (fun file bytes => ∃ companion ∈ before, companion.name.toList = file ∧ companion.contents = bytes)
      files contents

theorem append_cons_inj {before before' after after' : List Publication} {object object' : Publication}
    (h : before ++ object :: after = before' ++ object' :: after') (hbefore : object' ∉ before) (hafter : object' ∉ after)
    : before' = before ∧ object' = object := by
  induction before generalizing before' with
  | nil =>
    cases before' with
    | nil => exact ⟨rfl, (List.cons.inj h).1.symm⟩
    | cons first before' =>
      rw [List.nil_append, List.cons_append, List.cons.injEq] at h
      exact absurd (h.2 ▸ List.mem_append_right _ List.mem_cons_self) hafter
  | cons first before ih =>
    cases before' with
    | nil =>
      rw [List.nil_append, List.cons_append, List.cons.injEq] at h
      exact absurd (h.1 ▸ List.mem_cons_self) hbefore
    | cons first' before' =>
      rw [List.cons_append, List.cons_append, List.cons.injEq] at h
      obtain ⟨rfl, rfl⟩ := ih h.2 (fun hmem => hbefore (List.mem_cons_of_mem _ hmem))
      exact ⟨by rw [h.1], rfl⟩

theorem consistent_iff {contents : List (List UInt8)} {before after : List Publication} {object : Publication}
    {files : List (List Char)} (hfiles : object.files = some files) (hbefore : ∀ other ∈ before, other.files = none)
    (hafter : ∀ other ∈ after, other.files = none)
    : Consistent contents (before ++ object :: after) ↔
        ((before ++ object :: after).map fun object => object.name.toList.map Char.toLower).Nodup ∧
          List.Forall₂ (fun file bytes => ∃ companion ∈ before, companion.name.toList = file ∧ companion.contents = bytes)
            files contents := by
  -- In a set with one object that refers to files, only its files have to be found.
  constructor
  . intro h
    exact ⟨h.distinct, h.found before object after files rfl hfiles⟩
  . rintro ⟨hdistinct, hfound⟩
    refine ⟨hdistinct, ?_⟩
    intro before' object' after' files' heq hfiles'
    have hnot {others : List Publication} (hothers : ∀ other ∈ others, other.files = none) : object' ∉ others := by
      intro hmem
      rw [hothers object' hmem] at hfiles'
      cases hfiles'
    obtain ⟨rfl, rfl⟩ := append_cons_inj heq (hnot hbefore) (hnot hafter)
    rw [hfiles] at hfiles'
    injection hfiles' with hfiles'
    rwa [← hfiles']

end Sets

section Names

/--
A name that may be used as it is, with no capital letter in it.
-/
def IsTransferName (name : List Char) : Prop := name.map Char.toLower = name ∧ isSafeEightThree name = true

theorem lower_hex8 (n : Nat) : (hex8 n).map Char.toLower = hex8 n := by
  have hdigit : ∀ d < 16, (Nat.digitChar d).toLower = Nat.digitChar d := by decide
  unfold hex8
  rw [List.map_map]
  apply List.map_congr_left
  intro i _
  exact hdigit _ (Nat.mod_lt _ (by decide))

theorem safe_hex8 (n : Nat) : safe (hex8 n) 8 = true := by
  have hdigit : ∀ d < 16, isSafe (Nat.digitChar d) = true := by decide
  unfold safe
  rw [length_hex8]
  simp only [Bool.and_eq_true, List.all_eq_true]
  refine ⟨by decide, ?_⟩
  intro c hc
  obtain ⟨i, _, rfl⟩ := List.mem_map.mp hc
  exact hdigit _ (Nat.mod_lt _ (by decide))

theorem isSafeEightThree_append {base extension : List Char} (hbase : safe base 8 = true) (hdot : '.' ∉ base)
    (hextension : safe extension 3 = true)
    : isSafeEightThree (base ++ '.' :: extension) = true := by
  have hspan : (base ++ '.' :: extension).span (· ≠ '.') = (base, '.' :: extension) := by
    apply List.span_append
    . intro c hc
      rw [decide_eq_true_eq]
      rintro rfl
      exact hdot hc
    . simp
  unfold isSafeEightThree
  rw [hspan]
  simp [hbase, hextension]

theorem mem_of_mem_keptExtension {lowered : List Char} {c : Char} (h : c ∈ keptExtension lowered)
    : c ∈ lowered ∨ c ∈ "dat".toList := by
  unfold keptExtension at h
  dsimp only at h
  split at h
  . left
    rw [List.mem_reverse] at h
    exact List.mem_reverse.mp ((List.takeWhile_sublist _).subset h)
  . exact .inr h

theorem safe_keptExtension (lowered : List Char) : safe (keptExtension lowered) 3 = true := by
  unfold keptExtension
  dsimp only
  split
  . next h =>
    obtain ⟨_, hone, hthree, hall⟩ := h
    unfold safe
    simp only [Bool.and_eq_true, decide_eq_true_eq, List.all_eq_true] at hall ⊢
    refine ⟨⟨hone, hthree⟩, ?_⟩
    intro c hc
    unfold isSafe
    simp [hall c hc]
  . decide

theorem lower_keptExtension (filename : List Char)
    : (keptExtension (filename.map Char.toLower)).map Char.toLower = keptExtension (filename.map Char.toLower) := by
  conv => rhs; rw [← List.map_id (keptExtension (filename.map Char.toLower))]
  apply List.map_congr_left
  intro c hc
  rcases mem_of_mem_keptExtension hc with hc | hc
  . obtain ⟨d, _, rfl⟩ := List.mem_map.mp hc
    exact Char.toLower_toLower_eq_toLower d
  . have hkept : "dat".toList.all (fun c => c.toLower = c) = true := by decide
    exact of_decide_eq_true (List.all_eq_true.mp hkept c hc)

theorem isTransferName_transferName (filename : String) (identity : Nat)
    : IsTransferName (transferName filename identity).toList := by
  unfold transferName
  dsimp only
  split
  . next hsafe =>
    rw [String.toList_ofList]
    refine ⟨?_, hsafe⟩
    rw [List.map_map]
    apply List.map_congr_left
    intro c _
    exact Char.toLower_toLower_eq_toLower c
  . rw [String.toList_ofList]
    constructor
    . rw [List.map_append, List.map_cons, lower_hex8, lower_keptExtension]
      rfl
    . exact isSafeEightThree_append (safe_hex8 _) (dot_not_mem_hex8 _) (safe_keptExtension _)

theorem transferName_of_isTransferName {filename : String} (h : IsTransferName filename.toList) (identity : Nat)
    : transferName filename identity = filename := by
  unfold transferName
  dsimp only
  rw [h.1, if_pos h.2, String.ofList_toList]

theorem isTransferName_packetName (identity : Nat) : IsTransferName (packetName identity).toList := by
  unfold packetName
  rw [String.toList_ofList]
  constructor
  . rw [List.map_append, lower_hex8]
    rfl
  . exact isSafeEightThree_append (safe_hex8 _) (dot_not_mem_hex8 _) (by decide)

theorem attachmentNames_of_isTransferName {filenames : List String} (h : ∀ filename ∈ filenames, IsTransferName filename.toList)
    (identity : Nat)
    : attachmentNames filenames identity = filenames := by
  induction filenames generalizing identity with
  | nil => rfl
  | cons filename rest ih =>
    unfold attachmentNames
    rw [transferName_of_isTransferName (h filename List.mem_cons_self),
      ih (fun filename hmem => h filename (List.mem_cons_of_mem _ hmem))]

theorem keptExtension_eq_tic_iff {lowered : List Char}
    : keptExtension lowered = "tic".toList ↔ ".tic".toList <:+ lowered := by
  constructor
  . intro h
    unfold keptExtension at h
    dsimp only at h
    split at h
    . next hkept =>
      have hspan := @List.takeWhile_append_dropWhile _ (fun c => decide (c ≠ '.')) lowered.reverse
      have htake : lowered.reverse.takeWhile (· ≠ '.') = "cit".toList := by
        rw [← List.reverse_inj, h]
        rfl
      cases hdrop : lowered.reverse.dropWhile (· ≠ '.') with
      | nil =>
        rw [List.dropWhile_eq_nil_iff] at hdrop
        exact absurd (hdrop '.' (List.mem_reverse.mpr hkept.1)) (by decide)
      | cons c rest =>
        have hdot : c = '.' := by
          have hhead := List.head?_dropWhile_not (· ≠ '.') lowered.reverse
          rw [hdrop] at hhead
          simpa using hhead
        rw [htake, hdrop, hdot] at hspan
        refine ⟨rest.reverse, ?_⟩
        rw [← List.reverse_inj, ← hspan]
        simp
    . exact absurd h (by decide)
  . rintro ⟨front, rfl⟩
    have htake : ((front ++ ".tic".toList).reverse.takeWhile (· ≠ '.')).reverse = "tic".toList := by
      rw [List.reverse_append]
      rfl
    unfold keptExtension
    dsimp only
    rw [htake, if_pos]
    refine ⟨List.mem_append_right _ (by decide), by decide, by decide, by decide⟩

theorem transferName_eq_ticName_iff {filename : String} {identity : Nat}
    : transferName filename identity = ticName (transferName filename identity) ↔
        ".tic".toList <:+ filename.toList.map Char.toLower := by
  -- A file has the name of its TIC if its own name ends like that of one.
  rw [← String.toList_inj]
  unfold transferName ticName
  dsimp only
  split
  . next hsafe =>
    simp only [String.toList_ofList]
    generalize filename.toList.map Char.toLower = lowered at hsafe ⊢
    constructor
    . intro heq
      exact ⟨_, heq.symm⟩
    . rintro ⟨base, rfl⟩
      have hdot : '.' ∉ base := by
        intro hmem
        obtain ⟨front, back, rfl, hfront⟩ := List.eq_append_cons_of_mem hmem
        have hspan : ((front ++ '.' :: back) ++ ".tic".toList).span (· ≠ '.') =
            (front, '.' :: (back ++ ".tic".toList)) := by
          rw [List.append_assoc]
          apply List.span_append
          . intro c hc
            rw [decide_eq_true_eq]
            rintro rfl
            exact hfront hc
          . simp
        unfold isSafeEightThree at hsafe
        rw [hspan] at hsafe
        simp only [Bool.and_eq_true] at hsafe
        have hextension := hsafe.2
        unfold safe at hextension
        simp only [Bool.and_eq_true, List.all_eq_true] at hextension
        exact absurd (hextension.2 '.' (List.mem_append_right _ (by decide))) (by decide)
      rw [List.takeWhile_append_of_pos]
      . simp
      . intro c hc
        rw [decide_eq_true_eq]
        rintro rfl
        exact hdot hc
  . have htake (extension : List Char) : (hex8 identity ++ '.' :: extension).takeWhile (· ≠ '.') = hex8 identity := by
      rw [List.takeWhile_append_of_pos]
      . simp
      . intro c hc
        rw [decide_eq_true_eq]
        rintro rfl
        exact dot_not_mem_hex8 identity hc
    simp only [String.toList_ofList]
    rw [htake, ← keptExtension_eq_tic_iff]
    constructor
    . intro heq
      exact (List.cons.inj (List.append_cancel_left heq)).2
    . intro heq
      rw [heq]
      rfl

end Names

section Plan

variable {around : Surroundings} {s : Surface} {c : Crypto} {base64 : Nodelist.Base64} {settings : Settings}
  {resolver : KeyResolver} {configuration : Configuration} {claim : Claimed} {payload : List UInt8}
  {item : OwnedTlv} {link : Link}

theorem Yields.and {m : Io ε α} {Q Q' : α → Surface → Prop} (h : Yields around m s Q) (h' : Yields around m s Q')
    : Yields around m s (fun a s' => Q a s' ∧ Q' a s') :=
  fun a ha => ⟨h a ha, h' a ha⟩

/--
The object that an attached file becomes.
-/
structure IsCompanion (attachment : AttachmentData) (object : Publication) : Prop where
  name : ∃ filename identity, attachment.filename = some filename ∧ object.name = transferName filename identity
  contents : object.contents = attachment.contents
  kind : object.kind = .companion

theorem yields_companions {attachments : List AttachmentData}
    : Yields around (attachmentObjects attachments) s (fun objects _ => List.Forall₂ IsCompanion attachments objects) := by
  induction attachments generalizing s with
  | nil => exact yields_pure .nil
  | cons attachment rest ih =>
    refine Yields.bind (yields_true _) ?_
    intro identity s₁ _
    cases hfilename : attachment.filename with
    | none => exact yields_throw
    | some filename =>
      refine Yields.bind ih ?_
      intro objects s₂ hobjects
      exact yields_pure (.cons ⟨⟨filename, _, hfilename, rfl⟩, rfl, rfl⟩ hobjects)

inductive MessageObjects (read : ReadMessage) (identity : Nat) : List Publication → Prop where
  | intro (companions : List Publication) (packet : Publication)
    (hcompanions : List.Forall₂ IsCompanion read.data.attachments companions)
    (hnames : companions.map (·.name) = attachmentNames (read.data.attachments.filterMap (·.filename)) identity)
    (hname : packet.name = packetName (truncate (identity + 1 + (read.data.attachments.filterMap (·.filename)).length)))
    (hfiles : packet.files = some ((read.data.attachments.filterMap (·.filename)).map String.toList))
    : MessageObjects read identity (companions ++ [packet])

inductive FileObjects (configuration : Configuration) (claim : Claimed) (read : ReadFile) (identity : Nat)
    : List Publication → Prop where
  | intro (filename : String) (companion tic : Publication) (notices : List Publication)
    (hfilename : read.data.filename = some filename)
    (hname : companion.name = transferName filename (truncate (identity + 1)))
    (hcontents : companion.contents = read.data.contents) (hcompanion : companion.files = none)
    (htic : tic.name = ticName companion.name) (hfiles : tic.files = some [companion.name.toList])
    (hnotices : ∀ notice ∈ notices, notice.files = none)
    (hnoticeNames : notices.map (·.name) =
      if configuration.policy.action claim.authentication = .deliverWarn then
        [packetName (truncate (identity + 1 + 1))]
      else
        [])
    : FileObjects configuration claim read identity (companion :: tic :: notices)

/--
The objects of an outcome that publishes any have the property.
-/
def IfPublished (P : List Publication → Prop) (outcome : Option Outcome) : Prop :=
  ∀ objects note distribution forwardable, outcome = some (.publish objects note distribution forwardable) →
    objects ≠ [] → P objects

theorem ifPublished_of_not {P : List Publication → Prop} {outcome : Option Outcome} (h : ¬Publishes outcome)
    : IfPublished P outcome := by
  intro objects note distribution forwardable heq
  exact absurd ⟨objects, note, distribution, forwardable, heq⟩ h

theorem ifPublished_publish {P : List Publication → Prop} {objects : List Publication} {note : String}
    {distribution : Option String} {forwardable : Bool} (h : P objects)
    : IfPublished P (some (.publish objects note distribution forwardable)) := by
  rintro objects' note' distribution' forwardable' heq _
  injection heq with heq
  injection heq with hobjects
  rwa [← hobjects]

theorem yields_messageObjects (hfailure : around.failure = none)
    : Yields around (planMessage configuration (conversion c base64 settings resolver) claim payload item link) s
        (fun outcome _ => ∃ read, readMessage item configuration.resolver = .ok read ∧
          IfPublished (MessageObjects read s.identity) outcome) := by
  unfold planMessage
  refine Yields.bind yields_result ?_
  rintro read s₁ ⟨hread, rfl⟩
  by_cases haction : configuration.policy.action claim.authentication = .orphan
  . refine Yields.bind (yields_true _) ?_
    intro notice s₂ _
    simp only [haction, if_true]
    split
    . exact yields_pure ⟨read, hread, ifPublished_of_not (by simp [Publishes, orphaned])⟩
    . refine Yields.bind (yields_true _) ?_
      intro companions s₃ _
      refine Yields.bind (yields_true _) ?_
      intro identity s₄ _
      refine Yields.bind (yields_true _) ?_
      intro now s₅ _
      refine Yields.bind (yields_true _) ?_
      intro contents s₆ _
      exact yields_pure ⟨read, hread, ifPublished_of_not (by simp [Publishes, orphaned])⟩
  . have hnotice : Yields around (messageNotice configuration (conversion c base64 settings resolver) claim link
        read.data.subject) s₁ (fun _ s' => s' = s₁) := by
      unfold messageNotice
      rw [if_neg haction]
      exact yields_pure rfl
    refine Yields.bind hnotice ?_
    rintro notice s₂ rfl
    simp only [haction, if_false]
    split
    . exact yields_pure ⟨read, hread, ifPublished_of_not (by simp [Publishes, refuse])⟩
    . refine Yields.bind (yields_companions.and (yields_attachmentObjects hfailure read.data.attachments)) ?_
      rintro companions s₃ ⟨hcompanions, hnames, hs₃⟩
      refine Yields.bind (yields_nextIdentity hfailure) ?_
      rintro identity s₄ ⟨rfl, _⟩
      refine Yields.bind (yields_true _) ?_
      intro now s₅ _
      refine Yields.bind yields_result ?_
      rintro contents s₆ ⟨hcontents, _⟩
      refine yields_pure ⟨read, hread, ifPublished_publish ?_⟩
      apply MessageObjects.intro _ _ hcompanions hnames
      . dsimp only
        rw [hs₃, Nat.add_right_comm]
      . simp only [conversion, Except.mapError_eq_ok] at hcontents
        unfold messagePacket at hcontents
        simp only [Except.bind_ok_iff, Except.mapError_eq_ok] at hcontents
        obtain ⟨converted, hconverted, hbytes⟩ := hcontents
        exact congrArg some (packetFiles_encodePacket (Legacy.isBuilt_of_toLegacy hconverted) hbytes)

theorem yields_warning (hfailure : around.failure = none)
    (haction : configuration.policy.action claim.authentication ≠ .orphan) {name : String}
    : Yields around (fileNotice configuration (conversion c base64 settings resolver) claim link name) s
        (fun notice _ =>
          (∀ other ∈ notice.toList, other.files = none) ∧
            notice.toList.map (·.name) =
              if configuration.policy.action claim.authentication = .deliverWarn then
                [packetName (truncate (s.identity + 1))]
              else
                []) := by
  unfold fileNotice
  split
  . next h =>
    have hkind : Yields around (administrativeNotice (conversion c base64 settings resolver) claim link "Sysop"
        "TITH File authentication warning" "File" name) s (fun notice _ => notice.files = none) := by
      unfold administrativeNotice
      refine Yields.bind (yields_true _) ?_
      intro now s₁ _
      refine Yields.bind (yields_true _) ?_
      intro contents s₂ _
      refine Yields.bind (yields_true _) ?_
      intro identity s₃ _
      exact yields_pure rfl
    refine Yields.bind (hkind.and (yields_administrativeNotice hfailure)) ?_
    rintro notice s₁ ⟨hfiles, hname⟩
    apply yields_pure
    simp [h, hfiles, hname]
  . next h => exact absurd h haction
  . next h => exact yields_pure (by simp [h])

theorem yields_fileObjects (hfailure : around.failure = none)
    : Yields around (planFile configuration (conversion c base64 settings resolver) claim payload item link) s
        (fun outcome _ => ∃ read, readStandaloneFile item = .ok read ∧ (read.data.area.isSome = true →
          IfPublished (FileObjects configuration claim read s.identity) outcome)) := by
  unfold planFile
  refine Yields.bind yields_result ?_
  rintro read s₁ ⟨hread, rfl⟩
  dsimp only
  cases hfilename : read.data.filename with
  | none => exact yields_pure ⟨read, hread, fun _ => ifPublished_of_not (by simp [Publishes, refuse])⟩
  | some filename =>
    refine Yields.bind (yields_nextIdentity hfailure) ?_
    rintro identity s₂ ⟨rfl, hs₂⟩
    by_cases haction : configuration.policy.action claim.authentication = .orphan
    . refine Yields.bind (yields_true _) ?_
      intro notice s₃ _
      simp only [haction, if_true]
      split
      . exact yields_pure ⟨read, hread, fun _ => ifPublished_of_not (by simp [Publishes, orphaned])⟩
      . split
        . exact yields_pure ⟨read, hread, fun _ => ifPublished_of_not (by simp [Publishes, orphaned])⟩
        . exact yields_pure ⟨read, hread, fun _ => ifPublished_of_not (by simp [Publishes, orphaned])⟩
    . refine Yields.bind (yields_warning hfailure haction) ?_
      rintro notice s₃ ⟨hfiles, hnames⟩
      rw [hs₂] at hnames
      simp only [haction, if_false]
      cases harea : read.data.area with
      | none => exact yields_pure ⟨read, hread, fun h => by rw [harea] at h; cases h⟩
      | some area =>
        dsimp only
        split
        . exact yields_pure ⟨read, hread, fun _ => ifPublished_of_not (by simp [Publishes, refuse])⟩
        . next tic htic =>
          refine Yields.bind (yields_true _) ?_
          intro distribution s₄ _
          refine yields_pure ⟨read, hread, fun _ => ifPublished_publish ?_⟩
          simp only [conversion, Except.mapError_eq_ok, Except.map_eq_ok] at htic
          obtain ⟨text, htext, rfl⟩ := htic
          refine FileObjects.intro filename _ _ _ hfilename rfl rfl rfl rfl ?_ hfiles hnames
          unfold Publication.files
          dsimp only
          rw [ticFiles_toTic htext]

end Plan

section Claim

variable {read : ReadMessage} {file : ReadFile} {identity : Nat} {objects : List Publication}

/--
The attached files of a Message are named as the objects they become, each with its own name, and none like the packet.
-/
structure MessageNamed (read : ReadMessage) (identity : Nat) : Prop where
  kept : ∀ filename ∈ read.data.attachments.filterMap (·.filename), IsTransferName filename.toList
  distinct : (read.data.attachments.filterMap (·.filename)).Nodup
  packet : packetName (truncate (identity + 1 + (read.data.attachments.filterMap (·.filename)).length)) ∉
    read.data.attachments.filterMap (·.filename)

/--
The name of a File does not end like that of a TIC, and is not the one of the notice beside it.
-/
structure FileNamed (configuration : Configuration) (claim : Claimed) (identity : Nat) (filename : String) : Prop where
  tic : ¬".tic".toList <:+ filename.toList.map Char.toLower
  notice : configuration.policy.action claim.authentication = .deliverWarn →
    filename.toList.map Char.toLower ≠ (packetName (truncate (identity + 1 + 1))).toList

theorem nodup_lower_iff (h : ∀ object ∈ objects, object.name.toList.map Char.toLower = object.name.toList)
    : (objects.map fun object => object.name.toList.map Char.toLower).Nodup ↔ (objects.map (·.name)).Nodup := by
  have hnames : objects.map (fun object => object.name.toList.map Char.toLower) =
      (objects.map (·.name)).map String.toList := by
    rw [List.map_map]
    exact List.map_congr_left h
  rw [hnames]
  exact List.nodup_map_iff (fun _ _ heq => String.toList_inj.mp heq)

theorem forall₂_companions {attachments : List AttachmentData} {companions all : List Publication}
    (h : List.Forall₂ IsCompanion attachments companions) (hall : companions ⊆ all)
    (hkept : ∀ filename ∈ attachments.filterMap (·.filename), IsTransferName filename.toList)
    : List.Forall₂ (fun file bytes => ∃ companion ∈ all, companion.name.toList = file ∧ companion.contents = bytes)
        ((attachments.filterMap (·.filename)).map String.toList) (attachments.map (·.contents)) := by
  induction h with
  | nil => exact .nil
  | @cons attachment companion attachments companions hfirst _ ih =>
    obtain ⟨filename, identity, hfilename, hname⟩ := hfirst.name
    rw [List.filterMap_cons, hfilename] at hkept ⊢
    refine .cons ⟨companion, hall List.mem_cons_self, ?_, hfirst.contents⟩ (ih ?_ ?_)
    . rw [hname, transferName_of_isTransferName (hkept filename List.mem_cons_self)]
    . exact fun companion hmem => hall (List.mem_cons_of_mem _ hmem)
    . exact fun filename hmem => hkept filename (List.mem_cons_of_mem _ hmem)

theorem MessageObjects.consistent_iff (h : MessageObjects read identity objects)
    : Consistent (read.data.attachments.map (·.contents)) objects ↔ MessageNamed read identity := by
  obtain ⟨companions, packet, hcompanions, hnames, hname, hfiles⟩ := h
  have htransfer : ∀ companion ∈ companions, IsTransferName companion.name.toList := by
    intro companion hcompanion
    obtain ⟨attachment, _, hattachment⟩ := List.forall₂_mem_right hcompanions hcompanion
    obtain ⟨filename, identity, _, heq⟩ := hattachment.name
    rw [heq]
    exact isTransferName_transferName filename identity
  have hnone : ∀ companion ∈ companions, companion.files = none := by
    intro companion hcompanion
    obtain ⟨attachment, _, hattachment⟩ := List.forall₂_mem_right hcompanions hcompanion
    unfold Publication.files
    rw [hattachment.kind]
  have hlower : ∀ object ∈ companions ++ [packet], object.name.toList.map Char.toLower = object.name.toList := by
    intro object hobject
    rcases List.mem_append.mp hobject with hobject | hobject
    . exact (htransfer object hobject).1
    . rw [List.mem_singleton.mp hobject, hname]
      exact (isTransferName_packetName _).1
  rw [Adapter.consistent_iff hfiles hnone (by simp), nodup_lower_iff hlower, List.map_append, List.map_cons, List.map_nil,
    hnames, hname]
  constructor
  . rintro ⟨hdistinct, hfound⟩
    have hkept : ∀ filename ∈ read.data.attachments.filterMap (·.filename), IsTransferName filename.toList := by
      intro filename hfilename
      obtain ⟨_, _, companion, hcompanion, heq, _⟩ := List.forall₂_mem_left hfound (List.mem_map_of_mem hfilename)
      rw [← heq]
      exact htransfer companion hcompanion
    rw [attachmentNames_of_isTransferName hkept, List.nodup_append] at hdistinct
    exact ⟨hkept, hdistinct.1, fun hmem => hdistinct.2.2 _ hmem _ (List.mem_singleton_self _) rfl⟩
  . rintro ⟨hkept, hdistinct, hpacket⟩
    refine ⟨?_, forall₂_companions hcompanions (List.Subset.refl _) hkept⟩
    rw [attachmentNames_of_isTransferName hkept, List.nodup_append]
    refine ⟨hdistinct, List.nodup_singleton _, ?_⟩
    intro name hmem other hother heq
    rw [List.mem_singleton.mp hother] at heq
    exact hpacket (heq ▸ hmem)

theorem lower_ticName {name : String} (h : name.toList.map Char.toLower = name.toList)
    : (ticName name).toList.map Char.toLower = (ticName name).toList := by
  unfold ticName
  rw [String.toList_ofList, List.map_append]
  congr 1
  conv => rhs; rw [← List.map_id (name.toList.takeWhile (· ≠ '.'))]
  apply List.map_congr_left
  intro c hc
  have hmem := (List.takeWhile_sublist _).subset hc
  exact List.map_inj_left.mp (h.trans (List.map_id _).symm) c hmem

theorem ticName_ne_packetName (name : String) (n : Nat) : ticName name ≠ packetName n := by
  intro heq
  have hlast := congrArg (fun name => name.toList.getLast?) heq
  unfold ticName packetName at hlast
  simp only [String.toList_ofList] at hlast
  rw [List.getLast?_append_of_ne_nil _ (by decide), List.getLast?_append_of_ne_nil _ (by decide)] at hlast
  exact absurd hlast (by decide)

/--
A companion has the name of the notice behind it only if it has brought it along.
-/
theorem transferName_eq_packetName_iff {filename : String}
    : transferName filename (truncate (identity + 1)) = packetName (truncate (identity + 1 + 1)) ↔
        filename.toList.map Char.toLower = (packetName (truncate (identity + 1 + 1))).toList := by
  cases hkept : isKept filename with
  | true =>
    have hname : (transferName filename (truncate (identity + 1))).toList = filename.toList.map Char.toLower := by
      unfold isKept at hkept
      unfold transferName
      dsimp only
      rw [if_pos hkept, String.toList_ofList]
    rw [← hname]
    exact String.toList_inj.symm
  | false =>
    refine iff_of_false ?_ ?_
    . intro heq
      have hown := bears_transferName hkept (truncate (identity + 1))
      rw [heq] at hown
      have hsame := Bears.unique (Nat.mod_lt _ (by decide)) (Nat.mod_lt _ (by decide)) hown (bears_packetName _)
      omega
    . intro heq
      unfold isKept at hkept
      rw [heq, (isTransferName_packetName _).2] at hkept
      cases hkept

theorem FileObjects.consistent_iff {configuration : Configuration} {claim : Claimed}
    (h : FileObjects configuration claim file identity objects)
    : Consistent [file.data.contents] objects ↔
        ∀ filename ∈ file.data.filename, FileNamed configuration claim identity filename := by
  obtain ⟨filename, companion, tic, notices, hfilename, hname, hcontents, hcompanion, htic, hfiles, hnotices,
    hnoticeNames⟩ := h
  have hnameLower : companion.name.toList.map Char.toLower = companion.name.toList := by
    rw [hname]
    exact (isTransferName_transferName _ _).1
  have hlower : ∀ object ∈ [companion] ++ tic :: notices,
      object.name.toList.map Char.toLower = object.name.toList := by
    intro object hobject
    rcases List.mem_cons.mp hobject with rfl | hobject
    . exact hnameLower
    . rcases List.mem_cons.mp hobject with rfl | hobject
      . rw [htic]
        exact lower_ticName hnameLower
      . have hmem : object.name ∈ notices.map (·.name) := List.mem_map_of_mem hobject
        rw [hnoticeNames] at hmem
        split at hmem
        . rw [List.mem_singleton.mp hmem]
          exact (isTransferName_packetName _).1
        . cases hmem
  have hfound : List.Forall₂ (fun file bytes => ∃ other ∈ [companion], other.name.toList = file ∧ other.contents = bytes)
      [companion.name.toList] [file.data.contents] :=
    .cons ⟨companion, List.mem_singleton_self _, rfl, hcontents⟩ .nil
  have hnamed : (∀ filename ∈ file.data.filename, FileNamed configuration claim identity filename) ↔
      FileNamed configuration claim identity filename := by
    rw [hfilename]
    simp
  have htail : ticName companion.name ∉ notices.map (·.name) ∧ (notices.map (·.name)).Nodup := by
    rw [hnoticeNames]
    split
    . exact ⟨by simpa using ticName_ne_packetName _ _, List.nodup_singleton _⟩
    . exact ⟨List.not_mem_nil, List.nodup_nil⟩
  change Consistent _ ([companion] ++ tic :: notices) ↔ _
  rw [Adapter.consistent_iff hfiles (by simpa using hcompanion) hnotices, nodup_lower_iff hlower, hnamed,
    and_iff_left hfound, List.singleton_append, List.map_cons, List.map_cons, htic, List.nodup_cons, List.nodup_cons,
    and_iff_left htail, List.mem_cons, not_or, hname, transferName_eq_ticName_iff, hnoticeNames]
  constructor
  . rintro ⟨hticless, hnotice⟩
    refine ⟨hticless, ?_⟩
    intro haction heq
    rw [if_pos haction, List.mem_singleton] at hnotice
    exact hnotice (transferName_eq_packetName_iff.mpr heq)
  . rintro ⟨hticless, hnotice⟩
    refine ⟨hticless, ?_⟩
    split
    . next haction =>
      rw [List.mem_singleton, transferName_eq_packetName_iff]
      exact hnotice haction
    . exact List.not_mem_nil

/--
What the objects are that an outcome of the item publishes.
-/
def ObjectsOf (configuration : Configuration) (claim : Claimed) (value : OwnedTlv) (identity : Nat)
    (outcome : Option Outcome) : Prop :=
  (∀ read, readMessage value configuration.resolver = .ok read → IfPublished (MessageObjects read identity) outcome) ∧
    ∀ file, readStandaloneFile value = .ok file → file.data.area.isSome = true →
      IfPublished (FileObjects configuration claim file identity) outcome

theorem objectsOf_of_not {configuration : Configuration} {claim : Claimed} {value : OwnedTlv} {outcome : Option Outcome}
    (h : ¬Publishes outcome)
    : ObjectsOf configuration claim value identity outcome :=
  ⟨fun _ _ => ifPublished_of_not h, fun _ _ _ => ifPublished_of_not h⟩

theorem typeCode_of_readMessage {value : OwnedTlv} {resolver : KeyResolver} (h : readMessage value resolver = .ok read)
    : value.typeCode = Types.message := by
  unfold readMessage at h
  split at h
  . cases h
  . next heq => exact not_not.mp heq

theorem typeCode_of_readStandaloneFile {value : OwnedTlv} (h : readStandaloneFile value = .ok file)
    : value.typeCode = Types.file := by
  unfold readStandaloneFile at h
  split at h
  . cases h
  . next heq => exact not_not.mp heq

theorem yields_objectsOf {around : Surroundings} {s : Surface} {c : Crypto} {base64 : Nodelist.Base64}
    {settings : Settings} {resolver : KeyResolver} {configuration : Configuration} {claim : Claimed} {value : OwnedTlv}
    (hfailure : around.failure = none) (hdefined : value.typeCode ≠ 0)
    : Yields around (planItem configuration (conversion c base64 settings resolver) claim value.encode) s
        (fun outcome _ => ObjectsOf configuration claim value s.identity outcome) := by
  have hparse : parseSequence value.encode = .ok [value] :=
    (parseSequence_eq_ok _ _).mpr ⟨by simp [concatenate], by simpa using hdefined⟩
  unfold planItem
  split
  . exact yields_throw
  . refine Yields.bind yields_result ?_
    rintro values s₁ ⟨hvalues, rfl⟩
    rw [← Except.ok.inj (hparse.symm.trans hvalues)]
    dsimp only
    split
    . next htype =>
      refine (yields_messageObjects hfailure).mono ?_
      rintro outcome s₂ ⟨read, hread, hpublished⟩
      constructor
      . intro read' hread'
        rwa [← Except.ok.inj (hread.symm.trans hread')]
      . intro file hfile
        rw [typeCode_of_readStandaloneFile hfile] at htype
        exact absurd htype (by decide)
    . next hmessage =>
      split
      . refine (yields_fileObjects hfailure).mono ?_
        rintro outcome s₂ ⟨file, hfile, hpublished⟩
        constructor
        . exact fun read hread => absurd (typeCode_of_readMessage hread) hmessage
        . intro file' hfile' harea
          rw [← Except.ok.inj (hfile.symm.trans hfile')] at harea ⊢
          exact hpublished harea
      . split
        . refine yields_planFileRequest.mono ?_
          intro outcome s₂ houtcome
          exact objectsOf_of_not houtcome
        . exact yields_throw

theorem objectsOf_of_planned {around : Surroundings} {s : Surface} {c : Crypto} {base64 : Nodelist.Base64}
    {settings : Settings} {resolver : KeyResolver} {configuration : Configuration} {claim : Claimed}
    {value : OwnedTlv} {outcome : Option Outcome}
    (hfailure : around.failure = none)
    (hplanned : (Program.evaluate Surface.act around
      (plan configuration (conversion c base64 settings resolver) claim value.encode).run s).1 = .ok outcome)
    (hdefined : value.typeCode ≠ 0)
    : ObjectsOf configuration claim value s.identity outcome := by
  refine yields_plan_of_item (yields_objectsOf hfailure hdefined) ?_ ?_ _ hplanned
  . exact fun outcome houtcome => objectsOf_of_not houtcome
  . intro note distribution forwardable
    have hempty (P : List Publication → Prop) : IfPublished P (some (.publish [] note distribution forwardable)) := by
      rintro _ _ _ _ ⟨⟩ hne
      exact absurd rfl hne
    exact ⟨fun _ _ => hempty _, fun _ _ _ => hempty _⟩

theorem messageObjects_of_planned {around : Surroundings} {s : Surface} {c : Crypto} {base64 : Nodelist.Base64}
    {settings : Settings} {resolver : KeyResolver} {configuration : Configuration} {claim : Claimed} {value : OwnedTlv}
    {objects : List Publication} {note : String} {distribution : Option String} {forwardable : Bool}
    (hfailure : around.failure = none)
    (hplanned : (Program.evaluate Surface.act around
      (plan configuration (conversion c base64 settings resolver) claim value.encode).run s).1 =
        .ok (some (.publish objects note distribution forwardable)))
    (hobjects : objects ≠ []) {read : ReadMessage} (hread : readMessage value configuration.resolver = .ok read)
    : MessageObjects read s.identity objects := by
  have hdefined : value.typeCode ≠ 0 := by
    rw [typeCode_of_readMessage hread]
    decide
  exact (objectsOf_of_planned hfailure hplanned hdefined).1 read hread _ _ _ _ rfl hobjects

/--
What is published for a Message or a distribution File is a consistent set exactly if the files have names that the
adapter keeps as they are, and that differ from each other and from the names it gives.
-/
theorem published_consistent_iff (c : Crypto) (base64 : Nodelist.Base64) (settings : Settings)
    (configuration : Configuration) (claim : Claimed) (value : OwnedTlv) (around : Surroundings) (s : Surface)
    (objects : List Publication) (note : String)
    (distribution : Option String) (forwardable : Bool) (hfailure : around.failure = none)
    (hplanned : (Program.evaluate Surface.act around
      (plan configuration (conversion c base64 settings configuration.resolver) claim value.encode).run s).1 =
        .ok (some (.publish objects note distribution forwardable)))
    (hobjects : objects ≠ [])
    : (∀ read, readMessage value configuration.resolver = .ok read →
        (Consistent (read.data.attachments.map (·.contents)) objects ↔ MessageNamed read s.identity)) ∧
      (∀ file, readStandaloneFile value = .ok file → file.data.area.isSome = true →
        (Consistent [file.data.contents] objects ↔
          ∀ filename ∈ file.data.filename, FileNamed configuration claim s.identity filename)) := by
  constructor
  . intro read hread
    exact (messageObjects_of_planned hfailure hplanned hobjects hread).consistent_iff
  . intro file hfile harea
    have hdefined : value.typeCode ≠ 0 := by
      rw [typeCode_of_readStandaloneFile hfile]
      decide
    exact ((objectsOf_of_planned hfailure hplanned hdefined).2 file hfile harea _ _ _ _ rfl hobjects).consistent_iff

end Claim

/-!
A NetMail for the node itself with one attached file, which a world without any record of it plans.
-/

namespace AttachedFile

open LocalNetMail (crypto base64 resolver configuration settings around)

def message (filename : String) : OwnedTlv :=
  carrierValue Types.message (concatenate
    [ carrierValue Types.origin (Bytes.ofString "fidonet#1:104/7"),
      carrierValue Types.destination (Bytes.ofString "fidonet#1:104/1"),
      carrierValue Types.timestamp [1],
      carrierValue Types.toUserName (Bytes.ofString "Sysop"),
      carrierValue Types.fromUserName (Bytes.ofString "User"),
      carrierValue Types.subject [],
      carrierValue Types.messageText (Bytes.ofString "Hello\n"),
      carrierValue Types.file (concatenate
        [ carrierValue Types.filename (Bytes.ofString filename),
          carrierValue Types.contents [1] ]),
      carrierValue Types.requestIdentifier [1],
      carrierValue Types.via (concatenate
        [ carrierValue Types.address (Bytes.ofString "fidonet#1:104/36"),
          carrierValue Types.timestamp [1] ]) ])

def planned (filename : String) : Except InboundError (Option Outcome) :=
  (Program.evaluate Surface.act around
    (plan configuration (conversion crypto base64 settings configuration.resolver) LocalNetMail.claim
      (message filename).encode).run
    Surface.empty).1

def published (filename : String) : Option (List Publication) :=
  match planned filename with
  | .ok (some (.publish objects _ _ _)) => some objects
  | _ => none

theorem planned_of_published {filename : String} {objects : List Publication} (h : published filename = some objects)
    : ∃ note distribution forwardable,
        planned filename = .ok (some (.publish objects note distribution forwardable)) := by
  unfold published at h
  split at h
  . next objects' note distribution forwardable heq =>
    injection h with h
    exact ⟨note, distribution, forwardable, h ▸ heq⟩
  . cases h

end AttachedFile

/-!
A NetMail with two attached files and a File of an area, planned like the one above.
-/

namespace AttachedFiles

open LocalNetMail (crypto base64 resolver configuration around)

def settings : Settings := ⟨"fidonet", .preserve, "tith", "0.1", (∅ : Table String String).insert "NEWS" "NEWS"⟩

def via : OwnedTlv :=
  carrierValue Types.via (concatenate
    [carrierValue Types.address (Bytes.ofString "fidonet#1:104/36"), carrierValue Types.timestamp [1]])

def attached (filename : String) (contents : List UInt8) : OwnedTlv :=
  carrierValue Types.file (concatenate
    [carrierValue Types.filename (Bytes.ofString filename), carrierValue Types.contents contents])

def message : OwnedTlv :=
  carrierValue Types.message (concatenate
    [ carrierValue Types.origin (Bytes.ofString "fidonet#1:104/7"),
      carrierValue Types.destination (Bytes.ofString "fidonet#1:104/1"),
      carrierValue Types.timestamp [1],
      carrierValue Types.toUserName (Bytes.ofString "Sysop"),
      carrierValue Types.fromUserName (Bytes.ofString "User"),
      carrierValue Types.subject [],
      carrierValue Types.messageText (Bytes.ofString "Hello\n"),
      attached "first.zip" [1],
      attached "second.zip" [2, 3],
      carrierValue Types.requestIdentifier [1],
      via ])

def distribution : OwnedTlv :=
  carrierValue Types.file (concatenate
    [ carrierValue Types.filename (Bytes.ofString "news.zip"),
      carrierValue Types.contents [4, 5],
      carrierValue Types.area (concatenate [carrierValue Types.areaName (Bytes.ofString "NEWS")]),
      carrierValue Types.origin (Bytes.ofString "fidonet#1:104/7"),
      carrierValue Types.requestIdentifier [1],
      via,
      carrierValue Types.seenBy (Bytes.ofString "fidonet#1:104/7") ])

def planned (value : OwnedTlv) : Except InboundError (Option Outcome) :=
  (Program.evaluate Surface.act around
    (plan configuration (conversion crypto base64 settings configuration.resolver) LocalNetMail.claim value.encode).run
    Surface.empty).1

def names (value : OwnedTlv) : Option (List String) :=
  match planned value with
  | .ok (some (.publish objects _ _ _)) => some (objects.map (·.name))
  | _ => none

theorem planned_of_names {value : OwnedTlv} {name : String} {rest : List String} (h : names value = some (name :: rest))
    : ∃ objects note distribution forwardable,
        planned value = .ok (some (.publish objects note distribution forwardable)) ∧
        objects.map (·.name) = name :: rest ∧ objects ≠ [] := by
  unfold names at h
  split at h
  . next objects note distribution forwardable heq =>
    injection h with h
    refine ⟨objects, note, distribution, forwardable, heq, h, ?_⟩
    rintro rfl
    cases h
  . cases h

end AttachedFiles

open AttachedFiles in
theorem published_consistent_attachedFiles
    : (∃ objects read, readMessage message LocalNetMail.resolver = .ok read ∧
        objects.map (·.name) = ["first.zip", "second.zip", "00000003.pkt"] ∧
        Consistent (read.data.attachments.map (·.contents)) objects) ∧
      ∃ objects file, readStandaloneFile distribution = .ok file ∧
        objects.map (·.name) = ["news.zip", "news.tic", "00000002.pkt"] ∧ Consistent [file.data.contents] objects := by
  constructor
  . have hfilenames : (readMessage message LocalNetMail.resolver).map
        (fun read => read.data.attachments.filterMap (·.filename)) = .ok ["first.zip", "second.zip"] := by
      decide +kernel
    obtain ⟨read, hread, hattached⟩ := Except.map_eq_ok.mp hfilenames
    obtain ⟨objects, note, distribution, forwardable, hplanned, hnames, hne⟩ := @planned_of_names message _ _
      (show names message = some ["first.zip", "second.zip", "00000003.pkt"] by decide +kernel)
    refine ⟨objects, read, hread, hnames, ((published_consistent_iff LocalNetMail.crypto LocalNetMail.base64 settings
      LocalNetMail.configuration LocalNetMail.claim message LocalNetMail.around Surface.empty objects note distribution
      forwardable rfl hplanned hne).1 read hread).mpr ⟨?_, ?_, ?_⟩⟩
    . rw [hattached]
      simp only [List.mem_cons, List.not_mem_nil, or_false, forall_eq_or_imp, forall_eq]
      exact ⟨⟨by decide, by decide⟩, by decide, by decide⟩
    . rw [hattached]
      decide
    . rw [hattached]
      decide
  . have hfilename : (readStandaloneFile distribution).map (fun file => (file.data.filename, file.data.area.isSome)) =
        .ok (some "news.zip", true) := by
      decide +kernel
    obtain ⟨file, hfile, hdata⟩ := Except.map_eq_ok.mp hfilename
    obtain ⟨hname, harea⟩ := Prod.mk.inj hdata
    obtain ⟨objects, note, tag, forwardable, hplanned, hnames, hne⟩ := @planned_of_names distribution _ _
      (show names distribution = some ["news.zip", "news.tic", "00000002.pkt"] by decide +kernel)
    refine ⟨objects, file, hfile, hnames, ((published_consistent_iff LocalNetMail.crypto LocalNetMail.base64 settings
      LocalNetMail.configuration LocalNetMail.claim distribution LocalNetMail.around Surface.empty objects note tag
      forwardable rfl hplanned hne).2 file hfile harea).mpr ?_⟩
    rw [hname]
    rintro _ ⟨⟩
    exact ⟨by decide, fun _ => by decide⟩

/--
The Subject names a file in capital letters, and the file is published in small ones.
-/
theorem published_inconsistent_attachedFile
    : ∃ objects read, (∃ item, validateItem LocalNetMail.crypto (AttachedFile.message "WORK.ZIP")
          LocalNetMail.resolver = .ok (some item)) ∧
        readMessage (AttachedFile.message "WORK.ZIP") LocalNetMail.configuration.resolver = .ok read ∧
        AttachedFile.published "WORK.ZIP" = some objects ∧
        ¬Consistent (read.data.attachments.map (·.contents)) objects := by
  have hlength : (AttachedFile.published "WORK.ZIP").map List.length = some 2 := by decide +kernel
  obtain ⟨objects, hpublished, hlist⟩ := Option.map_eq_some_iff.mp hlength
  have hfilenames : (readMessage (AttachedFile.message "WORK.ZIP") LocalNetMail.resolver).map
      (fun read => read.data.attachments.filterMap (·.filename)) = .ok ["WORK.ZIP"] := by decide +kernel
  obtain ⟨read, hread, hattached⟩ := Except.map_eq_ok.mp hfilenames
  obtain ⟨note, distribution, forwardable, hplanned⟩ := AttachedFile.planned_of_published hpublished
  have hne : objects ≠ [] := by
    rintro rfl
    cases hlist
  refine ⟨objects, read, Except.exists_of_isSome (by decide +kernel), hread, hpublished, ?_⟩
  rw [(messageObjects_of_planned rfl hplanned hne hread).consistent_iff]
  intro hnamed
  have hkept := hnamed.kept "WORK.ZIP" (by simp [hattached])
  exact absurd hkept.1 (by decide)

end Adapter

end Tith
