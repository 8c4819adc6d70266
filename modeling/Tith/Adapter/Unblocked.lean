import Tith.Adapter.AtMostOnce
import Tith.Adapter.Names

/-!
This module contains the plan of an item when nothing fails, and that an item whose earlier publications
were left behind harmlessly finds names that are free of them.
-/

namespace Tith

namespace Adapter

section Yields

/--
What a program that no one interrupts returns, if it does not fail.
-/
def Yields (around : Surroundings) (m : Io ε α) (s : Surface) (Q : α → Surface → Prop) : Prop :=
  ∀ a, (m.run.evaluate Surface.act around s).1 = .ok a → Q a (m.run.evaluate Surface.act around s).2

variable {around : Surroundings} {s : Surface}

theorem yields_pure {a : α} {Q : α → Surface → Prop} (h : Q a s) : Yields around (pure a : Io ε α) s Q := by
  intro b hb
  injection hb with hb
  subst hb
  exact h

theorem yields_throw {e : ε} {Q : α → Surface → Prop} : Yields around (throw e : Io ε α) s Q := by
  intro a ha
  cases ha

theorem yields_result {result : Except ε α} {f : ε → ε'}
    : Yields around (attempt (.done (result.mapError f))) s (fun a s' => result = .ok a ∧ s' = s) := by
  intro a ha
  refine ⟨?_, rfl⟩
  cases result with
  | ok b =>
    injection ha with ha
    rw [ha]
  | error e => cases ha

theorem Yields.bind {m : Io ε α} {f : α → Io ε β} {Q : α → Surface → Prop} {Q' : β → Surface → Prop}
    (hm : Yields around m s Q) (hf : ∀ a s', Q a s' → Yields around (f a) s' Q')
    : Yields around (m >>= f) s Q' := by
  intro b hb
  have hrun : (m >>= f).run = m.run >>= ExceptT.bindCont f := rfl
  rw [hrun, Program.evaluate_bind] at hb ⊢
  cases hresult : (m.run.evaluate Surface.act around s).1 with
  | ok a =>
    rw [hresult] at hb
    exact hf a _ (hm a hresult) b hb
  | error e =>
    rw [hresult] at hb
    cases hb

theorem yields_lift {p : Program Op Op.Reply α} {Q : α → Surface → Prop}
    (h : Q (p.evaluate Surface.act around s).1 (p.evaluate Surface.act around s).2)
    : Yields around (liftM p : Io ε α) s Q := by
  intro a ha
  have hrun : (liftM p : Io ε α).run = p >>= fun a => pure (.ok a) := rfl
  rw [hrun, Program.evaluate_bind] at ha ⊢
  injection ha with ha
  subst ha
  exact h

theorem yields_adapt {m : Io ε α} {f : ε → ε'} {Q : α → Surface → Prop} (h : Yields around m s Q)
    : Yields around (ExceptT.adapt f m) s Q := by
  intro a ha
  have hrun : (ExceptT.adapt f m).run = m.run >>= fun result => pure (result.mapError f) := rfl
  rw [hrun, Program.evaluate_bind] at ha ⊢
  cases hresult : (m.run.evaluate Surface.act around s).1 with
  | ok b =>
    rw [hresult] at ha
    injection ha with ha
    subst ha
    exact h b hresult
  | error e =>
    rw [hresult] at ha
    cases ha

theorem Yields.mono {m : Io ε α} {Q Q' : α → Surface → Prop} (h : Yields around m s Q)
    (himp : ∀ a s', Q a s' → Q' a s')
    : Yields around m s Q' := by
  intro a ha
  exact himp a _ (h a ha)

theorem yields_true (m : Io ε α) : Yields around m s (fun _ _ => True) := fun _ _ => trivial

end Yields

section Plan

variable {around : Surroundings} {s : Surface} {configuration : Configuration} {conversion : Conversion}
  {claim : Claimed}

theorem yields_nextIdentity (hfailure : around.failure = none)
    : Yields around nextIdentity s (fun identity s' => identity = s.identity + 1 ∧ s'.identity = s.identity + 1) := by
  apply yields_adapt
  intro identity hidentity
  have hact : s.act .nextIdentity around = (.ok (s.identity + 1), { s with identity := s.identity + 1 }) := by
    unfold Surface.act
    rw [hfailure]
    rfl
  have hrun : ((attempt (issue .nextIdentity)).run.evaluate Surface.act around s) = s.act .nextIdentity around := rfl
  rw [hrun, hact] at hidentity ⊢
  injection hidentity with hidentity
  exact ⟨hidentity.symm, rfl⟩

theorem yields_clock
    : Yields around (liftM (issue .clock) : Io ε Int) s (fun _ s' => s'.identity = s.identity) := by
  apply yields_lift
  have hrun : (issue .clock).evaluate Surface.act around s = s.act .clock around := rfl
  rw [hrun]
  unfold Surface.act
  cases around.failure <;> rfl

theorem yields_converted {result : Except String α}
    : Yields around (converted result) s (fun _ s' => s'.identity = s.identity) := by
  intro a _
  rfl

theorem yields_attachmentObjects (hfailure : around.failure = none) (attachments : List AttachmentData)
    : Yields around (attachmentObjects attachments) s (fun objects s' =>
        objects.map (·.name) = attachmentNames (attachments.filterMap (·.filename)) s.identity ∧
        s'.identity = s.identity + (attachments.filterMap (·.filename)).length) := by
  induction attachments generalizing s with
  | nil => exact yields_pure ⟨rfl, rfl⟩
  | cons attachment rest ih =>
    refine Yields.bind (yields_nextIdentity hfailure) ?_
    rintro identity s₁ ⟨rfl, hs₁⟩
    cases hfilename : attachment.filename with
    | none => exact yields_throw
    | some filename =>
      refine Yields.bind ih ?_
      rintro objects s₂ ⟨hobjects, hs₂⟩
      rw [hs₁] at hobjects hs₂
      apply yields_pure
      simp only [List.filterMap_cons, hfilename, List.map_cons, List.length_cons]
      exact ⟨by rw [hobjects]; rfl, by omega⟩

theorem yields_administrativeNotice (hfailure : around.failure = none) {link : Link}
    {recipient subject kind label : String}
    : Yields around (administrativeNotice conversion claim link recipient subject kind label) s
        (fun notice _ => notice.name = packetName (truncate (s.identity + 1))) := by
  unfold administrativeNotice
  refine Yields.bind yields_clock ?_
  intro now s₁ hs₁
  refine Yields.bind yields_converted ?_
  intro contents s₂ hs₂
  refine Yields.bind (yields_nextIdentity hfailure) ?_
  rintro identity s₃ ⟨rfl, _⟩
  apply yields_pure
  rw [hs₂, hs₁]

/--
The names of an outcome that publishes are the names of a plan.
-/
def Names (c : Companions) (identity : Nat) (outcome : Option Outcome) : Prop :=
  ∀ objects note distribution forwardable, outcome = some (.publish objects note distribution forwardable) →
    NamesOf c identity (objects.map (·.name))

theorem names_of_ne {c : Companions} {identity : Nat} {outcome : Option Outcome}
    (h : ∀ objects note distribution forwardable, outcome ≠ some (.publish objects note distribution forwardable))
    : Names c identity outcome := by
  intro objects note distribution forwardable heq
  exact absurd heq (h objects note distribution forwardable)

theorem names_publish {c : Companions} {identity : Nat} {objects : List Publication} {note : String}
    {distribution : Option String} {forwardable : Bool} (h : NamesOf c identity (objects.map (·.name)))
    : Names c identity (some (.publish objects note distribution forwardable)) := by
  rintro objects' note' distribution' forwardable' heq
  injection heq with heq
  injection heq with hobjects
  subst hobjects
  exact h

theorem yields_planMessage (hfailure : around.failure = none) {payload : List UInt8} {item : OwnedTlv} {link : Link}
    : Yields around (planMessage configuration conversion claim payload item link) s (fun outcome _ =>
        ∃ read, readMessage item configuration.resolver = .ok read ∧
          Names ⟨read.data.attachments.filterMap (·.filename), false⟩ s.identity outcome) := by
  unfold planMessage
  refine Yields.bind yields_result ?_
  rintro read s₁ ⟨hread, rfl⟩
  by_cases haction : configuration.policy.action claim.authentication = .orphan
  . -- An orphan publishes nothing.
    refine Yields.bind (yields_true _) ?_
    intro notice s₂ _
    simp only [haction, if_true]
    split
    . exact yields_pure ⟨read, hread, names_of_ne (by simp [orphaned])⟩
    . refine Yields.bind (yields_true _) ?_
      intro companions s₃ _
      refine Yields.bind (yields_true _) ?_
      intro identity s₄ _
      refine Yields.bind (yields_true _) ?_
      intro now s₅ _
      refine Yields.bind (yields_true _) ?_
      intro contents s₆ _
      exact yields_pure ⟨read, hread, names_of_ne (by simp [orphaned])⟩
  . have hnotice : Yields around (messageNotice configuration conversion claim link read.data.subject) s₁
        (fun _ s' => s' = s₁) := by
      unfold messageNotice
      rw [if_neg haction]
      exact yields_pure rfl
    refine Yields.bind hnotice ?_
    rintro notice s₂ rfl
    simp only [haction, if_false]
    split
    . exact yields_pure ⟨read, hread, names_of_ne (by simp [refuse])⟩
    . refine Yields.bind (yields_attachmentObjects hfailure read.data.attachments) ?_
      rintro companions s₃ ⟨hcompanions, hs₃⟩
      refine Yields.bind (yields_nextIdentity hfailure) ?_
      rintro identity s₄ ⟨rfl, _⟩
      refine Yields.bind (yields_true _) ?_
      intro now s₅ _
      refine Yields.bind (yields_true _) ?_
      intro contents s₆ _
      refine yields_pure ⟨read, hread, names_publish ?_⟩
      rw [List.map_append, hcompanions, hs₃]
      have hlast : s₂.identity + (read.data.attachments.filterMap (·.filename)).length + 1 =
          s₂.identity + 1 + (read.data.attachments.filterMap (·.filename)).length := by omega
      rw [hlast]
      exact .message rfl

theorem yields_fileNotice (hfailure : around.failure = none)
    (haction : configuration.policy.action claim.authentication ≠ .orphan) {link : Link} {name : String}
    : Yields around (fileNotice configuration conversion claim link name) s (fun notice _ =>
        notice.toList.map (·.name) = [] ∨ notice.toList.map (·.name) = [packetName (truncate (s.identity + 1))]) := by
  unfold fileNotice
  split
  . refine Yields.bind (yields_administrativeNotice hfailure) ?_
    intro notice s₁ hname
    apply yields_pure
    right
    simp [hname]
  . next h => exact absurd h haction
  . exact yields_pure (.inl rfl)

theorem yields_planFile (hfailure : around.failure = none) {payload : List UInt8} {item : OwnedTlv} {link : Link}
    : Yields around (planFile configuration conversion claim payload item link) s (fun outcome _ =>
        ∃ read, readStandaloneFile item = .ok read ∧
          Names ⟨read.data.filename.toList, read.data.area.isSome⟩ s.identity outcome) := by
  unfold planFile
  refine Yields.bind yields_result ?_
  rintro read s₁ ⟨hread, rfl⟩
  dsimp only
  cases hfilename : read.data.filename with
  | none => exact yields_pure ⟨read, hread, names_of_ne (by simp [refuse])⟩
  | some filename =>
    refine Yields.bind (yields_nextIdentity hfailure) ?_
    rintro identity s₂ ⟨rfl, hs₂⟩
    by_cases haction : configuration.policy.action claim.authentication = .orphan
    . refine Yields.bind (yields_true _) ?_
      intro notice s₃ _
      simp only [haction, if_true]
      split
      . exact yields_pure ⟨read, hread, names_of_ne (by simp [orphaned])⟩
      . split
        . exact yields_pure ⟨read, hread, names_of_ne (by simp [orphaned])⟩
        . exact yields_pure ⟨read, hread, names_of_ne (by simp [orphaned])⟩
    . refine Yields.bind (yields_fileNotice hfailure haction) ?_
      intro notice s₃ hnotice
      rw [hs₂] at hnotice
      simp only [haction, if_false]
      cases harea : read.data.area with
      | none =>
        refine yields_pure ⟨read, hread, names_publish ?_⟩
        rw [hfilename, harea]
        exact .file filename rfl _ hnotice
      | some area =>
        dsimp only
        split
        . exact yields_pure ⟨read, hread, names_of_ne (by simp [refuse])⟩
        . refine Yields.bind (yields_true _) ?_
          intro distribution s₄ _
          refine yields_pure ⟨read, hread, names_publish ?_⟩
          rw [hfilename, harea]
          exact .file filename rfl _ hnotice

def Publishes (outcome : Option Outcome) : Prop :=
  ∃ objects note distribution forwardable, outcome = some (.publish objects note distribution forwardable)

theorem yields_planFileRequest {item : OwnedTlv}
    : Yields around (planFileRequest configuration item) s (fun outcome _ => ¬Publishes outcome) := by
  unfold planFileRequest
  refine Yields.bind (yields_true _) ?_
  intro read s₁ _
  split
  . exact yields_pure (by simp [Publishes])
  . exact yields_pure (by simp [Publishes, refuse])

theorem yields_planItem (hfailure : around.failure = none) {payload : List UInt8}
    : Yields around (planItem configuration conversion claim payload) s (fun outcome _ =>
        Names (companions configuration.resolver payload) s.identity outcome) := by
  unfold planItem
  split
  . exact yields_throw
  . refine Yields.bind yields_result ?_
    rintro values s₁ ⟨hvalues, rfl⟩
    split
    . next item =>
      unfold companions
      simp only [hvalues]
      split
      . refine (yields_planMessage hfailure).mono ?_
        rintro outcome s₂ ⟨read, hread, hnames⟩
        rw [hread]
        exact hnames
      . split
        . refine (yields_planFile hfailure).mono ?_
          rintro outcome s₂ ⟨read, hread, hnames⟩
          rw [hread]
          exact hnames
        . split
          . refine yields_planFileRequest.mono ?_
            intro outcome s₂ houtcome
            apply names_of_ne
            rintro objects note distribution forwardable rfl
            exact houtcome ⟨objects, note, distribution, forwardable, rfl⟩
          . exact yields_throw
    . exact yields_throw

theorem yields_getRecord {id : String}
    : Yields around (attempt (issue (.getRecord id))) s (fun _ s' => s' = s) := by
  intro a _
  have hrun : ((attempt (issue (.getRecord id))).run.evaluate Surface.act around s) = s.act (.getRecord id) around := rfl
  rw [hrun]
  unfold Surface.act
  cases around.failure <;> rfl

theorem yields_getOrphan {id : String}
    : Yields around (attempt (issue (.getOrphan id))) s (fun _ s' => s' = s) := by
  intro a _
  have hrun : ((attempt (issue (.getOrphan id))).run.evaluate Surface.act around s) = s.act (.getOrphan id) around := rfl
  rw [hrun]
  unfold Surface.act
  cases around.failure <;> rfl

theorem yields_pendingOrphanNotice
    : Yields around (pendingOrphanNotice claim) s (fun outcome s' => s' = s ∧ ¬Publishes outcome) := by
  unfold pendingOrphanNotice
  refine Yields.bind yields_getOrphan ?_
  rintro found s₁ rfl
  split
  . exact yields_pure ⟨rfl, by simp [Publishes]⟩
  . split
    . exact yields_pure ⟨rfl, by simp [Publishes]⟩
    . split
      . exact yields_pure ⟨rfl, by simp [Publishes]⟩
      . exact yields_pure ⟨rfl, by simp [Publishes]⟩

section Record

variable {payload : List UInt8} {Q : Option Outcome → Prop}
  (hitem : Yields around (planItem configuration conversion claim payload) s (fun outcome _ => Q outcome))
  (hother : ∀ outcome, ¬Publishes outcome → Q outcome)
  (hempty : ∀ note distribution forwardable, Q (some (.publish [] note distribution forwardable)))

include hitem hother hempty

theorem yields_planRecord_of_item {record : Ledger.Record}
    : Yields around (planRecord configuration conversion claim payload record) s (fun outcome _ => Q outcome) := by
  unfold planRecord
  cases record.state with
  | acknowledged => exact yields_pure (hother _ (by simp [Publishes]))
  | retired =>
    refine yields_pendingOrphanNotice.mono ?_
    rintro outcome s₁ ⟨_, houtcome⟩
    exact hother _ houtcome
  | published =>
    dsimp only
    split
    . exact yields_pure (hempty _ _ _)
    . refine Yields.bind (yields_true _) ?_
      intro values s₁ _
      split
      . split
        . refine yields_planFileRequest.mono ?_
          intro outcome s₂ houtcome
          exact hother _ houtcome
        . exact yields_pure (hother _ (by simp [Publishes]))
      . exact yields_pure (hother _ (by simp [Publishes]))
  | staged =>
    dsimp only
    refine Yields.bind yields_pendingOrphanNotice ?_
    rintro outcome s₁ ⟨rfl, houtcome⟩
    cases outcome with
    | none => exact hitem
    | some outcome => exact yields_pure (hother _ houtcome)

theorem yields_plan_of_item
    : Yields around (plan configuration conversion claim payload) s (fun outcome _ => Q outcome) := by
  unfold plan
  refine Yields.bind yields_getRecord ?_
  rintro found s₁ rfl
  split
  . exact hitem
  . split
    . exact hitem
    . exact yields_planRecord_of_item hitem hother hempty

end Record

theorem yields_plan (hfailure : around.failure = none) {payload : List UInt8}
    : Yields around (plan configuration conversion claim payload) s (fun outcome _ =>
        Names (companions configuration.resolver payload) s.identity outcome) := by
  apply yields_plan_of_item (yields_planItem hfailure)
  . intro outcome hother
    apply names_of_ne
    rintro objects note distribution forwardable rfl
    exact hother ⟨objects, note, distribution, forwardable, rfl⟩
  . exact fun _ _ _ => names_publish .none

end Plan

section Unblocked

variable {site : Site} {id : String} {s : Surface}

def Site.companions (site : Site) (id : String) : Companions :=
  Adapter.companions site.configuration.resolver (site.queue id).payload

/--
The directory leaves room for the names that an attempt at the item needs.
-/
def Roomy (site : Site) (s : Surface) (id : String) : Prop :=
  (s.files.size + (site.keptNames id).length + 1) * ((site.companions id).filenames.length + 1) ≤ 2 ^ 32

theorem not_blocked (htidy : Tidy s) (hhidden : Hidden site id s.events) (hdistinct : (site.companions id).Distinct)
    (hroom : Roomy site s id)
    : ¬site.Blocked s id := by
  -- An item that has left no more than harmless companions behind is not in its own way.
  intro hblocked
  let taken := s.files.keys
  have hlength : (taken ++ site.keptNames id).length = s.files.size + (site.keptNames id).length := by
    rw [List.length_append]
    congr 1
    exact Std.ExtTreeMap.length_keys
  have hspace : ((taken ++ site.keptNames id).length + 1) * ((site.companions id).filenames.length + 1) ≤ 2 ^ 32 := by
    rw [hlength]
    exact hroom
  obtain ⟨identity, hleast, first, hbound, hidentities, hfree⟩ := exists_identity hspace s.identity
  let around : Surroundings := ⟨none, 0, 0, .notCommitted "", true⟩
  obtain ⟨objects, note, distribution, forwardable, hplanned, hclash⟩ := hblocked identity around hleast rfl
  have hnames := yields_plan rfl _ hplanned objects note distribution forwardable rfl
  obtain ⟨hnodup, hcases⟩ := hnames.fresh hdistinct rfl ⟨hbound, hidentities, hfree⟩
  rcases hclash with hdup | ⟨name, hname, file, hfile, howner⟩
  . exact hdup hnodup
  . rcases hcases name hname with hkept | ⟨k, hk, hbears⟩
    . obtain ⟨object, hobject, rfl⟩ := htidy.owned name file id hfile howner
      exact (hhidden object hobject).2 hkept
    . apply hfree name _ k hk hbears
      apply List.mem_append_left
      rw [Table.mem_keys, hfile]
      rfl

end Unblocked

end Adapter

end Tith
