import Tith.Adapter.Publishing

/-!
This module contains what the commit of a plan comes to: the item is published and the ledger says so, or
the attempt ended where that does no harm.
-/

namespace Tith

namespace Adapter

open Ledger (Record Orphan State QuarantineObject)

/--
An attempt at `id` that has not shown anything.
-/
structure Fresh (site : Site) (id : String) (s : Surface) : Prop where
  rests : Rests site s
  attempt : s.attempt = some id
  exposed : s.exposed = []

/--
The attempt at `id` is over, and its notice, if any, is out.
-/
structure Finished (site : Site) (id : String) (s : Surface) : Prop where
  rests : Rests site s
  attempt : s.attempt = some id
  noPending : NoPending id s.orphans

structure Claims (site : Site) (id : String) (claim : Claimed) : Prop where
  inboundId : claim.inboundId = id
  payloadHash : claim.payloadHash = (site.queue id).payloadHash

variable {site : Site} {id : String} {claim : Claimed} {s : Surface}

theorem Fresh.stopped (h : Fresh site id s) : Stopped site id s := ⟨h.rests, h.attempt⟩

theorem Finished.stopped (h : Finished site id s) : Stopped site id s := ⟨h.rests, h.attempt⟩

theorem assertion_fresh : Assertion site (Fresh site id) := by
  apply assertion_of_rests
  . intro s s' hsame h
    constructor
    . exact calm_rests s s' hsame h.rests
    . rw [hsame.attempt]
      exact h.attempt
    . rw [hsame.exposed]
      exact h.exposed
  . intro s hs
    exact hs.rests

theorem assertion_finished : Assertion site (Finished site id) := by
  apply assertion_of_rests
  . intro s s' hsame h
    constructor
    . exact calm_rests s s' hsame h.rests
    . rw [hsame.attempt]
      exact h.attempt
    . rw [hsame.orphans]
      exact h.noPending
  . intro s hs
    exact hs.rests

section Records

theorem settled_insert {s' : Surface} {record : Record} (h : s'.records = s.records.insert id record) (other : String)
    : s'.settled other = if id = other then decide (record.state ≠ .staged) else s.settled other := by
  unfold Surface.settled
  rw [h, Table.getElem?_insert]
  by_cases heq : id = other
  . rw [if_pos heq, if_pos heq]
  . rw [if_neg heq, if_neg heq]

theorem Fresh.staged {P : Table String Orphan → Prop} {record : Record} {orphans : Table String Orphan}
    (h : Fresh site id s) (hunsettled : s.settled id = false) (hstate : record.state = .staged)
    (hhash : record.payloadHash = (site.queue id).payloadHash)
    (horphans : ∀ other, other ≠ id → orphans[other]? = s.orphans[other]?) (hP : P orphans)
    : Publishing site id P [] [] { s with records := s.records.insert id record, orphans } := by
  have hsettled : ∀ other, other ≠ id →
      ({ s with records := s.records.insert id record, orphans } : Surface).settled other = s.settled other := by
    intro other hne
    rw [settled_insert rfl other, if_neg (fun heq => hne heq.symm)]
  have hhidden : Hidden site id s.events := by
    have := h.rests.items id
    unfold ItemRests at this
    rwa [hunsettled] at this
  have hown : ({ s with records := s.records.insert id record, orphans } : Surface).settled id = false := by
    rw [settled_insert rfl id, if_pos rfl, hstate]
    rfl
  have hmains : ∀ p : Publication → Bool, (∀ object : Publication, object.kind = .companion → p object = false) →
      (shownOf id s.events).countP p = 0 := by
    intro p hp
    rw [List.countP_eq_zero]
    intro object hobject
    simp [hp object (hhidden object hobject).1]
  constructor
  . exact h.rests.ordered
  . constructor
    . intro other record' hrecord
      obtain ⟨rfl, rfl⟩ | ⟨_, hrecord⟩ := Table.getElem?_insert_some hrecord
      . exact hhash
      . exact h.rests.books.hash other record' hrecord
    . intro other orphan horphan
      dsimp only at horphan ⊢
      by_cases hother : other = id
      . subst hother
        simp
      . rw [horphans other hother] at horphan
        rw [Table.getElem?_insert_ne _ (fun heq => hother heq.symm)]
        exact h.rests.books.recorded other orphan horphan
    . intro other hother
      by_cases heq : other = id
      . subst heq
        rw [hown] at hother
        cases hother
      . rw [hsettled other heq] at hother
        have := h.rests.books.pending other hother
        unfold NoPending at this ⊢
        rwa [horphans other heq]
  . intro other hne
    have := h.rests.items other
    unfold ItemRests at this ⊢
    rwa [hsettled other hne]
  . exact h.attempt
  . exact hown
  . exact h.exposed
  . intro object hobject
    exact .inr (hhidden object hobject)
  . rw [hmains (·.kind.isMain) (fun object hobject => by rw [hobject]; rfl)]
    rfl
  . rw [hmains (·.kind = .notice) (fun object hobject => by rw [hobject]; rfl)]
    rfl
  . exact ⟨by simp, by simp⟩
  . intro name hname
    cases hname
  . exact hP

theorem rests_settle {record : Record} {orphans : Table String Orphan} (hordered : Ordered s.events)
    (hbooks : Books site s) (hothers : ∀ other, other ≠ id → ItemRests site other s) (honce : Once id s.events)
    (horphans : ∀ other, other ≠ id → orphans[other]? = s.orphans[other]?) (hnoPending : NoPending id orphans)
    (hstate : record.state ≠ .staged) (hhash : record.payloadHash = (site.queue id).payloadHash)
    : Rests site { s with records := s.records.insert id record, orphans } := by
  -- With a record that is settled, an item whose packet has been shown at most once is at rest.
  have hsettled : ∀ other, ({ s with records := s.records.insert id record, orphans } : Surface).settled other =
      if id = other then decide (record.state ≠ .staged) else s.settled other := settled_insert rfl
  constructor
  . exact hordered
  . constructor
    . intro other record' hrecord
      obtain ⟨rfl, rfl⟩ | ⟨_, hrecord⟩ := Table.getElem?_insert_some hrecord
      . exact hhash
      . exact hbooks.hash other record' hrecord
    . intro other orphan horphan
      dsimp only at horphan ⊢
      rw [Table.getElem?_insert]
      split
      . simp
      . next hne =>
        rw [horphans other (fun heq => hne heq.symm)] at horphan
        exact hbooks.recorded other orphan horphan
    . intro other hother
      by_cases heq : id = other
      . subst heq
        exact hnoPending
      . rw [hsettled, if_neg heq] at hother
        have := hbooks.pending other hother
        unfold NoPending at this ⊢
        rwa [horphans other (fun h => heq h.symm)]
  . intro other
    unfold ItemRests
    rw [hsettled]
    by_cases heq : id = other
    . subst heq
      rw [if_pos rfl, decide_eq_true hstate]
      exact honce
    . rw [if_neg heq]
      exact hothers other (fun h => heq h.symm)

theorem rests_amend {record record' : Record} (h : Rests site s) (hrecord : s.records[id]? = some record)
    (hstate : record'.state = record.state) (hhash : record'.payloadHash = record.payloadHash)
    : Rests site { s with records := s.records.insert id record' } := by
  have hsettled : ∀ other, ({ s with records := s.records.insert id record' } : Surface).settled other =
      s.settled other := by
    intro other
    rw [settled_insert rfl other]
    by_cases heq : id = other
    . subst heq
      unfold Surface.settled
      rw [if_pos rfl, hrecord, hstate]
    . rw [if_neg heq]
  constructor
  . exact h.ordered
  . constructor
    . intro other record'' hother
      obtain ⟨rfl, rfl⟩ | ⟨_, hother⟩ := Table.getElem?_insert_some hother
      . rw [hhash]
        exact h.books.hash id record hrecord
      . exact h.books.hash other record'' hother
    . intro other orphan horphan
      dsimp only at horphan ⊢
      rw [Table.getElem?_insert]
      split
      . simp
      . exact h.books.recorded other orphan horphan
    . intro other hother
      rw [hsettled] at hother
      exact h.books.pending other hother
  . intro other
    have := h.items other
    unfold ItemRests at this ⊢
    rwa [hsettled]

end Records

section Amend

theorem Tidy.records (h : Tidy s) (records : Table String Record) (orphans : Table String Orphan)
    : Tidy { s with records, orphans } :=
  ⟨h.owned, h.foreign, h.unrelated, h.fresh, h.numbered⟩

theorem ensuresIo_advance {R : Surface → Prop} (hR : Assertion site R) {state : State} (hstate : state ≠ .staged)
    (hready : ∀ s, R s → Books site s ∧ (∀ other, other ≠ id → ItemRests site other s) ∧ Once id s.events ∧
      Ordered s.events ∧ s.attempt = some id ∧ NoPending id s.orphans)
    (hstop : ∀ s, R s → Harmless site s → Stopped site id s)
    : EnsuresIo site R (attempt (issue (.advance id state))) (fun _ => Finished site id) (Stopped site id) := by
  apply ensures_issue hR
  . intro r
    cases r with
    | ok _ => exact assertion_finished
    | error _ => exact assertion_stopped
  . intro s around htidy hs hharmless
    obtain ⟨hbooks, hothers, honce, hordered, hattempt, hnoPending⟩ := hready s hs
    unfold Surface.act at hharmless ⊢
    cases hfailure : around.failure with
    | some text =>
      simp only [hfailure, Surface.fail] at hharmless ⊢
      exact ⟨htidy, hstop s hs (hharmless rfl)⟩
    | none =>
      simp only [hfailure, Surface.perform, Surface.amend] at hharmless ⊢
      cases hrecord : s.records[id]? with
      | none =>
        simp only [hrecord] at hharmless
        exact ⟨htidy, hstop s hs (hharmless rfl)⟩
      | some record =>
        refine ⟨htidy.records _ _, ?_, hattempt, hnoPending⟩
        exact rests_settle hordered hbooks hothers honce (fun _ _ => rfl) hnoPending hstate
          (hbooks.hash id record hrecord)

theorem ensuresIo_advance_publishing {shown : List Publication} {completed : List String} {state : State}
    (hstate : state ≠ .staged)
    : EnsuresIo site (Publishing site id (NoPending id) shown completed) (attempt (issue (.advance id state)))
        (fun _ => Finished site id) (Stopped site id) := by
  apply ensuresIo_advance assertion_publishing hstate
  . intro s hs
    exact ⟨hs.books, hs.others, hs.once id, hs.ordered, hs.attempt, hs.orphans⟩
  . intro s hs hharmless
    exact hs.stopped hharmless

theorem ensuresIo_advance_finished {state : State} (hstate : state ≠ .staged)
    : EnsuresIo site (Finished site id) (attempt (issue (.advance id state))) (fun _ => Finished site id)
        (Stopped site id) := by
  apply ensuresIo_advance assertion_finished hstate
  . intro s hs
    exact ⟨hs.rests.books, fun other _ => hs.rests.items other, (hs.rests.items id).once, hs.rests.ordered,
      hs.attempt, hs.noPending⟩
  . intro s hs _
    exact hs.stopped

theorem ensuresIo_recordForward (jobId : String)
    : EnsuresIo site (Finished site id) (attempt (issue (.recordForward id jobId))) (fun _ => Finished site id)
        (Stopped site id) := by
  apply ensures_issue assertion_finished
  . intro r
    cases r with
    | ok _ => exact assertion_finished
    | error _ => exact assertion_stopped
  . intro s around htidy hs hharmless
    unfold Surface.act at hharmless ⊢
    cases around.failure with
    | some text => exact ⟨htidy, hs.stopped⟩
    | none =>
      simp only [Surface.perform, Surface.amend]
      cases hrecord : s.records[id]? with
      | none => exact ⟨htidy, hs.stopped⟩
      | some record =>
        exact ⟨htidy.records _ _, rests_amend hs.rests hrecord rfl rfl, hs.attempt, hs.noPending⟩

end Amend

/--
An attempt at an item that may be published.
-/
structure Ready (site : Site) (id : String) (s : Surface) : Prop where
  fresh : Fresh site id s
  unsettled : s.settled id = false
  noPending : NoPending id s.orphans

theorem assertion_ready : Assertion site (Ready site id) := by
  apply assertion_of_rests
  . intro s s' hsame h
    constructor
    . exact assertion_fresh.calm s s' hsame h.fresh
    . rw [hsame.settled]
      exact h.unsettled
    . rw [hsame.orphans]
      exact h.noPending
  . intro s hs
    exact hs.fresh.rests

theorem Fresh.hidden (h : Fresh site id s) (hunsettled : s.settled id = false) : Hidden site id s.events := by
  have := h.rests.items id
  unfold ItemRests at this
  rwa [hunsettled] at this

/--
What the commit of a plan comes to.
-/
def Committed (site : Site) (id : String) (result : Except String Unit) (s : Surface) : Prop :=
  match result with
  | .ok () => Finished site id s
  | .error _ => Stopped site id s

section Publish

theorem ensuresIo_stagePublished {objects : List Publication} {note distribution : String}
    (hclaim : Claims site id claim)
    : EnsuresIo site (Ready site id) (attempt (issue (.stage (record claim .published objects note distribution))))
        (fun _ => Finished site id) (Stopped site id) := by
  apply ensures_issue assertion_ready
  . intro r
    cases r with
    | ok _ => exact assertion_finished
    | error _ => exact assertion_stopped
  . intro s around htidy hs hharmless
    unfold Surface.act
    cases around.failure with
    | some text => exact ⟨htidy, hs.fresh.stopped⟩
    | none =>
      refine ⟨htidy.records _ _, ?_⟩
      dsimp only [Surface.perform, record]
      rw [hclaim.inboundId]
      refine ⟨?_, hs.fresh.attempt, hs.noPending⟩
      have honce := once_of_hidden (hs.fresh.hidden hs.unsettled)
      exact rests_settle hs.fresh.rests.ordered hs.fresh.rests.books (fun other _ => hs.fresh.rests.items other)
        honce (fun _ _ => rfl) hs.noPending State.noConfusion hclaim.payloadHash

theorem ensuresIo_stageStaged {objects : List Publication} {note distribution : String}
    (hclaim : Claims site id claim)
    : EnsuresIo site (Ready site id) (attempt (issue (.stage (record claim .staged objects note distribution))))
        (fun _ => Publishing site id (NoPending id) [] []) (Stopped site id) := by
  apply ensures_issue assertion_ready
  . intro r
    cases r with
    | ok _ => exact assertion_publishing
    | error _ => exact assertion_stopped
  . intro s around htidy hs hharmless
    unfold Surface.act
    cases around.failure with
    | some text => exact ⟨htidy, hs.fresh.stopped⟩
    | none =>
      refine ⟨htidy.records _ _, ?_⟩
      dsimp only [Surface.perform, record]
      rw [hclaim.inboundId]
      exact hs.fresh.staged hs.unsettled rfl hclaim.payloadHash (fun _ _ => rfl) hs.noPending

theorem ensuresIo_commitPublish {objects : List Publication} {note distribution : String}
    (hclaim : Claims site id claim) (harranged : Arranged [] objects) (hone : AtMostOne objects)
    : EnsuresIo site (Ready site id) (commitPublish claim objects note distribution) (Committed site id)
        (Stopped site id) := by
  unfold commitPublish
  apply EnsuresIo.bind assertion_stopped
    (ensuresIo_adapt (fun _ => assertion_publishing) assertion_stopped (ensuresIo_stageStaged hclaim))
  intro _
  have hends : ∀ result : Except String (Except String Unit), Assertion site
      (Ends (AllClaimed site id (NoPending id) objects.reverse (objects.map (·.name)).reverse) (Stopped site id)
        result) := by
    intro result
    match result with
    | .ok result => exact assertion_allClaimed result
    | .error _ => exact assertion_stopped
  apply EnsuresIo.bind assertion_stopped (ensuresIo_lift hends (ensuresIo_publish harranged hone))
  intro result
  match result with
  | .ok (.ok ()) =>
    rw [hclaim.inboundId]
    apply EnsuresIo.bind assertion_stopped (ensuresIo_advance_publishing State.noConfusion)
    intro _
    exact ensuresIo_pure assertion_finished (fun s hs => hs)
  | .ok (.error taken) => exact ensuresIo_pure assertion_stopped (fun s hs => hs)
  | .error text => exact ensuresIo_pure assertion_stopped (fun s hs => hs)

end Publish

section Orphan

variable {notice : Publication} {P : Table String Orphan → Prop}

/--
Taking an orphan over: without a notice the item is settled, with one the attempt starts.
-/
def TakenOver (site : Site) (id : String) (notice : Option Publication) (s : Surface) : Prop :=
  match notice with
  | none => Finished site id s
  | some _ => Publishing site id (fun _ => True) [] [] s

theorem assertion_takenOver (notice : Option Publication) : Assertion site (TakenOver site id notice) := by
  cases notice with
  | none => exact assertion_finished
  | some _ => exact assertion_publishing

theorem noPending_insert {orphans : Table String Orphan} {orphan : Orphan} (h : orphan.notice = none)
    : NoPending id (orphans.insert id orphan) := by
  intro orphan' notice horphan hnotice
  rw [Table.getElem?_insert, if_pos rfl] at horphan
  injection horphan with horphan
  subst horphan
  rw [h] at hnotice
  cases hnotice

theorem noPending_published {orphans : Table String Orphan} {orphan : Orphan} (h : orphan.noticePublished = true)
    : NoPending id (orphans.insert id orphan) := by
  intro orphan' notice horphan _
  rw [Table.getElem?_insert, if_pos rfl] at horphan
  injection horphan with horphan
  rw [← horphan, h]

/--
An attempt at an item that the ledger has not got as settled.
-/
structure Open (site : Site) (id : String) (s : Surface) : Prop where
  fresh : Fresh site id s
  unsettled : s.settled id = false

theorem assertion_open : Assertion site (Open site id) := by
  apply assertion_of_rests
  . intro s s' hsame h
    constructor
    . exact assertion_fresh.calm s s' hsame h.fresh
    . rw [hsame.settled]
      exact h.unsettled
  . intro s hs
    exact hs.fresh.rests

theorem Open.publishing (h : Open site id s) : Publishing site id (fun _ => True) [] [] s where
  ordered := h.fresh.rests.ordered
  books := h.fresh.rests.books
  others := fun other _ => h.fresh.rests.items other
  attempt := h.fresh.attempt
  unsettled := h.unsettled
  exposed := h.fresh.exposed
  seen := fun object hobject => .inr (h.fresh.hidden h.unsettled object hobject)
  mains := by
    rw [List.countP_eq_zero.mpr]
    . rfl
    . intro object hobject
      simp [(h.fresh.hidden h.unsettled object hobject).1, Kind.isMain]
  notices := by
    rw [List.countP_eq_zero.mpr]
    . rfl
    . intro object hobject
      simp [(h.fresh.hidden h.unsettled object hobject).1]
  atMostOne := ⟨by simp, by simp⟩
  complete := fun name hname => by cases hname
  orphans := trivial

theorem ensuresIo_stageOrphan {reason authentication : String} {payload : List UInt8}
    {recovery : List QuarantineObject} {notice : Option Publication} {state : State} (hclaim : Claims site id claim)
    (hstate : state = if notice.isSome then .staged else .retired)
    : EnsuresIo site (Open site id)
        (attempt (issue (.stageOrphan (record claim state [] reason "") authentication payload recovery
          (notice.map quarantined))))
        (fun _ => TakenOver site id notice) (Stopped site id) := by
  apply ensures_issue assertion_open
  . intro r
    cases r with
    | ok _ => exact assertion_takenOver notice
    | error _ => exact assertion_stopped
  . intro s around htidy hs hharmless
    unfold Surface.act
    cases around.failure with
    | some text => exact ⟨htidy, hs.fresh.stopped⟩
    | none =>
      dsimp only [Surface.perform, Surface.stageOrphan, record]
      rw [hclaim.inboundId]
      cases horphan : s.orphans[id]? with
      | some existing =>
        dsimp only
        split
        . next heq =>
          refine ⟨htidy, ?_⟩
          cases notice with
          | none =>
            refine ⟨hs.fresh.rests, hs.fresh.attempt, ?_⟩
            intro orphan notice' horphan' hnotice
            rw [horphan] at horphan'
            injection horphan' with horphan'
            subst horphan'
            have := congrArg Orphan.notice heq
            simp [hnotice] at this
          | some notice => exact hs.publishing
        . exact ⟨htidy, hs.fresh.stopped⟩
      | none =>
        dsimp only
        refine ⟨htidy.records _ _, ?_⟩
        have horphans : ∀ (orphan : Orphan) other, other ≠ id →
            (s.orphans.insert id orphan)[other]? = s.orphans[other]? := by
          intro orphan other hne
          rw [Table.getElem?_insert_ne _ (fun heq => hne heq.symm)]
        cases notice with
        | none =>
          subst hstate
          refine ⟨?_, hs.fresh.attempt, ?_⟩
          . exact rests_settle hs.fresh.rests.ordered hs.fresh.rests.books (fun other _ => hs.fresh.rests.items other)
              (once_of_hidden (hs.fresh.hidden hs.unsettled)) (horphans _) (noPending_insert rfl) State.noConfusion
              hclaim.payloadHash
          . exact noPending_insert rfl
        | some notice =>
          subst hstate
          exact hs.fresh.staged hs.unsettled rfl hclaim.payloadHash (horphans _) trivial

/--
The notice is out: it has been shown, or it was found in its place.
-/
def Noticed (site : Site) (id : String) (notice : Publication) (s : Surface) : Prop :=
  Publishing site id (fun _ => True) [notice] [notice.name] s ∨ Stopped site id s

theorem assertion_noticed : Assertion site (Noticed site id notice) := assertion_publishing.or assertion_stopped

theorem ensures_noticeInPlace
    : Ensures site (Stopped site id) (noticeInPlace notice) (fun _ => Stopped site id) := by
  unfold noticeInPlace
  apply Ensures.bind (ensures_look rfl assertion_stopped)
  intro r
  have hpost : Assertion site (Heeded site (Stopped site id) (.readFinal notice.name) r) :=
    assertion_heeded assertion_stopped _ r
  match r with
  | .error _ => exact ensures_pure hpost (fun s hs => hs.1)
  | .ok contents =>
    dsimp only
    split
    . have hlook : Ensures site (Stopped site id) (issue (.removeStaging notice.name)) _ :=
        ensures_look rfl assertion_stopped
      apply Ensures.bind (hlook.mono (fun s hs => hs.1) (fun _ _ hs => hs))
      intro r'
      have hpost' : Assertion site (Heeded site (Stopped site id) (.removeStaging notice.name) r') :=
        assertion_heeded assertion_stopped _ r'
      match r' with
      | .removed => exact ensures_pure hpost' (fun s hs => hs.1)
      | .notFound => exact ensures_pure hpost' (fun s hs => hs.1)
      | .failed text => exact ensures_pure hpost' (fun s hs => hs.1)
    . exact ensures_pure hpost (fun s hs => hs.1)

/--
With the notice out, the item of the orphan may be settled.
-/
def Marked (site : Site) (id : String) (notice : Publication) (s : Surface) : Prop :=
  Publishing site id (NoPending id) [notice] [notice.name] s ∨ Finished site id s

theorem assertion_marked : Assertion site (Marked site id notice) := assertion_publishing.or assertion_finished

theorem Books.mark (h : Books site s) {orphan : Orphan} (horphan : s.orphans[id]? = some orphan)
    (hnoPending : NoPending id (s.orphans.insert id orphan'))
    : Books site { s with orphans := s.orphans.insert id orphan' } := by
  constructor
  . exact h.hash
  . intro other orphan'' hother
    obtain ⟨rfl, rfl⟩ | ⟨_, hother⟩ := Table.getElem?_insert_some hother
    . exact h.recorded id orphan horphan
    . exact h.recorded other orphan'' hother
  . intro other hother
    by_cases heq : id = other
    . subst heq
      exact hnoPending
    . have := h.pending other hother
      unfold NoPending at this ⊢
      dsimp only
      rwa [Table.getElem?_insert_ne _ heq]

theorem ensuresIo_mark
    : EnsuresIo site (Noticed site id notice) (attempt (issue (.markOrphanNoticePublished id)))
        (fun _ => Marked site id notice) (Stopped site id) := by
  have hstop : ∀ s, Noticed site id notice s → Harmless site s → Stopped site id s := by
    intro s hs hharmless
    rcases hs with hs | hs
    . exact hs.stopped hharmless
    . exact hs
  apply ensures_issue assertion_noticed
  . intro r
    cases r with
    | ok _ => exact assertion_marked
    | error _ => exact assertion_stopped
  . intro s around htidy hs hharmless
    unfold Surface.act at hharmless ⊢
    cases hfailure : around.failure with
    | some text =>
      simp only [hfailure, Surface.fail] at hharmless ⊢
      exact ⟨htidy, hstop s hs (hharmless rfl)⟩
    | none =>
      simp only [hfailure, Surface.perform, Surface.markOrphanNoticePublished] at hharmless ⊢
      cases horphan : s.orphans[id]? with
      | none =>
        simp only [horphan] at hharmless
        exact ⟨htidy, hstop s hs (hharmless rfl)⟩
      | some orphan =>
        dsimp only
        cases hnotice : orphan.notice with
        | none =>
          simp only [horphan, hnotice] at hharmless
          exact ⟨htidy, hstop s hs (hharmless rfl)⟩
        | some _ =>
          refine ⟨htidy.records _ _, ?_⟩
          rcases hs with hs | hs
          . left
            exact {
              ordered := hs.ordered
              books := hs.books.mark horphan (noPending_published rfl)
              others := hs.others
              attempt := hs.attempt
              unsettled := hs.unsettled
              exposed := hs.exposed
              seen := hs.seen
              mains := hs.mains
              notices := hs.notices
              atMostOne := hs.atMostOne
              complete := hs.complete
              orphans := noPending_published rfl }
          . right
            exact ⟨⟨hs.1.ordered, hs.1.books.mark horphan (noPending_published rfl), hs.1.items⟩, hs.2,
              noPending_published rfl⟩

theorem ensuresIo_advance_marked
    : EnsuresIo site (Marked site id notice) (attempt (issue (.advance id .retired))) (fun _ => Finished site id)
        (Stopped site id) := by
  apply ensuresIo_advance assertion_marked State.noConfusion
  . intro s hs
    rcases hs with hs | hs
    . exact ⟨hs.books, hs.others, hs.once id, hs.ordered, hs.attempt, hs.orphans⟩
    . exact ⟨hs.rests.books, fun other _ => hs.rests.items other, (hs.rests.items id).once, hs.rests.ordered,
        hs.attempt, hs.noPending⟩
  . intro s hs hharmless
    rcases hs with hs | hs
    . exact hs.stopped hharmless
    . exact hs.stopped

def NoticeResult (site : Site) (id : String) (notice : Publication) (result : Except String Bool) (s : Surface)
    : Prop :=
  match result with
  | .ok true => Noticed site id notice s
  | _ => Stopped site id s

theorem assertion_noticeResult (result : Except String Bool)
    : Assertion site (NoticeResult site id notice result) := by
  match result with
  | .ok true => exact assertion_noticed
  | .ok false => exact assertion_stopped
  | .error _ => exact assertion_stopped

theorem Stopped.noticeResult (h : Stopped site id s) (result : Except String Bool)
    : NoticeResult site id notice result s := by
  match result with
  | .ok true => exact .inr h
  | .ok false => exact h
  | .error _ => exact h

theorem ensures_publishNotice (harranged : Arranged [] [notice]) (hone : AtMostOne [notice])
    : Ensures site (Publishing site id (fun _ => True) [] []) (publishNotice notice) (NoticeResult site id notice) := by
  unfold publishNotice
  apply Ensures.bind (ensuresIo_publish harranged hone)
  intro result
  match result with
  | .ok (.ok ()) => exact ensures_pure assertion_publishing (fun s hs => .inl hs)
  | .ok (.error taken) =>
    dsimp only
    split
    . apply ensures_noticeInPlace.mono (fun s hs => hs)
      intro result s hs
      exact hs.noticeResult result
    . exact ensures_pure assertion_stopped (fun s hs => hs)
  | .error text => exact ensures_pure assertion_stopped (fun s hs => hs)

theorem ensuresIo_commitOrphan {reason authentication : String} {payload : List UInt8} {recovery : List Publication}
    {notice : Option Publication} (hclaim : Claims site id claim)
    (hnotice : ∀ object ∈ notice, object.kind = .notice)
    : EnsuresIo site (Open site id) (commitOrphan claim reason authentication payload recovery notice)
        (Committed site id) (Stopped site id) := by
  unfold commitOrphan
  apply EnsuresIo.bind assertion_stopped (ensuresIo_stageOrphan hclaim rfl)
  intro _
  cases notice with
  | none => exact ensuresIo_pure assertion_finished (fun s hs => hs)
  | some notice =>
    have hkind : notice.kind = .notice := hnotice notice rfl
    have harranged : Arranged [] [notice] := by
      refine ⟨?_, trivial⟩
      intro name hname
      rw [hkind] at hname
      cases hname
    have hone : AtMostOne [notice] := by
      constructor
      . simp [hkind, Kind.isMain]
      . simp [hkind]
    apply EnsuresIo.bind assertion_stopped
      (ensuresIo_lift assertion_noticeResult (ensures_publishNotice harranged hone))
    intro published
    cases published with
    | error text => exact ensuresIo_pure assertion_stopped (fun s hs => hs)
    | ok sent =>
      cases sent with
      | false => exact ensuresIo_pure assertion_stopped (fun s hs => hs)
      | true =>
        rw [hclaim.inboundId]
        apply EnsuresIo.bind assertion_stopped ensuresIo_mark
        intro _
        apply EnsuresIo.bind assertion_stopped ensuresIo_advance_marked
        intro _
        exact ensuresIo_pure assertion_finished (fun s hs => hs)

end Orphan

end Adapter

end Tith
