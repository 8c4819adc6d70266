import Tith.Store.Lemmas.Inbox
import Tith.Store.Machine

/-!
This module contains what every operation of the store does to the inbox: a sequence of changes
that the operation allows.
-/

namespace Tith

/--
The changes of the inbox that an operation can make.
-/
def Op.Allows (op : Op) (label : Label) : Prop :=
  match op, label with
  | .accept .., .store => True
  | .refreshExpirations now, .expire expires => expires ≤ now
  | .claim _ _ now _ _, .expire expires => expires ≤ now
  | .claim application key _ _ rng, .claim application' key' token =>
    application' = application ∧ key' = key ∧ ∃ rng', randomIdentifier 'C' rng = .ok (token, rng')
  | .resolve application _ token now _, .resolve application' token' now' =>
    application' = application ∧ token' = token ∧ now' = now
  | .renew application _ token now _, .renew application' token' now' =>
    application' = application ∧ token' = token ∧ now' = now
  | .commitBatch identities _ _, .link application =>
    ∃ identity ∈ identities, identity.application = application
  | _, _ => False

section Refresh

variable {now : UInt64} {expired : List InboundRecord} {s s' : Store}

theorem isExpired_iff {record : InboundRecord}
    : record.isExpired now = true ↔
        record.state = .claimed ∧ ∃ expires, record.claimExpires = some expires ∧ expires ≤ now := by
  cases h : record.claimExpires with
  | none => simp [InboundRecord.isExpired, h]
  | some expires => simp [InboundRecord.isExpired, h]

theorem mem_expiredRecords {record : InboundRecord}
    : record ∈ expiredRecords s now ↔
        ∃ id : String, s.records[id]? = some record ∧ record.isExpired now = true := by
  simp only [expiredRecords, List.mem_filter, List.mem_map, Prod.exists, exists_eq_right,
    Table.mem_toList]
  constructor
  . rintro ⟨⟨id, hid⟩, hexpired⟩
    exact ⟨id, hid, hexpired⟩
  . rintro ⟨id, hid, hexpired⟩
    exact ⟨⟨id, hid⟩, hexpired⟩

/--
Records that are stored under their identifiers and whose claims have run out.
-/
structure Expired (s : Store) (now : UInt64) (expired : List InboundRecord) : Prop where
  stored : ∀ record ∈ expired, s.records[record.inboundId]? = some record
  lapsed : ∀ record ∈ expired, record.isExpired now = true
  nodup : expired.Pairwise (fun a b => a.inboundId ≠ b.inboundId)

theorem expiredRecords_expired (hinv : InboxInv s.inbox) : Expired s now (expiredRecords s now) := by
  refine ⟨?_, ?_, ?_⟩
  . intro record hmem
    obtain ⟨id, hrecord, _⟩ := mem_expiredRecords.mp hmem
    rw [hinv.id id record hrecord]
    exact hrecord
  . intro record hmem
    obtain ⟨_, _, hexpired⟩ := mem_expiredRecords.mp hmem
    exact hexpired
  . unfold expiredRecords
    apply List.Pairwise.filter
    rw [List.pairwise_map]
    have hkeys := Table.nodup_keys_toList s.records
    rw [List.Nodup, List.pairwise_map] at hkeys
    apply hkeys.imp_of_mem
    intro left right hleft hright hne
    rw [hinv.id _ _ ((Table.mem_toList _ _ _).mp hleft),
      hinv.id _ _ ((Table.mem_toList _ _ _).mp hright)]
    exact hne

theorem Expired.tail {record : InboundRecord} (h : Expired s now (record :: expired))
    (hexpire : expireClaim s record = .ok s')
    : Expired s' now expired := by
  -- Once the first claim has expired, the others are still as they were.
  obtain ⟨hne, hnodup⟩ := List.pairwise_cons.mp h.nodup
  obtain ⟨_, _, _, _, _, _, rfl⟩ := expireClaim_cases hexpire
  refine ⟨?_, fun other hmem => h.lapsed other (by simp [hmem]), hnodup⟩
  intro other hmem
  dsimp only
  rw [Table.getElem?_insert_ne _ (hne other hmem)]
  exact h.stored other (by simp [hmem])

theorem expireClaim_touch {fresh : Prop} {record : InboundRecord}
    (hrecord : s.records[record.inboundId]? = some record) (hisExpired : record.isExpired now = true)
    (h : expireClaim s record = .ok s')
    : ∃ expires, expires ≤ now ∧ Touch fresh (.expire expires) s.inbox s'.inbox := by
  obtain ⟨expires, key, token, hexpires, hkey, htoken, rfl⟩ := expireClaim_cases h
  obtain ⟨hstate, expires', hexpires', hle⟩ := isExpired_iff.mp hisExpired
  rw [hexpires] at hexpires'
  injection hexpires' with heq
  refine ⟨expires, heq ▸ hle, ?_⟩
  exact Touch.expire (b := s.inbox) hrecord hstate hexpires hkey htoken

theorem expireAll_touches {fresh : Prop} {allowed : Label → Prop}
    (hallowed : ∀ expires, expires ≤ now → allowed (.expire expires))
    (hexpired : Expired s now expired) (h : expired.foldlM expireClaim s = .ok s')
    : Touches fresh allowed s.inbox s'.inbox := by
  induction expired generalizing s with
  | nil =>
    simp only [List.foldlM_nil, Except.pure_eq_ok, Except.ok.injEq] at h
    rw [h]
  | cons record expired ih =>
    simp only [List.foldlM_cons, Except.bind_ok_iff] at h
    obtain ⟨s₁, hfirst, hrest⟩ := h
    obtain ⟨expires, hle, htouch⟩ :=
      expireClaim_touch (hexpired.stored record (by simp)) (hexpired.lapsed record (by simp)) hfirst
    exact Relation.ReflTransGen.head ⟨_, hallowed expires hle, htouch⟩
      (ih (hexpired.tail hfirst) hrest)

theorem refreshExpirations_touches {fresh : Prop} {allowed : Label → Prop}
    (hallowed : ∀ expires, expires ≤ now → allowed (.expire expires)) (hinv : InboxInv s.inbox)
    (h : refreshExpirations now s = .ok s')
    : Touches fresh allowed s.inbox s'.inbox :=
  expireAll_touches hallowed (expiredRecords_expired hinv) h

theorem expireAll_isFresh (hexpired : Expired s now expired)
    (h : expired.foldlM expireClaim s = .ok s') {token : String} (hfresh : IsFresh s.inbox token)
    : IsFresh s'.inbox token := by
  induction expired generalizing s with
  | nil =>
    simp only [List.foldlM_nil, Except.pure_eq_ok, Except.ok.injEq] at h
    exact h ▸ hfresh
  | cons record expired ih =>
    simp only [List.foldlM_cons, Except.bind_ok_iff] at h
    obtain ⟨s₁, hfirst, hrest⟩ := h
    apply ih (hexpired.tail hfirst) hrest
    have hstored := hexpired.stored record (by simp)
    obtain ⟨_, _, token', _, _, htoken', rfl⟩ := expireClaim_cases hfirst
    refine ⟨?_, ?_⟩
    . dsimp only [Store.inbox]
      rw [Table.getElem?_insert_ne]
      . exact hfresh.1
      . rintro rfl
        exact hfresh.2 _ record hstored htoken'
    . intro id other hother
      rcases Table.getElem?_insert_some hother with ⟨rfl, rfl⟩ | ⟨_, hold⟩
      . exact hfresh.2 _ record hstored
      . exact hfresh.2 id other hold

theorem refreshExpirations_isFresh (hinv : InboxInv s.inbox) (h : refreshExpirations now s = .ok s')
    {token : String} (hfresh : IsFresh s.inbox token)
    : IsFresh s'.inbox token :=
  expireAll_isFresh (expiredRecords_expired hinv) h hfresh

end Refresh

theorem accept_touches {c : Crypto} {value : NewInbound}
    {duplicateIdentity : Option SignedItemIdentity} {rng rng' : Rng} {s s' : Store}
    {result : AcceptResult} {fresh : Prop} {allowed : Label → Prop} (hallowed : allowed .store)
    (h : accept c value duplicateIdentity rng s = .ok (result, rng', s'))
    : Touches fresh allowed s.inbox s'.inbox := by
  obtain ⟨kind, hash, _, _, ⟨_, _, _, _, rfl⟩ | ⟨id, _, halloc, _, rfl⟩⟩ := accept_cases h
  . exact .refl
  . obtain ⟨htaken, _⟩ := freshIdentifier_cases halloc
    rw [Option.isSome_eq_false_iff, Option.isNone_iff_eq_none] at htaken
    exact .single ⟨_, hallowed, Touch.store (b := s.inbox) value kind hash htaken⟩

theorem selectRecord_cases {s : Store} {application : Application} {now : UInt64}
    {record : InboundRecord} (h : selectRecord s application now = some record)
    : (∃ id : String, s.records[id]? = some record) ∧ record.application = application ∧
        (record.state = .available ∨ record.state = .deferred) := by
  have hkeep := List.foldl_keep (P := fun record => record.isEligible application now = true) (by
    intro kept candidate
    split
    . next hcond => exact .inr ⟨rfl, hcond.1⟩
    . exact .inl rfl) h
  rcases hkeep with hnone | ⟨hmem, heligible⟩
  . cases hnone
  . obtain ⟨⟨id, record'⟩, hpair, rfl⟩ := List.mem_map.mp hmem
    simp only [InboundRecord.isEligible, decide_eq_true_eq] at heligible
    exact ⟨⟨id, (Table.mem_toList _ _ _).mp hpair⟩, heligible.1, heligible.2.1⟩

theorem claimNext_touches {application : Application} {claimKey : String} {now duration : UInt64}
    {rng : Rng} {s s' : Store} {result : ClaimResult} {fresh : Prop} {allowed : Label → Prop}
    (hallowed : ∀ token rng', randomIdentifier 'C' rng = .ok (token, rng') →
      allowed (.claim application claimKey token))
    (hfresh : fresh → ∀ token rng', randomIdentifier 'C' rng = .ok (token, rng') →
      IsFresh s.inbox token)
    (hinv : InboxInv s.inbox)
    (h : claimNext application claimKey now duration rng s = .ok (result, s'))
    : Touches fresh allowed s.inbox s'.inbox := by
  obtain ⟨_, _, _, rfl⟩ | ⟨_, _, _, rfl⟩ |
    ⟨record, token, rng', expires, attempts, hnone, hselect, htoken, _, rfl⟩ := claimNext_cases h
  . exact .refl
  . exact .refl
  . obtain ⟨⟨id, hrecord⟩, rfl, hstate⟩ := selectRecord_cases hselect
    have hid := hinv.id id record hrecord
    subst hid
    exact .single ⟨_, hallowed token rng' htoken,
      Touch.claim (b := s.inbox) now expires attempts hrecord hstate hnone
        (fun h => hfresh h token rng' htoken)⟩

theorem claim_touches {application : Application} {claimKey : String} {now duration : UInt64}
    {rng : Rng} {s s' : Store} {result : Except StoreError ClaimResult} {fresh : Prop} {allowed : Label → Prop}
    (hexpire : ∀ expires, expires ≤ now → allowed (.expire expires))
    (hclaim : ∀ token rng', randomIdentifier 'C' rng = .ok (token, rng') →
      allowed (.claim application claimKey token))
    (hfresh : fresh → ∀ token rng', randomIdentifier 'C' rng = .ok (token, rng') →
      IsFresh s.inbox token)
    (hinv : InboxInv s.inbox)
    (h : claim application claimKey now duration rng s = (result, s'))
    : Touches fresh allowed s.inbox s'.inbox := by
  obtain rfl | ⟨t, hrefresh, rfl | ⟨r, hnext, _⟩⟩ := claim_cases h
  . exact .refl
  . exact refreshExpirations_touches hexpire hinv hrefresh
  . have htouches : Touches fresh allowed s.inbox t.inbox :=
      refreshExpirations_touches hexpire hinv hrefresh
    apply htouches.trans
    apply claimNext_touches hclaim _ (htouches.inv hinv) hnext
    intro h token rng' htoken
    exact refreshExpirations_isFresh hinv hrefresh (hfresh h token rng' htoken)

theorem resolve_touches {application : Application} {inboundId token : String} {now : UInt64}
    {resolution : Resolution} {s s' : Store} {state : InboundState} {fresh : Prop} {allowed : Label → Prop}
    (hallowed : allowed (.resolve application token now)) (hinv : InboxInv s.inbox)
    (h : resolve application inboundId token now resolution s = .ok (state, s'))
    : Touches fresh allowed s.inbox s'.inbox := by
  obtain ⟨_, _, _, _, _, _, _, _, rfl⟩ | ⟨_, _, _, _, _, _, _, rfl⟩ |
    ⟨record, claimKey, hnone, hrecord, rfl, hheld, hkey, _, rfl⟩ := resolve_cases h
  . exact .refl
  . exact .refl
  . have hid := hinv.id inboundId record hrecord
    subst hid
    exact .single ⟨_, hallowed, Touch.resolve (b := s.inbox) resolution hrecord hheld hkey hnone⟩

theorem renew_touches {application : Application} {inboundId token : String}
    {now duration expires : UInt64} {s s' : Store} {fresh : Prop} {allowed : Label → Prop}
    (hallowed : allowed (.renew application token now)) (hinv : InboxInv s.inbox)
    (h : renew application inboundId token now duration s = .ok (expires, s'))
    : Touches fresh allowed s.inbox s'.inbox := by
  obtain ⟨record, hrecord, rfl, hheld, _, rfl⟩ := renew_cases h
  have hid := hinv.id inboundId record hrecord
  subst hid
  exact .single ⟨_, hallowed, Touch.renew (b := s.inbox) expires hrecord hheld⟩

theorem commitJob_touches {identity : SubmissionIdentity} {jobId : String} {value : NewOutboundJob}
    {s s' : Store} {state : JobState} {fresh : Prop} {allowed : Label → Prop}
    (hallowed : allowed (.link identity.application)) (hinv : InboxInv s.inbox)
    (h : commitJob identity jobId value s = .ok (state, s'))
    : Touches fresh allowed s.inbox s'.inbox := by
  obtain ⟨t, events, _, _, hlink, _, _, rfl⟩ := commitJob_cases h
  obtain ⟨_, rfl⟩ | ⟨inboundId, token, record, _, _, hrecord, happlication, hheld, hforward, rfl⟩ :=
    linkForward_cases hlink
  . exact .refl
  . have hid := hinv.id inboundId record hrecord
    subst hid
    rw [← happlication] at hallowed
    exact .single ⟨_, hallowed,
      Touch.link (b := s.inbox) jobId hrecord (isHeld_iff.mp hheld).1 hforward⟩

theorem commitJobs_touches {batch : List (SubmissionIdentity × SubmissionClass)}
    {newJobs : List NewOutboundJob} {s s' : Store} {outcomes : List CommitOutcome}
    {fresh : Prop} {allowed : Label → Prop}
    (hallowed : ∀ entry ∈ batch, allowed (.link entry.1.application)) (hinv : InboxInv s.inbox)
    (h : commitJobs batch newJobs s = .ok (outcomes, s'))
    : Touches fresh allowed s.inbox s'.inbox := by
  induction batch generalizing newJobs s outcomes with
  | nil =>
    simp only [commitJobs, Except.ok.injEq, Prod.mk.injEq] at h
    rw [h.2]
  | cons entry batch ih =>
    have hrestAllowed : ∀ entry ∈ batch, allowed (.link entry.1.application) :=
      fun other hmem => hallowed other (by simp [hmem])
    obtain ⟨identity, cls⟩ := entry
    cases cls with
    | new jobId =>
      cases newJobs with
      | nil => cases h
      | cons value newJobs =>
        simp only [commitJobs, Except.bind_ok_iff, Except.ok.injEq, Prod.mk.injEq,
          Prod.exists] at h
        obtain ⟨state, s₁, hfirst, outcomes₁, s₂, hrest, _, rfl⟩ := h
        have htouches : Touches fresh allowed s.inbox s₁.inbox :=
          commitJob_touches (hallowed _ List.mem_cons_self) hinv hfirst
        exact htouches.trans (ih hrestAllowed (htouches.inv hinv) hrest)
    | existing jobId state =>
      simp only [commitJobs, Except.bind_ok_iff, Except.ok.injEq, Prod.mk.injEq, Prod.exists] at h
      obtain ⟨outcomes₁, s₂, hrest, _, rfl⟩ := h
      exact ih hrestAllowed hinv hrest
    | conflict => cases h

theorem commitBatch_touches {identities : List SubmissionIdentity} {build : BatchBuilder}
    {rng : Rng} {s s' : Store} {result : BatchCommit} {fresh : Prop} {allowed : Label → Prop}
    (hallowed : ∀ identity ∈ identities, allowed (.link identity.application))
    (hinv : InboxInv s.inbox) (h : commitBatch identities build rng s = .ok (result, s'))
    : Touches fresh allowed s.inbox s'.inbox := by
  obtain ⟨_, classes, _, ⟨_, _, rfl⟩ | ⟨assigned, newJobs, outcomes, _, _, _, _, hcommit, _⟩⟩ :=
    commitBatch_cases h
  . exact .refl
  . apply commitJobs_touches _ hinv hcommit
    intro entry hmem
    exact hallowed entry.1 (List.of_mem_zip hmem).1

/--
The token that a claim draws is fresh.
-/
def FreshToken (s : Store) (op : Op) : Prop :=
  match op with
  | .claim _ _ _ _ rng =>
    ∀ token rng', randomIdentifier 'C' rng = .ok (token, rng') → IsFresh s.inbox token
  | _ => True

theorem step_touches (fresh : Prop) (c : Crypto) {s : Store} (hinv : InboxInv s.inbox) {op : Op}
    (hfresh : fresh → FreshToken s op)
    : Touches fresh op.Allows s.inbox (step c s op).2.inbox := by
  have hdelivery : op.side = .delivery → Touches fresh op.Allows s.inbox (step c s op).2.inbox := by
    intro hop
    rw [(step_ledgerOnly c s hop).inbox]
  cases op with
  | accept value duplicateIdentity rng =>
    simp only [step]
    split
    . exact .refl
    . next h => exact accept_touches trivial h
  | removeDuplicateIdentity identity => exact .refl
  | refreshExpirations now =>
    simp only [step]
    split
    . exact .refl
    . next h => exact refreshExpirations_touches (fun _ hle => hle) hinv h
  | claim application claimKey now duration rng =>
    have htouches : ∀ result s', claim application claimKey now duration rng s = (result, s') →
        Touches fresh (Op.claim application claimKey now duration rng).Allows s.inbox
          s'.inbox := by
      intro result s' h
      exact claim_touches (fun _ hle => hle) (fun _ rng' htoken => ⟨rfl, rfl, rng', htoken⟩) hfresh
        hinv h
    simp only [step]
    split
    . next h => exact htouches _ _ h
    . next h => exact htouches _ _ h
  | resolve application inboundId token now resolution =>
    apply transact_rel (R := fun s s' => Touches fresh _ s.inbox s'.inbox) .refl
    intro _ _ h
    exact resolve_touches ⟨rfl, rfl, rfl⟩ hinv h
  | renew application inboundId token now duration =>
    apply transact_rel (R := fun s s' => Touches fresh _ s.inbox s'.inbox) .refl
    intro _ _ h
    exact renew_touches ⟨rfl, rfl, rfl⟩ hinv h
  | commitBatch identities build rng =>
    apply transact_rel (R := fun s s' => Touches fresh _ s.inbox s'.inbox) .refl
    intro _ _ h
    exact commitBatch_touches (fun identity hmem => ⟨identity, hmem, rfl⟩) hinv h
  | _ => exact hdelivery rfl

theorem step_inboxInv (c : Crypto) {s : Store} (hinv : InboxInv s.inbox) (op : Op)
    : InboxInv (step c s op).2.inbox :=
  (step_touches False c hinv False.elim).inv hinv

theorem run_inboxInv (c : Crypto) (ops : List Op)
    : InboxInv ((storeMachine c).run .empty ops).inbox := by
  apply Machine.invariant (m := storeMachine c) (fun (s : Store) => InboxInv s.inbox)
  . intro s op hinv
    exact step_inboxInv c hinv op
  . exact empty_inboxInv

end Tith
