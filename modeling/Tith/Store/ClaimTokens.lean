import Tith.Store.ClaimInvariant
import Tith.Store.Lemmas.Tokens

/-!
This module contains the claims of applications over whole runs in which every token that is drawn
is fresh: claiming and resolving can be repeated, and a token whose claim has expired is of no use.
-/

namespace Tith

section Refresh

variable {now : UInt64} {expired : List InboundRecord} {s s' : Store}

theorem expireAll_ok (s : Store)
    (hclaimed : ∀ record ∈ expired, (∃ expires, record.claimExpires = some expires) ∧
      (∃ key, record.claimKey = some key) ∧ ∃ token, record.claimToken = some token)
    : ∃ s', expired.foldlM expireClaim s = .ok s' := by
  induction expired generalizing s with
  | nil => exact ⟨s, rfl⟩
  | cons record expired ih =>
    obtain ⟨⟨expires, hexpires⟩, ⟨key, hkey⟩, ⟨token, htoken⟩⟩ := hclaimed record (by simp)
    simp only [List.foldlM_cons, expireClaim, hexpires, hkey, htoken, Option.okOr_some,
      Except.bind_of_ok]
    exact ih _ (fun other hmem => hclaimed other (by simp [hmem]))

theorem refreshExpirations_ok (hinv : InboxInv s.inbox) (now : UInt64)
    : ∃ s', refreshExpirations now s = .ok s' := by
  apply expireAll_ok
  intro record hmem
  obtain ⟨id, hrecord, hexpired⟩ := mem_expiredRecords.mp hmem
  obtain ⟨hstate, expires, hexpires, _⟩ := isExpired_iff.mp hexpired
  obtain ⟨key, token, hkey, htoken, _⟩ := hinv.mapped id record hrecord hstate
  exact ⟨⟨expires, hexpires⟩, ⟨key, hkey⟩, ⟨token, htoken⟩⟩

theorem expireAll_records_ne (h : expired.foldlM expireClaim s = .ok s') {id : String}
    (hid : ∀ record ∈ expired, record.inboundId ≠ id)
    : s'.records[id]? = s.records[id]? := by
  induction expired generalizing s with
  | nil =>
    simp only [List.foldlM_nil, Except.pure_eq_ok, Except.ok.injEq] at h
    rw [h]
  | cons record expired ih =>
    simp only [List.foldlM_cons, Except.bind_ok_iff] at h
    obtain ⟨s₁, hfirst, hrest⟩ := h
    rw [ih hrest (fun other hmem => hid other (by simp [hmem]))]
    obtain ⟨_, _, _, _, _, _, rfl⟩ := expireClaim_cases hfirst
    exact Table.getElem?_insert_ne _ (hid record (by simp)) _

theorem expireAll_records (hexpired : Expired s now expired)
    (h : expired.foldlM expireClaim s = .ok s') {record : InboundRecord} (hmem : record ∈ expired)
    : ∃ record', s'.records[record.inboundId]? = some record' ∧ record'.state = .available := by
  induction expired generalizing s with
  | nil => simp at hmem
  | cons first expired ih =>
    simp only [List.foldlM_cons, Except.bind_ok_iff] at h
    obtain ⟨s₁, hfirst, hrest⟩ := h
    rcases List.mem_cons.mp hmem with rfl | hmem
    . obtain ⟨hne, _⟩ := List.pairwise_cons.mp hexpired.nodup
      rw [expireAll_records_ne hrest (fun other hother => (hne other hother).symm)]
      obtain ⟨expires, _, _, _, _, _, rfl⟩ := expireClaim_cases hfirst
      exact ⟨expireRecord record expires, Std.ExtTreeMap.getElem?_insert_self, rfl⟩
    . exact ih (hexpired.tail hfirst) hrest hmem

variable (hinv : InboxInv s.inbox) (h : refreshExpirations now s = .ok s')

include hinv h

theorem refreshExpirations_keeps {id : String} {record : InboundRecord}
    (hrecord : s.records[id]? = some record) (hlive : record.isExpired now = false)
    : s'.records[id]? = some record := by
  rw [expireAll_records_ne h, hrecord]
  intro other hmem heq
  obtain ⟨id', hother, hexpired⟩ := mem_expiredRecords.mp hmem
  have hid := hinv.id id' other hother
  subst heq hid
  rw [hrecord] at hother
  injection hother with heq
  rw [heq, hexpired] at hlive
  cases hlive

theorem claimed_before_refresh {id : String} {record : InboundRecord}
    (hrecord : s'.records[id]? = some record) (hstate : record.state = .claimed)
    : s.records[id]? = some record ∧ record.isExpired now = false := by
  have hne : ∀ other ∈ expiredRecords s now, other.inboundId ≠ id := by
    rintro other hmem rfl
    obtain ⟨record', hrecord', havailable⟩ :=
      expireAll_records (expiredRecords_expired hinv) h hmem
    rw [hrecord] at hrecord'
    injection hrecord' with heq
    rw [heq, havailable] at hstate
    cases hstate
  rw [expireAll_records_ne h hne] at hrecord
  refine ⟨hrecord, ?_⟩
  rw [Bool.eq_false_iff]
  intro hexpired
  exact hne record (mem_expiredRecords.mpr ⟨id, hrecord, hexpired⟩) (hinv.id id record hrecord)

end Refresh

/--
The record is held with this token at `now`.
-/
def HoldsClaim (s : Store) (inboundId token : String) (now : UInt64) : Prop :=
  ∃ record, s.records[inboundId]? = some record ∧ record.isHeld token now = true

/--
The store as it is in a run with fresh tokens.
-/
structure FreshInv (s : Store) : Prop where
  inbox : InboxInv s.inbox
  tokens : TokenInv s.inbox

section Again

variable {s : Store} (hinv : FreshInv s) {application : Application} {key : String}
variable {mapping : ClaimMapping}
variable (hmapping : s.claimKeys[claimMappingKey application key]? = some mapping)

include hinv hmapping

theorem not_isFresh_of_mapping : ¬IsFresh s.inbox mapping.token := by
  intro hfresh
  by_cases houtcome : mapping.outcome = none
  . obtain ⟨record, _, hrecord, _, htoken, _⟩ := hinv.inbox.opened _ mapping hmapping houtcome
    exact hfresh.2 _ record hrecord htoken
  . obtain ⟨resolution, hresolved⟩ := hinv.tokens.closed _ mapping hmapping houtcome
    rw [hfresh.1] at hresolved
    cases hresolved

theorem dead_of_not_holdsClaim {now : UInt64} (hover : ¬HoldsClaim s mapping.inboundId mapping.token now)
    : Dead s.inbox mapping.token now := by
  -- Only the record that the claim key names can be held with its token.
  refine ⟨not_isFresh_of_mapping hinv hmapping, ?_⟩
  intro id record hrecord
  rw [Bool.eq_false_iff]
  intro hheld
  obtain ⟨hstate, htoken, _⟩ := isHeld_iff.mp hheld
  by_cases houtcome : mapping.outcome = none
  . obtain ⟨record', _, hrecord', _, htoken', _⟩ :=
      hinv.inbox.opened _ mapping hmapping houtcome
    have hid := hinv.tokens.unique _ _ record record' _ hrecord hrecord' htoken htoken'
    subst hid
    exact hover ⟨record, hrecord, hheld⟩
  . obtain ⟨resolution, hresolved⟩ := hinv.tokens.closed _ mapping hmapping houtcome
    exact hinv.tokens.resolved _ resolution hresolved id record hrecord htoken hstate

/--
What a claim under a used key answers: the claim while it is held, and that it is over afterwards.
Nothing but the refresh is written.
-/
theorem claim_again (hkey : key ≠ "") (now duration : UInt64) (rng : Rng)
    : ∃ t result, refreshExpirations now s = .ok t ∧
        claim application key now duration rng s = (.ok result, t) ∧
        (HoldsClaim s mapping.inboundId mapping.token now →
          (∃ claim, result = .completed claim ∧ claim.inboundId = mapping.inboundId ∧
            claim.claimToken = mapping.token) ∧
          t.records[mapping.inboundId]? = s.records[mapping.inboundId]? ∧
          t.claimKeys[claimMappingKey application key]? =
            s.claimKeys[claimMappingKey application key]?) ∧
        (¬HoldsClaim s mapping.inboundId mapping.token now →
          ∃ state, result = .resolved mapping.inboundId state) := by
  obtain ⟨t, hrefresh⟩ := refreshExpirations_ok hinv.inbox now
  have htouches : Touches True (fun _ => True) s.inbox t.inbox :=
    refreshExpirations_touches (fun _ _ => trivial) hinv.inbox hrefresh
  obtain ⟨hinbox, htokens, hkept⟩ := htouches.kept hinv.inbox hinv.tokens
  obtain ⟨mapping', hmapping', hid, htoken⟩ := hkept.mappings _ mapping hmapping
  have hmapping'' : t.claimKeys[claimMappingKey application key]? = some mapping' := hmapping'
  obtain ⟨record, hrecord⟩ := hinbox.named _ mapping' hmapping'
  have hrecord' : t.records[mapping'.inboundId]? = some record := hrecord
  rw [hid] at hrecord'
  by_cases hholds : HoldsClaim s mapping.inboundId mapping.token now
  . obtain ⟨held, hget, hheld⟩ := hholds
    obtain ⟨hstate, htoken', expires, hexpires, hlt⟩ := isHeld_iff.mp hheld
    have hlive : held.isExpired now = false := by
      rw [Bool.eq_false_iff]
      intro hexpired
      obtain ⟨_, expires', hexpires', hle⟩ := isExpired_iff.mp hexpired
      rw [hexpires] at hexpires'
      injection hexpires' with heq
      rw [← heq, UInt64.le_iff_toNat_le] at hle
      rw [UInt64.lt_iff_toNat_lt] at hlt
      omega
    have hkeeps := refreshExpirations_keeps hinv.inbox hrefresh hget hlive
    rw [hrecord'] at hkeeps
    injection hkeeps with heq
    subst heq
    -- The token is not resolved, so the claim key is still open.
    have hopen : mapping'.outcome = none := by
      by_contra houtcome
      obtain ⟨resolution, hresolved⟩ := htokens.closed _ mapping' hmapping' houtcome
      rw [htoken] at hresolved
      exact htokens.resolved _ resolution hresolved _ record hrecord htoken' hstate
    have hopen₀ : mapping.outcome = none := by
      by_contra houtcome
      obtain ⟨resolution, hresolved⟩ := hinv.tokens.closed _ mapping hmapping houtcome
      exact hinv.tokens.resolved _ resolution hresolved _ record hget htoken' hstate
    have hsame : mapping' = mapping := by
      cases mapping'
      cases mapping
      simp_all
    refine ⟨t, .completed ⟨record.inboundId, mapping.token, expires, record⟩, hrefresh, ?_, ?_, ?_⟩
    . unfold claim claimNext claimAgain claimFrom
      rw [if_neg hkey]
      simp [hrefresh, hmapping'', hid, hrecord', hopen, htoken, hheld, htoken', hexpires]
    . intro _
      refine ⟨⟨_, rfl, hinv.inbox.id _ record hget, rfl⟩, ?_, ?_⟩
      . rw [hrecord', hget]
      . rw [hmapping'', hmapping, hsame]
    . intro hnot
      exact absurd ⟨record, hget, hheld⟩ hnot
  . have hclosed : mapping'.outcome ≠ none := by
      intro hopen
      obtain ⟨record', _, hrecord'', hstate, htoken', _⟩ :=
        hinbox.opened _ mapping' hmapping' hopen
      obtain ⟨hbefore, hlive⟩ := claimed_before_refresh hinv.inbox hrefresh hrecord'' hstate
      obtain ⟨expires, hexpires⟩ :=
        Option.isSome_iff_exists.mp ((hinv.inbox.expires _ record' hbefore).mp hstate)
      apply hholds
      rw [hid] at hbefore
      rw [htoken] at htoken'
      refine ⟨record', hbefore, isHeld_iff.mpr ⟨hstate, htoken', expires, hexpires, ?_⟩⟩
      rw [Bool.eq_false_iff] at hlive
      rw [UInt64.lt_iff_toNat_lt]
      by_contra hge
      apply hlive
      refine isExpired_iff.mpr ⟨hstate, expires, hexpires, ?_⟩
      rw [UInt64.le_iff_toNat_le]
      omega
    refine ⟨t, .resolved mapping.inboundId (mapping'.outcome.getD record.state), hrefresh, ?_, ?_, ?_⟩
    . unfold claim claimNext claimAgain
      rw [if_neg hkey]
      have hsome : mapping'.outcome.isSome := Option.isSome_iff_ne_none.mpr hclosed
      simp [hrefresh, hmapping'', hid, hrecord', hsome]
    . intro h
      exact absurd h hholds
    . intro _
      exact ⟨_, rfl⟩

end Again

section Runs

variable (c : Crypto)

theorem step_freshInv {s : Store} (hinv : FreshInv s) {op : Op} (hfresh : FreshToken s op)
    : FreshInv (step c s op).2 ∧ Kept s.inbox (step c s op).2.inbox := by
  have htouches := step_touches True c hinv.inbox (fun _ => hfresh)
  obtain ⟨hinbox, htokens, hkept⟩ := htouches.kept hinv.inbox hinv.tokens
  exact ⟨⟨hinbox, htokens⟩, hkept⟩

theorem run_freshInv {s : Store} (hinv : FreshInv s) {ops : List Op}
    (hfresh : (storeMachine c).Along FreshToken s ops)
    : FreshInv ((storeMachine c).run s ops) := by
  apply Machine.invariant_along FreshToken FreshInv _ hinv hfresh
  intro s op hinv hfresh
  exact (step_freshInv c hinv hfresh).1

theorem run_kept {s : Store} (hinv : FreshInv s) {ops : List Op}
    (hfresh : (storeMachine c).Along FreshToken s ops)
    : Kept s.inbox ((storeMachine c).run s ops).inbox := by
  apply Machine.relates_along FreshToken FreshInv (fun s t => Kept s.inbox t.inbox) _ _ _ _ hinv
    hfresh
  . intro s
    exact .refl s.inbox
  . intro s t u
    exact Kept.trans
  . intro s op hinv hfresh
    exact (step_freshInv c hinv hfresh).1
  . intro s op hinv hfresh
    exact (step_freshInv c hinv hfresh).2

/--
No operation on the inbox reads a clock before `now`.
-/
def NotBefore (now : UInt64) (ops : List Op) : Prop :=
  ∀ op ∈ ops, ∀ time, op.clock = some time → now ≤ time

theorem notBefore_of_allows {op : Op} {now : UInt64} (h : ∀ time, op.clock = some time → now ≤ time)
    {label : Label} (hallows : op.Allows label)
    : label.NotBefore now := by
  cases label with
  | resolve application token time =>
    cases op with
    | resolve a id t n resolution => exact hallows.2.2 ▸ h n rfl
    | _ => exact hallows.elim
  | renew application token time =>
    cases op with
    | renew a id t n duration => exact hallows.2.2 ▸ h n rfl
    | _ => exact hallows.elim
  | _ => trivial

theorem run_dead {s : Store} (hinv : FreshInv s) {token : String} {now : UInt64}
    (hdead : Dead s.inbox token now) {ops : List Op}
    (hfresh : (storeMachine c).Along FreshToken s ops) (htime : NotBefore now ops)
    : Dead ((storeMachine c).run s ops).inbox token now ∧
        (Uncompleted s.inbox token →
          Uncompleted ((storeMachine c).run s ops).inbox token) := by
  induction ops generalizing s with
  | nil => exact ⟨hdead, id⟩
  | cons op ops ih =>
    have htouches := step_touches True c hinv.inbox (fun _ => hfresh.1)
    obtain ⟨hdead', hcompleted⟩ := htouches.dead hinv.inbox hinv.tokens hdead
      (fun _ hallows => notBefore_of_allows (htime op (by simp)) hallows)
    obtain ⟨hdead'', hcompleted'⟩ := ih (step_freshInv c hinv hfresh.1).1 hdead' hfresh.2
      (fun op' hmem => htime op' (by simp [hmem]))
    exact ⟨hdead'', fun h => hcompleted' (hcompleted h)⟩

end Runs

theorem claim_completed_mapping (c : Crypto) {s : Store} (hinv : FreshInv s)
    {application : Application} {key : String} {now duration : UInt64} {rng : Rng} {claimed : Claim}
    (h : (step c s (.claim application key now duration rng)).1 = .ok (.claimed (.completed claimed)))
    : key ≠ "" ∧ ∃ mapping,
        (step c s (.claim application key now duration rng)).2.claimKeys[
          claimMappingKey application key]? = some mapping ∧
        mapping.inboundId = claimed.inboundId ∧ mapping.token = claimed.claimToken := by
  simp only [step] at h ⊢
  generalize hclaim : claim application key now duration rng s = res at h ⊢
  obtain ⟨result, s'⟩ := res
  cases result with
  | error e => cases h
  | ok result =>
    simp only [Except.ok.injEq, Answer.claimed.injEq] at h
    subst h
    have hkey : key ≠ "" := by
      rintro rfl
      simp [claim] at hclaim
    refine ⟨hkey, ?_⟩
    dsimp only
    unfold claim at hclaim
    rw [if_neg hkey] at hclaim
    split at hclaim
    . cases (Prod.mk.inj hclaim).1
    . next t hrefresh =>
      have htouches : Touches True (fun _ => True) s.inbox t.inbox :=
        refreshExpirations_touches (fun _ _ => trivial) hinv.inbox hrefresh
      have hinbox := htouches.inv hinv.inbox
      split at hclaim
      . cases (Prod.mk.inj hclaim).1
      . next result s'' hnext =>
        obtain ⟨hresult, rfl⟩ := Prod.mk.inj hclaim
        injection hresult with hresult
        subst hresult
        obtain ⟨mapping, hmapping, hagain, rfl⟩ | ⟨_, _, hempty, _⟩ |
          ⟨record, token, _, _, _, _, _, _, hcompleted, rfl⟩ := claimNext_cases hnext
        . refine ⟨mapping, hmapping, ?_⟩
          simp only [claimAgain, Except.bind_ok_iff, Option.okOr_eq_ok] at hagain
          obtain ⟨record, hrecord, hagain⟩ := hagain
          split at hagain
          . cases hagain
          . next hlive =>
            simp only [claimFrom, Except.bind_ok_iff, Option.okOr_eq_ok, Except.ok.injEq,
              ClaimResult.completed.injEq] at hagain
            obtain ⟨_, ⟨token, htoken, expires, _, rfl⟩, rfl⟩ := hagain
            simp only [not_or, not_not] at hlive
            refine ⟨(hinbox.id _ record hrecord).symm, ?_⟩
            have htoken' := (isHeld_iff.mp hlive.2).2.1
            rw [htoken] at htoken'
            injection htoken' with heq
            exact heq.symm
        . cases hempty
        . injection hcompleted with hcompleted
          subst hcompleted
          exact ⟨_, Std.ExtTreeMap.getElem?_insert_self, rfl, rfl⟩

theorem resolve_recorded {s s' : Store} (hinv : FreshInv s) {application : Application}
    {inboundId token : String} {now : UInt64} {resolution : Resolution} {state : InboundState}
    (h : resolve application inboundId token now resolution s = .ok (state, s'))
    : s'.resolvedTokens[token]? = some ⟨inboundId, state, true⟩ ∧
        ∃ record, s'.records[inboundId]? = some record ∧ record.application = application := by
  obtain ⟨resolved, record, hresolved, hrecord, happlication, rfl, hcompleted, rfl, rfl⟩ |
    ⟨record, hnone, hrecord, _, hstate, htoken, _, _⟩ |
    ⟨record, _, _, _, happlication, _, _, rfl, rfl⟩ := resolve_cases h
  . refine ⟨?_, record, hrecord, happlication⟩
    rw [hresolved, ← hcompleted]
  . obtain ⟨resolution', hresolved⟩ := hinv.tokens.known _ record token hrecord htoken hstate
    have hnone' : s.inbox.resolvedTokens[token]? = none := hnone
    rw [hnone'] at hresolved
    cases hresolved
  . refine ⟨Std.ExtTreeMap.getElem?_insert_self, _, Std.ExtTreeMap.getElem?_insert_self, ?_⟩
    rw [resolveRecord_application]
    exact happlication

theorem resolve_of_recorded {s : Store} {application : Application} {inboundId token : String}
    {state : InboundState} (hresolved : s.resolvedTokens[token]? = some ⟨inboundId, state, true⟩)
    {record : InboundRecord} (hrecord : s.records[inboundId]? = some record)
    (happlication : record.application = application) (now : UInt64) (resolution : Resolution)
    : resolve application inboundId token now resolution s = .ok (state, s) := by
  unfold resolve
  simp [hresolved, hrecord, happlication]

theorem dead_token_fails (c : Crypto) {s : Store} (hinv : FreshInv s) {token : String}
    {now now' : UInt64} (hdead : Dead s.inbox token now) (huncompleted : Uncompleted s.inbox token)
    (hle : now ≤ now') (application : Application) (inboundId : String)
    : (∀ resolution, ∃ e,
          step c s (.resolve application inboundId token now' resolution) = (.error e, s)) ∧
        (∀ duration, ∃ e,
          step c s (.renew application inboundId token now' duration) = (.error e, s)) ∧
        ∃ e, claimedPayload application inboundId token now' s = .error e := by
  have hunheld : ∀ (record : InboundRecord), s.records[inboundId]? = some record →
      record.isHeld token now' = false := by
    intro record hrecord
    rw [Bool.eq_false_iff]
    intro hheld
    have hfalse := hdead.unheld inboundId record hrecord
    rw [isHeld_mono hle hheld] at hfalse
    cases hfalse
  refine ⟨?_, ?_, ?_⟩
  . intro resolution
    rcases transact_cases s (resolve application inboundId token now' resolution s)
      Answer.resolved with ⟨e, _, heq⟩ | ⟨state, s', hok, _⟩
    . exact ⟨e, heq⟩
    . exfalso
      obtain ⟨resolved, _, hresolved, _, _, _, hcompleted, _, _⟩ |
        ⟨record, hnone, hrecord, _, hstate, htoken, _, _⟩ |
        ⟨record, _, _, hrecord, _, hheld, _, _, _⟩ := resolve_cases hok
      . have hfalse := huncompleted resolved hresolved
        rw [hcompleted] at hfalse
        cases hfalse
      . obtain ⟨_, hresolved⟩ := hinv.tokens.known _ record token hrecord htoken hstate
        have hnone' : s.inbox.resolvedTokens[token]? = none := hnone
        rw [hnone'] at hresolved
        cases hresolved
      . rw [hunheld record hrecord] at hheld
        cases hheld
  . intro duration
    rcases transact_cases s (renew application inboundId token now' duration s) Answer.renewed with
      ⟨e, _, heq⟩ | ⟨expires, s', hok, _⟩
    . exact ⟨e, heq⟩
    . obtain ⟨record, hrecord, _, hheld, _⟩ := renew_cases hok
      rw [hunheld record hrecord] at hheld
      cases hheld
  . cases hpayload : claimedPayload application inboundId token now' s with
    | error e => exact ⟨e, rfl⟩
    | ok payload =>
      simp only [claimedPayload, Except.bind_ok_iff, Option.okOr_eq_ok] at hpayload
      obtain ⟨record, hrecord, hpayload⟩ := hpayload
      rw [hunheld record hrecord] at hpayload
      split at hpayload
      . cases hpayload
      . simp at hpayload

/--
Claiming under a key that has been used answers for the one record of the key: with the claim itself
as long as it is held, and that it is over ever after.
-/
structure ClaimsOnce (c : Crypto) (s : Store) (application : Application) (key : String)
    (inboundId token : String) (now duration : UInt64) (rng : Rng)
    : Prop where
  held : HoldsClaim s inboundId token now →
    (∃ claimed, (step c s (.claim application key now duration rng)).1 =
        .ok (.claimed (.completed claimed)) ∧
      claimed.inboundId = inboundId ∧ claimed.claimToken = token) ∧
    (step c s (.claim application key now duration rng)).2.records[inboundId]? =
      s.records[inboundId]? ∧
    (step c s (.claim application key now duration rng)).2.claimKeys[
      claimMappingKey application key]? = s.claimKeys[claimMappingKey application key]?
  ended : ¬HoldsClaim s inboundId token now →
    ∃ state, (step c s (.claim application key now duration rng)).1 =
      .ok (.claimed (.resolved inboundId state))
  noOther : ∀ (id : String) record,
    (step c s (.claim application key now duration rng)).2.records[id]? = some record →
    record.state = .claimed → s.records[id]? = some record

theorem claimsOnce_of_mapping (c : Crypto) {s : Store} (hinv : FreshInv s) {application : Application}
    {key : String} (hkey : key ≠ "") {mapping : ClaimMapping}
    (hmapping : s.claimKeys[claimMappingKey application key]? = some mapping)
    (now duration : UInt64) (rng : Rng)
    : ClaimsOnce c s application key mapping.inboundId mapping.token now duration rng := by
  obtain ⟨t, result, hrefresh, hclaim, hheld, hover⟩ :=
    claim_again hinv hmapping hkey now duration rng
  have hstep : step c s (.claim application key now duration rng) = (.ok (.claimed result), t) := by
    simp only [step, hclaim]
  refine ⟨?_, ?_, ?_⟩
  . intro hholds
    obtain ⟨⟨claimed, rfl, hid, htoken⟩, hrecord, hkept⟩ := hheld hholds
    rw [hstep]
    exact ⟨⟨claimed, rfl, hid, htoken⟩, hrecord, hkept⟩
  . intro hnot
    obtain ⟨state, rfl⟩ := hover hnot
    rw [hstep]
    exact ⟨state, rfl⟩
  . intro id record hrecord hstate
    rw [hstep] at hrecord
    exact (claimed_before_refresh hinv.inbox hrefresh hrecord hstate).1

theorem empty_freshInv : FreshInv .empty := ⟨empty_inboxInv, empty_tokenInv⟩

/--
The claims of a store that was reached with fresh tokens. The clock readings of the later operations
need not be in order, as long as none of them is before the reading at which a claim was over.
-/
theorem run_claims_idempotent (c : Crypto) (ops : List Op)
    (hfresh : (storeMachine c).Along FreshToken .empty ops)
    : let s := (storeMachine c).run .empty ops
      (∀ application key now duration rng claimed,
        FreshToken s (.claim application key now duration rng) →
        (step c s (.claim application key now duration rng)).1 =
          .ok (.claimed (.completed claimed)) →
        ∀ later, (storeMachine c).Along FreshToken
          (step c s (.claim application key now duration rng)).2 later →
        let t := (storeMachine c).run (step c s (.claim application key now duration rng)).2 later
        ∀ now' duration' rng',
          ClaimsOnce c t application key claimed.inboundId claimed.claimToken now' duration' rng' ∧
          (¬HoldsClaim t claimed.inboundId claimed.claimToken now' →
            ∀ more, (storeMachine c).Along FreshToken t more → NotBefore now' more →
            ∀ now'' duration'' rng'', now' ≤ now'' →
              ∃ state, (step c ((storeMachine c).run t more)
                (.claim application key now'' duration'' rng'')).1 =
                .ok (.claimed (.resolved claimed.inboundId state)))) ∧
      (∀ application inboundId token now resolution state,
        (step c s (.resolve application inboundId token now resolution)).1 = .ok (.resolved state) →
        ∀ later, (storeMachine c).Along FreshToken
          (step c s (.resolve application inboundId token now resolution)).2 later →
        let t := (storeMachine c).run
          (step c s (.resolve application inboundId token now resolution)).2 later
        ∀ now' resolution',
          step c t (.resolve application inboundId token now' resolution') =
            (.ok (.resolved state), t)) ∧
      (∀ (id : String) record token expires now, s.records[id]? = some record →
        record.state = .claimed → record.claimToken = some token →
        record.claimExpires = some expires → expires ≤ now →
        ∀ later, (storeMachine c).Along FreshToken s later → NotBefore now later →
        let t := (storeMachine c).run s later
        ∀ now' application inboundId, now ≤ now' →
          (∀ resolution, ∃ e,
            step c t (.resolve application inboundId token now' resolution) = (.error e, t)) ∧
          (∀ duration, ∃ e,
            step c t (.renew application inboundId token now' duration) = (.error e, t)) ∧
          ∃ e, claimedPayload application inboundId token now' t = .error e) := by
  have hinv := run_freshInv c empty_freshInv hfresh
  generalize (storeMachine c).run .empty ops = s at *
  refine ⟨?_, ?_, ?_⟩
  . intro application key now duration rng claimed hop hclaim later hlater t now' duration' rng'
    obtain ⟨hkey, mapping, hmapping, hid, htoken⟩ := claim_completed_mapping c hinv hclaim
    have hinv₁ := (step_freshInv c hinv hop).1
    have hinvt : FreshInv t := run_freshInv c hinv₁ hlater
    obtain ⟨mapping', hmapping', hid', htoken'⟩ :=
      (run_kept c hinv₁ hlater).mappings _ mapping hmapping
    rw [← hid, ← htoken, ← hid', ← htoken']
    refine ⟨claimsOnce_of_mapping c hinvt hkey hmapping' now' duration' rng', ?_⟩
    intro hnot more hmore htime now'' duration'' rng'' hle
    have hdead := dead_of_not_holdsClaim hinvt hmapping' hnot
    obtain ⟨hdead', _⟩ := run_dead c hinvt hdead hmore htime
    obtain ⟨mapping'', hmapping'', hid'', htoken''⟩ :=
      (run_kept c hinvt hmore).mappings _ mapping' hmapping'
    have honce := claimsOnce_of_mapping c (run_freshInv c hinvt hmore) hkey hmapping'' now''
      duration'' rng''
    rw [hid'', htoken''] at honce
    apply honce.ended
    rintro ⟨record, hrecord, hheld⟩
    have hfalse := hdead'.unheld _ record hrecord
    rw [isHeld_mono hle hheld] at hfalse
    cases hfalse
  . intro application inboundId token now resolution state hresolve later hlater t now' resolution'
    rcases transact_cases s (resolve application inboundId token now resolution s)
      Answer.resolved with ⟨e, _, heq⟩ | ⟨state', s', hok, heq⟩
    . simp only [step, heq] at hresolve
      cases hresolve
    . simp only [step, heq] at hresolve hlater
      injection hresolve with hresolve
      injection hresolve with hresolve
      subst hresolve
      have hs' : (step c s (.resolve application inboundId token now resolution)).2 = s' := by
        simp only [step, heq]
      have hop : FreshToken s (.resolve application inboundId token now resolution) := trivial
      have hinv' := (step_freshInv c hinv hop).1
      rw [hs'] at hinv'
      obtain ⟨hrecorded, record, hrecord, happlication⟩ := resolve_recorded hinv hok
      have hkept := run_kept c hinv' hlater
      obtain ⟨record', hrecord', happlication'⟩ := hkept.records _ record hrecord
      have ht : t = (storeMachine c).run s' later := by simp only [t, hs']
      rw [← ht] at hkept hrecord'
      have hagain : resolve application inboundId token now' resolution' t = .ok (state', t) :=
        resolve_of_recorded (hkept.tokens _ _ hrecorded) hrecord' (happlication'.trans happlication)
          now' resolution'
      simp only [step, hagain, transact]
  . intro id record token expires now hrecord hstate htoken hexpires hle later hlater htime t now'
      application inboundId hle'
    have hdead : Dead s.inbox token now := by
      refine ⟨fun hfresh => hfresh.2 id record hrecord htoken, ?_⟩
      intro id' record' hrecord'
      rw [Bool.eq_false_iff]
      intro hheld
      obtain ⟨_, htoken', expires', hexpires', hlt⟩ := isHeld_iff.mp hheld
      have hid := hinv.tokens.unique _ _ record record' token hrecord hrecord' htoken htoken'
      subst hid
      rw [show s.inbox.records[id]? = some record from hrecord] at hrecord'
      injection hrecord' with heq
      subst heq
      rw [hexpires] at hexpires'
      injection hexpires' with heq
      rw [← heq, UInt64.lt_iff_toNat_lt] at hlt
      rw [UInt64.le_iff_toNat_le] at hle
      omega
    have huncompleted : Uncompleted s.inbox token := by
      intro resolution hresolved
      exact absurd hstate (hinv.tokens.resolved token resolution hresolved id record hrecord htoken)
    obtain ⟨hdead', hcompleted⟩ := run_dead c hinv hdead hlater htime
    exact dead_token_fails c (run_freshInv c hinv hlater) hdead' (hcompleted huncompleted) hle'
      application inboundId

def Sample.claimedMessage : Claim where
  inboundId := identifierOf 'I' (draw 9)
  claimToken := identifierOf 'C' (draw 3)
  expires := 15
  record :=
    claimRecord (newRecord (identifierOf 'I' (draw 9)) newInbound .message (Vector.replicate 32 0))
      "k" (identifierOf 'C' (draw 3)) 5 15 1

theorem Sample.receive_freshToken
    : FreshToken ((storeMachine crypto).run .empty [receive 9])
        (.claim application "k" 5 10 [draw 3]) := by
  intro token rng' htoken
  simp only [randomIdentifier, Except.ok.injEq, Prod.mk.injEq] at htoken
  obtain ⟨rfl, _⟩ := htoken
  refine ⟨by decide, ?_⟩
  intro id record hrecord
  have hnone : ∀ pair ∈ ((storeMachine crypto).run .empty [receive 9]).records.toList,
      pair.2.claimToken = none := by
    decide
  have := hnone (id, record) ((Table.mem_toList _ _ _).mpr hrecord)
  dsimp only at this
  rw [this]
  simp

/--
The claim of a message, repeated while it lasts.
-/
theorem run_claims_idempotent_message
    : ClaimsOnce Sample.crypto
        (step Sample.crypto ((storeMachine Sample.crypto).run .empty [Sample.receive 9])
          (.claim Sample.application "k" 5 10 [Sample.draw 3])).2
        Sample.application "k" Sample.claimedMessage.inboundId Sample.claimedMessage.claimToken 9 20
        [Sample.draw 4] := by
  have hrun := (run_claims_idempotent Sample.crypto [Sample.receive 9] ⟨trivial, trivial⟩).1
    Sample.application "k" 5 10 [Sample.draw 3] Sample.claimedMessage Sample.receive_freshToken
    (by decide) [] trivial 9 20 [Sample.draw 4]
  exact hrun.1

end Tith
