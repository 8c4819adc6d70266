import Tith.Store.Lemmas.Touches

/-!
This module contains the claim tokens: as long as every token that is drawn is fresh, a token
belongs to one claim forever, and what has become of it does not change any more.
-/

namespace Tith

/--
A token is resolved exactly if its claim is over.
-/
structure TokenInv (b : Inbox) : Prop where
  resolved : ∀ (token : String) resolution, b.resolvedTokens[token]? = some resolution →
    ∀ (id : String) record, b.records[id]? = some record → record.claimToken = some token →
      record.state ≠ .claimed
  known : ∀ (id : String) record token, b.records[id]? = some record →
    record.claimToken = some token → record.state ≠ .claimed →
    ∃ resolution, b.resolvedTokens[token]? = some resolution
  unique : ∀ (id id' : String) record record' token, b.records[id]? = some record →
    b.records[id']? = some record' → record.claimToken = some token →
    record'.claimToken = some token → id = id'
  closed : ∀ (k : List UInt8) mapping, b.claimKeys[k]? = some mapping → mapping.outcome ≠ none →
    ∃ resolution, b.resolvedTokens[mapping.token]? = some resolution

theorem empty_tokenInv : TokenInv Store.empty.inbox := by
  constructor
  . intro token resolution h
    simp [Store.empty, Store.inbox] at h
  . intro id record token h
    simp [Store.empty, Store.inbox] at h
  . intro id id' record record' token h
    simp [Store.empty, Store.inbox] at h
  . intro k mapping h
    simp [Store.empty, Store.inbox] at h

namespace TokenInv

variable {b : Inbox} (hinv : TokenInv b)

include hinv

theorem keep {record record' : InboundRecord}
    (hrecord : b.records[record.inboundId]? = some record)
    (htoken : record'.claimToken = record.claimToken) (hstate : record'.state = record.state)
    : TokenInv { b with records := b.records.insert record.inboundId record' } := by
  constructor
  . intro token resolution hresolved id other hget hother
    rcases Table.getElem?_insert_some hget with ⟨rfl, rfl⟩ | ⟨_, hold⟩
    . rw [hstate]
      exact hinv.resolved token resolution hresolved _ record hrecord (htoken ▸ hother)
    . exact hinv.resolved token resolution hresolved id other hold hother
  . intro id other token hget hother hne
    rcases Table.getElem?_insert_some hget with ⟨rfl, rfl⟩ | ⟨_, hold⟩
    . exact hinv.known _ record token hrecord (htoken ▸ hother) (hstate ▸ hne)
    . exact hinv.known id other token hold hother hne
  . intro id id' other other' token hget hget' hother hother'
    rcases Table.getElem?_insert_some hget with ⟨rfl, rfl⟩ | ⟨_, hold⟩
    . rcases Table.getElem?_insert_some hget' with ⟨rfl, rfl⟩ | ⟨_, hold'⟩
      . rfl
      . exact hinv.unique _ _ record other' token hrecord hold' (htoken ▸ hother) hother'
    . rcases Table.getElem?_insert_some hget' with ⟨rfl, rfl⟩ | ⟨_, hold'⟩
      . exact hinv.unique _ _ other record token hold hrecord hother (htoken ▸ hother')
      . exact hinv.unique _ _ other other' token hold hold' hother hother'
  . exact hinv.closed

theorem close {record : InboundRecord} (record' : InboundRecord) {token : String} {k : List UInt8}
    (hrecord : b.records[record.inboundId]? = some record)
    (hheld : record.claimToken = some token) (htoken : record'.claimToken = record.claimToken)
    (hstate : record'.state ≠ .claimed) (resolution : TokenResolution) (outcome : InboundState)
    : TokenInv
        { b with
          records := b.records.insert record.inboundId record'
          claimKeys := b.claimKeys.insert k ⟨record.inboundId, token, some outcome⟩
          resolvedTokens := b.resolvedTokens.insert token resolution } := by
  have hkept : ∀ token' : String, (∃ r, b.resolvedTokens[token']? = some r) →
      ∃ r, (b.resolvedTokens.insert token resolution)[token']? = some r := by
    rintro token' ⟨r, hr⟩
    rw [Table.getElem?_insert]
    split
    . exact ⟨_, rfl⟩
    . exact ⟨r, hr⟩
  have hnew : ∃ r, (b.resolvedTokens.insert token resolution)[token]? = some r :=
    ⟨_, Std.ExtTreeMap.getElem?_insert_self⟩
  constructor
  . intro token' resolution' hresolved id other hget hother
    rcases Table.getElem?_insert_some hget with ⟨rfl, rfl⟩ | ⟨hne, hold⟩
    . exact hstate
    . rcases Table.getElem?_insert_some hresolved with ⟨rfl, _⟩ | ⟨_, hresolved⟩
      . exact absurd (hinv.unique _ _ record other token hrecord hold hheld hother) hne
      . exact hinv.resolved token' resolution' hresolved id other hold hother
  . intro id other token' hget hother hne
    rcases Table.getElem?_insert_some hget with ⟨rfl, rfl⟩ | ⟨_, hold⟩
    . rw [htoken, hheld] at hother
      injection hother with heq
      exact heq ▸ hnew
    . exact hkept token' (hinv.known id other token' hold hother hne)
  . intro id id' other other' token' hget hget' hother hother'
    rcases Table.getElem?_insert_some hget with ⟨rfl, rfl⟩ | ⟨_, hold⟩
    . rcases Table.getElem?_insert_some hget' with ⟨rfl, rfl⟩ | ⟨_, hold'⟩
      . rfl
      . exact hinv.unique _ _ record other' token' hrecord hold' (htoken ▸ hother) hother'
    . rcases Table.getElem?_insert_some hget' with ⟨rfl, rfl⟩ | ⟨_, hold'⟩
      . exact hinv.unique _ _ other record token' hold hrecord hother (htoken ▸ hother')
      . exact hinv.unique _ _ other other' token' hold hold' hother hother'
  . intro k' mapping hmapping houtcome
    rcases Table.getElem?_insert_some hmapping with ⟨_, rfl⟩ | ⟨_, hold⟩
    . exact hnew
    . exact hkept mapping.token (hinv.closed k' mapping hold houtcome)

theorem claim {inboundId : String} {record : InboundRecord} {token : String} {k : List UInt8}
    (hfresh : IsFresh b token) (htoken : record.claimToken = some token)
    (hstate : record.state = .claimed)
    : TokenInv
        { b with
          records := b.records.insert inboundId record
          claimKeys := b.claimKeys.insert k ⟨inboundId, token, none⟩ } := by
  constructor
  . intro token' resolution hresolved id other hget hother
    rcases Table.getElem?_insert_some hget with ⟨rfl, rfl⟩ | ⟨_, hold⟩
    . rw [htoken] at hother
      injection hother with heq
      subst heq
      have hnone := hfresh.1
      dsimp only at hresolved
      rw [hresolved] at hnone
      cases hnone
    . exact hinv.resolved token' resolution hresolved id other hold hother
  . intro id other token' hget hother hne
    rcases Table.getElem?_insert_some hget with ⟨rfl, rfl⟩ | ⟨_, hold⟩
    . exact absurd hstate hne
    . exact hinv.known id other token' hold hother hne
  . intro id id' other other' token' hget hget' hother hother'
    rcases Table.getElem?_insert_some hget with ⟨rfl, rfl⟩ | ⟨_, hold⟩
    . rw [htoken] at hother
      rcases Table.getElem?_insert_some hget' with ⟨rfl, rfl⟩ | ⟨_, hold'⟩
      . rfl
      . exact absurd (hother'.trans hother.symm) (hfresh.2 _ _ hold')
    . rcases Table.getElem?_insert_some hget' with ⟨rfl, rfl⟩ | ⟨_, hold'⟩
      . rw [htoken] at hother'
        exact absurd (hother.trans hother'.symm) (hfresh.2 _ _ hold)
      . exact hinv.unique _ _ other other' token' hold hold' hother hother'
  . intro k' mapping hmapping houtcome
    rcases Table.getElem?_insert_some hmapping with ⟨_, rfl⟩ | ⟨_, hold⟩
    . exact absurd rfl houtcome
    . exact hinv.closed k' mapping hold houtcome

theorem store {id : String} {record : InboundRecord} (htoken : record.claimToken = none)
    (payloads : Table String (List UInt8))
    : TokenInv { b with records := b.records.insert id record, payloads } := by
  constructor
  . intro token resolution hresolved id' other hget hother
    rcases Table.getElem?_insert_some hget with ⟨_, rfl⟩ | ⟨_, hold⟩
    . rw [htoken] at hother
      cases hother
    . exact hinv.resolved token resolution hresolved id' other hold hother
  . intro id' other token hget hother hne
    rcases Table.getElem?_insert_some hget with ⟨_, rfl⟩ | ⟨_, hold⟩
    . rw [htoken] at hother
      cases hother
    . exact hinv.known id' other token hold hother hne
  . intro id' id'' other other' token hget hget' hother hother'
    rcases Table.getElem?_insert_some hget with ⟨_, rfl⟩ | ⟨_, hold⟩
    . rw [htoken] at hother
      cases hother
    . rcases Table.getElem?_insert_some hget' with ⟨_, rfl⟩ | ⟨_, hold'⟩
      . rw [htoken] at hother'
        cases hother'
      . exact hinv.unique _ _ other other' token hold hold' hother hother'
  . exact hinv.closed

end TokenInv

theorem Touch.tokenInv {label : Label} {b b' : Inbox} (h : Touch True label b b')
    (hinv : TokenInv b)
    : TokenInv b' := by
  cases h with
  | store value kind hash hnew => exact hinv.store rfl _
  | @expire _ record expires key token hrecord hstate hexpires hkey htoken =>
    exact hinv.close (expireRecord record expires) hrecord htoken rfl (by simp [expireRecord]) _ _
  | claim now expires attempts hrecord hstate hkey hfresh =>
    exact hinv.claim (hfresh trivial) rfl rfl
  | @resolve _ record key token now resolution hrecord hheld hkey htoken =>
    have hstate := resolveRecord_state_ne record now resolution
    have htoken' := resolveRecord_claimToken record now resolution
    exact hinv.close _ hrecord (isHeld_iff.mp hheld).2.1 htoken' hstate _ _
  | renew expires hrecord hheld => exact hinv.keep hrecord rfl rfl
  | link jobId hrecord hstate hforward => exact hinv.keep hrecord rfl rfl

/--
What a change keeps for good: the records and their applications, what claim keys are bound to, and
what has become of tokens.
-/
structure Kept (b b' : Inbox) : Prop where
  records : ∀ (id : String) record, b.records[id]? = some record →
    ∃ record', b'.records[id]? = some record' ∧ record'.application = record.application
  mappings : ∀ (k : List UInt8) mapping, b.claimKeys[k]? = some mapping →
    ∃ mapping', b'.claimKeys[k]? = some mapping' ∧ mapping'.inboundId = mapping.inboundId ∧
      mapping'.token = mapping.token
  tokens : ∀ (token : String) resolution, b.resolvedTokens[token]? = some resolution →
    b'.resolvedTokens[token]? = some resolution

theorem Kept.refl (b : Inbox) : Kept b b :=
  ⟨fun _ record h => ⟨record, h, rfl⟩, fun _ mapping h => ⟨mapping, h, rfl, rfl⟩, fun _ _ h => h⟩

theorem Kept.trans {b b' b'' : Inbox} (h : Kept b b') (h' : Kept b' b'') : Kept b b'' := by
  constructor
  . intro id record hrecord
    obtain ⟨record', hrecord', happlication⟩ := h.records id record hrecord
    obtain ⟨record'', hrecord'', happlication'⟩ := h'.records id record' hrecord'
    exact ⟨record'', hrecord'', happlication'.trans happlication⟩
  . intro k mapping hmapping
    obtain ⟨mapping', hmapping', hid, htoken⟩ := h.mappings k mapping hmapping
    obtain ⟨mapping'', hmapping'', hid', htoken'⟩ := h'.mappings k mapping' hmapping'
    exact ⟨mapping'', hmapping'', hid'.trans hid, htoken'.trans htoken⟩
  . intro token resolution hresolved
    exact h'.tokens token resolution (h.tokens token resolution hresolved)

theorem InboxInv.mapping_close {b : Inbox} (hinv : InboxInv b) {record : InboundRecord}
    (hrecord : b.records[record.inboundId]? = some record) (hstate : record.state = .claimed)
    {key token : String} (hkey : record.claimKey = some key)
    (htoken : record.claimToken = some token) (outcome : InboundState) {k : List UInt8}
    {mapping : ClaimMapping} (hmapping : b.claimKeys[k]? = some mapping)
    : ∃ mapping',
        (b.claimKeys.insert (claimMappingKey record.application key)
          ⟨record.inboundId, token, some outcome⟩)[k]? = some mapping' ∧
        mapping'.inboundId = mapping.inboundId ∧ mapping'.token = mapping.token := by
  -- Closing the claim key of a claimed record does not change what the key is bound to.
  rw [Table.getElem?_insert]
  split
  . next heq =>
    obtain ⟨key', token', hkey', htoken', hmap⟩ := hinv.mapped _ record hrecord hstate
    rw [hkey] at hkey'
    rw [htoken] at htoken'
    injection hkey' with hkey'
    injection htoken' with htoken'
    subst hkey' htoken'
    rw [heq, hmapping] at hmap
    injection hmap with hmap
    exact ⟨_, rfl, by rw [hmap], by rw [hmap]⟩
  . exact ⟨mapping, hmapping, rfl, rfl⟩

theorem Touch.kept {label : Label} {b b' : Inbox} (h : Touch True label b b') (hinv : InboxInv b)
    (htokens : TokenInv b)
    : Kept b b' := by
  refine ⟨?_, ?_, ?_⟩
  . intro id record hrecord
    obtain ⟨record', hrecord', hkept⟩ := h.record_kept hrecord
    exact ⟨record', hrecord', hkept.application⟩
  . intro k mapping hmapping
    cases h with
    | store => exact ⟨mapping, hmapping, rfl, rfl⟩
    | expire hrecord hstate hexpires hkey htoken =>
      exact hinv.mapping_close hrecord hstate hkey htoken _ hmapping
    | claim now expires attempts hrecord hstate hkey hfresh =>
      refine ⟨mapping, ?_, rfl, rfl⟩
      dsimp only
      rw [Table.getElem?_insert_ne, hmapping]
      rintro rfl
      rw [hkey] at hmapping
      cases hmapping
    | resolve resolution hrecord hheld hkey htoken =>
      obtain ⟨hstate, htoken', _⟩ := isHeld_iff.mp hheld
      exact hinv.mapping_close hrecord hstate hkey htoken' _ hmapping
    | renew => exact ⟨mapping, hmapping, rfl, rfl⟩
    | link => exact ⟨mapping, hmapping, rfl, rfl⟩
  . intro token resolution hresolved
    cases h with
    | store => exact hresolved
    | expire hrecord hstate hexpires hkey htoken =>
      refine (Table.getElem?_insert_ne _ ?_ _).trans hresolved
      rintro rfl
      exact htokens.resolved _ resolution hresolved _ _ hrecord htoken hstate
    | claim => exact hresolved
    | resolve _ hrecord hheld hkey htoken =>
      refine (Table.getElem?_insert_ne _ ?_ _).trans hresolved
      rintro rfl
      rw [htoken] at hresolved
      cases hresolved
    | renew => exact hresolved
    | link => exact hresolved

theorem Touches.kept {allowed : Label → Prop} {b b' : Inbox} (h : Touches True allowed b b')
    (hinv : InboxInv b) (htokens : TokenInv b)
    : InboxInv b' ∧ TokenInv b' ∧ Kept b b' := by
  induction h with
  | refl => exact ⟨hinv, htokens, .refl b⟩
  | tail _ hstep ih =>
    obtain ⟨label, _, htouch⟩ := hstep
    obtain ⟨hinv', htokens', hkept⟩ := ih
    exact ⟨htouch.inv hinv', htouch.tokenInv htokens',
      hkept.trans (htouch.kept hinv' htokens')⟩

/--
The inbox knows a token, but nobody holds a record with it at `now` or later.
-/
structure Dead (b : Inbox) (token : String) (now : UInt64) : Prop where
  seen : ¬IsFresh b token
  unheld : ∀ (id : String) record, b.records[id]? = some record →
    record.isHeld token now = false

/--
A change is not made with a clock reading before `now`.
-/
def Label.NotBefore (label : Label) (now : UInt64) : Prop :=
  match label with
  | .resolve _ _ time | .renew _ _ time => now ≤ time
  | _ => True

theorem isHeld_mono {record : InboundRecord} {token : String} {now now' : UInt64} (hle : now ≤ now')
    (h : record.isHeld token now' = true)
    : record.isHeld token now = true := by
  obtain ⟨hstate, htoken, expires, hexpires, hlt⟩ := isHeld_iff.mp h
  refine isHeld_iff.mpr ⟨hstate, htoken, expires, hexpires, ?_⟩
  rw [UInt64.lt_iff_toNat_lt] at hlt ⊢
  rw [UInt64.le_iff_toNat_le] at hle
  omega

theorem isHeld_eq_false_of_ne {record : InboundRecord} {token token' : String} {now : UInt64}
    (htoken : record.claimToken = some token') (hne : token' ≠ token)
    : record.isHeld token now = false := by
  rw [Bool.eq_false_iff]
  intro hheld
  obtain ⟨_, htoken', _⟩ := isHeld_iff.mp hheld
  rw [htoken] at htoken'
  injection htoken' with heq
  exact hne heq

theorem isHeld_eq_false_of_state {record : InboundRecord} {token : String} {now : UInt64}
    (hstate : record.state ≠ .claimed)
    : record.isHeld token now = false := by
  rw [Bool.eq_false_iff]
  intro hheld
  exact hstate (isHeld_iff.mp hheld).1

theorem Touch.isFresh_of {label : Label} {b b' : Inbox} (h : Touch True label b b')
    (hinv : InboxInv b) (htokens : TokenInv b) {token : String} (hfresh : IsFresh b' token)
    : IsFresh b token := by
  -- The inbox does not forget a token.
  have hkept := h.kept hinv htokens
  have hnone : b.resolvedTokens[token]? = none := by
    cases hresolved : b.resolvedTokens[token]? with
    | none => rfl
    | some resolution =>
      have := hkept.tokens token resolution hresolved
      rw [hfresh.1] at this
      cases this
  refine ⟨hnone, ?_⟩
  intro id record hrecord htoken
  by_cases hstate : record.state = .claimed
  . obtain ⟨record', hrecord', hkept'⟩ := h.record_kept hrecord
    exact hfresh.2 id record' hrecord' ((hkept'.claimToken hstate).trans htoken)
  . obtain ⟨resolution, hresolved⟩ := htokens.known id record token hrecord htoken hstate
    rw [hnone] at hresolved
    cases hresolved

theorem Touch.dead {label : Label} {b b' : Inbox} (h : Touch True label b b') (hinv : InboxInv b)
    (htokens : TokenInv b) {token : String} {now : UInt64} (hdead : Dead b token now)
    (htime : label.NotBefore now)
    : Dead b' token now := by
  -- No change gives a dead token a record again.
  refine ⟨fun hfresh => hdead.seen (h.isFresh_of hinv htokens hfresh), ?_⟩
  have hinsert : ∀ (inboundId : String) (record' : InboundRecord),
      record'.isHeld token now = false →
      ∀ (id : String) other, (b.records.insert inboundId record')[id]? = some other →
        other.isHeld token now = false := by
    intro inboundId record' hfalse id other hget
    rcases Table.getElem?_insert_some hget with ⟨_, rfl⟩ | ⟨_, hold⟩
    . exact hfalse
    . exact hdead.unheld id other hold
  cases h with
  | store value kind hash hnew =>
    exact hinsert _ _ (isHeld_eq_false_of_state (by simp [newRecord]))
  | expire => exact hinsert _ _ (isHeld_eq_false_of_state (by simp [expireRecord]))
  | @claim _ record key token' now' expires attempts hrecord hstate hkey hfresh =>
    have hne : token' ≠ token := by
      rintro rfl
      exact hdead.seen (hfresh trivial)
    exact hinsert _ _ (isHeld_eq_false_of_ne rfl hne)
  | @resolve _ record key token' now' resolution hrecord hheld hkey htoken =>
    exact hinsert _ _ (isHeld_eq_false_of_state (resolveRecord_state_ne record now' resolution))
  | @renew _ record token' now' expires hrecord hheld =>
    by_cases heq : token' = token
    . subst heq
      have hfalse := hdead.unheld _ record hrecord
      rw [isHeld_mono htime hheld] at hfalse
      cases hfalse
    . exact hinsert _ _ (isHeld_eq_false_of_ne (isHeld_iff.mp hheld).2.1 heq)
  | @link _ record jobId hrecord hstate hforward =>
    exact hinsert _ _ (hdead.unheld _ record hrecord)

/--
The claim of a dead token has not been completed.
-/
def Uncompleted (b : Inbox) (token : String) : Prop :=
  ∀ resolution, b.resolvedTokens[token]? = some resolution → resolution.completed = false

theorem Touch.uncompleted {label : Label} {b b' : Inbox} (h : Touch True label b b')
    {token : String} {now : UInt64} (hdead : Dead b token now) (htime : label.NotBefore now)
    (huncompleted : Uncompleted b token)
    : Uncompleted b' token := by
  intro resolution hresolved
  cases h with
  | store => exact huncompleted resolution hresolved
  | expire =>
    rcases Table.getElem?_insert_some hresolved with ⟨_, rfl⟩ | ⟨_, hold⟩
    . rfl
    . exact huncompleted resolution hold
  | claim => exact huncompleted resolution hresolved
  | @resolve _ record key token' now' _ hrecord hheld hkey htoken =>
    rcases Table.getElem?_insert_some hresolved with ⟨rfl, _⟩ | ⟨_, hold⟩
    . have hfalse := hdead.unheld _ record hrecord
      rw [isHeld_mono htime hheld] at hfalse
      cases hfalse
    . exact huncompleted resolution hold
  | renew => exact huncompleted resolution hresolved
  | link => exact huncompleted resolution hresolved

theorem Touches.dead {allowed : Label → Prop} {b b' : Inbox} (h : Touches True allowed b b')
    (hinv : InboxInv b) (htokens : TokenInv b) {token : String} {now : UInt64}
    (hdead : Dead b token now) (htime : ∀ label, allowed label → label.NotBefore now)
    : Dead b' token now ∧ (Uncompleted b token → Uncompleted b' token) := by
  suffices hall : InboxInv b' ∧ TokenInv b' ∧ Dead b' token now ∧
      (Uncompleted b token → Uncompleted b' token) from hall.2.2
  induction h with
  | refl => exact ⟨hinv, htokens, hdead, id⟩
  | tail _ hstep ih =>
    obtain ⟨label, hallowed, htouch⟩ := hstep
    obtain ⟨hinv', htokens', hdead', hcompleted⟩ := ih
    have hnotBefore := htime label hallowed
    exact ⟨htouch.inv hinv', htouch.tokenInv htokens', htouch.dead hinv' htokens' hdead' hnotBefore,
      fun h => htouch.uncompleted hdead' hnotBefore (hcompleted h)⟩

end Tith
