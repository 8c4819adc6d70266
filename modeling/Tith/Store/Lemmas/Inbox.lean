import Tith.Store.Lemmas.Frames

/-!
This module contains the inbox: the inbound records with their payloads, claim keys and claim
tokens. `Touch` lists everything that any operation can do to it, the invariants of the claims are
then proved once.
-/

namespace Tith

structure Inbox where
  records : Table String InboundRecord
  payloads : Table String (List UInt8)
  claimKeys : Table (List UInt8) ClaimMapping
  resolvedTokens : Table String TokenResolution

def Store.inbox (s : Store) : Inbox where
  records := s.records
  payloads := s.payloads
  claimKeys := s.claimKeys
  resolvedTokens := s.resolvedTokens

theorem LedgerOnly.inbox {s s' : Store} (h : LedgerOnly s s') : s'.inbox = s.inbox := by
  rw [h]
  rfl

/--
What a change of the inbox is, and who makes it when.
-/
inductive Label where
  | store
  | expire (expires : UInt64)
  | claim (application : Application) (key token : String)
  | resolve (application : Application) (token : String) (now : UInt64)
  | renew (application : Application) (token : String) (now : UInt64)
  | link (application : Application)

def IsFresh (b : Inbox) (token : String) : Prop :=
  b.resolvedTokens[token]? = none ∧
    ∀ (id : String) record, b.records[id]? = some record → record.claimToken ≠ some token

/--
One change of the inbox. If `fresh` holds, then the tokens that are drawn for claims are fresh.
-/
inductive Touch (fresh : Prop) : Label → Inbox → Inbox → Prop where
  | store {b : Inbox} {id : String} (value : NewInbound) (kind : StoredKind) (hash : TlvHash)
      (hnew : b.records[id]? = none) :
      Touch fresh .store b
        { b with
          records := b.records.insert id (newRecord id value kind hash)
          payloads := b.payloads.insert id value.payload }
  | expire {b : Inbox} {record : InboundRecord} {expires : UInt64} {key token : String}
      (hrecord : b.records[record.inboundId]? = some record) (hstate : record.state = .claimed)
      (hexpires : record.claimExpires = some expires) (hkey : record.claimKey = some key)
      (htoken : record.claimToken = some token) :
      Touch fresh (.expire expires) b
        { b with
          records := b.records.insert record.inboundId (expireRecord record expires)
          claimKeys :=
            b.claimKeys.insert (claimMappingKey record.application key)
              ⟨record.inboundId, token, some .available⟩
          resolvedTokens := b.resolvedTokens.insert token ⟨record.inboundId, .available, false⟩ }
  | claim {b : Inbox} {record : InboundRecord} {key token : String} (now expires attempts : UInt64)
      (hrecord : b.records[record.inboundId]? = some record)
      (hstate : record.state = .available ∨ record.state = .deferred)
      (hkey : b.claimKeys[claimMappingKey record.application key]? = none)
      (hfresh : fresh → IsFresh b token) :
      Touch fresh (.claim record.application key token) b
        { b with
          records :=
            b.records.insert record.inboundId (claimRecord record key token now expires attempts)
          claimKeys :=
            b.claimKeys.insert (claimMappingKey record.application key)
              ⟨record.inboundId, token, none⟩ }
  | resolve {b : Inbox} {record : InboundRecord} {key token : String} {now : UInt64}
      (resolution : Resolution) (hrecord : b.records[record.inboundId]? = some record)
      (hheld : record.isHeld token now) (hkey : record.claimKey = some key)
      (htoken : b.resolvedTokens[token]? = none) :
      Touch fresh (.resolve record.application token now) b
        { b with
          records := b.records.insert record.inboundId (resolveRecord record now resolution)
          claimKeys :=
            b.claimKeys.insert (claimMappingKey record.application key)
              ⟨record.inboundId, token, some (resolveRecord record now resolution).state⟩
          resolvedTokens :=
            b.resolvedTokens.insert token
              ⟨record.inboundId, (resolveRecord record now resolution).state, true⟩ }
  | renew {b : Inbox} {record : InboundRecord} {token : String} {now : UInt64} (expires : UInt64)
      (hrecord : b.records[record.inboundId]? = some record) (hheld : record.isHeld token now) :
      Touch fresh (.renew record.application token now) b
        { b with
          records :=
            b.records.insert record.inboundId { record with claimExpires := some expires } }
  | link {b : Inbox} {record : InboundRecord} (jobId : String)
      (hrecord : b.records[record.inboundId]? = some record) (hstate : record.state = .claimed)
      (hforward : record.forwardJob = none) :
      Touch fresh (.link record.application) b
        { b with
          records := b.records.insert record.inboundId { record with forwardJob := some jobId } }

/--
A sequence of changes that are all allowed.
-/
abbrev Touches (fresh : Prop) (allowed : Label → Prop) : Inbox → Inbox → Prop :=
  Relation.ReflTransGen (fun b b' => ∃ label, allowed label ∧ Touch fresh label b b')

theorem isHeld_iff {record : InboundRecord} {token : String} {now : UInt64}
    : record.isHeld token now = true ↔
        record.state = .claimed ∧ record.claimToken = some token ∧
          ∃ expires, record.claimExpires = some expires ∧ now < expires := by
  cases h : record.claimExpires with
  | none => simp [InboundRecord.isHeld, h]
  | some expires => simp [InboundRecord.isHeld, h]

theorem claimMappingKey_inj {application application' : Application} {key key' : String}
    (h : claimMappingKey application key = claimMappingKey application' key')
    : application = application' ∧ key = key' := by
  obtain ⟨hname, hkey⟩ := Bytes.withLength_append_inj (by simpa using application.size_lt)
    (by simpa using application'.size_lt) h
  obtain ⟨name, _⟩ := application
  obtain ⟨name', _⟩ := application'
  have := Bytes.ofString_inj.mp hname
  dsimp only at this
  subst this
  exact ⟨rfl, Bytes.ofString_inj.mp hkey⟩

theorem resolveRecord_state_ne (record : InboundRecord) (now : UInt64) (resolution : Resolution)
    : (resolveRecord record now resolution).state ≠ .claimed := by
  cases resolution with
  | _ => simp [resolveRecord]

/--
A record is claimed exactly if it has an expiry, and then one claim key is open and names it. An
open claim key names a claimed record.
-/
structure InboxInv (b : Inbox) : Prop where
  id : ∀ (id : String) record, b.records[id]? = some record → record.inboundId = id
  expires : ∀ (id : String) record, b.records[id]? = some record →
    (record.state = .claimed ↔ record.claimExpires.isSome)
  mapped : ∀ (id : String) record, b.records[id]? = some record → record.state = .claimed →
    ∃ key token, record.claimKey = some key ∧ record.claimToken = some token ∧
      b.claimKeys[claimMappingKey record.application key]? = some ⟨id, token, none⟩
  opened : ∀ (k : List UInt8) mapping, b.claimKeys[k]? = some mapping → mapping.outcome = none →
    ∃ record key, b.records[mapping.inboundId]? = some record ∧ record.state = .claimed ∧
      record.claimToken = some mapping.token ∧ record.claimKey = some key ∧
      k = claimMappingKey record.application key
  named : ∀ (k : List UInt8) mapping, b.claimKeys[k]? = some mapping →
    ∃ record, b.records[mapping.inboundId]? = some record
  payload : ∀ (id : String) record, b.records[id]? = some record →
    ∃ payload, b.payloads[id]? = some payload

theorem empty_inboxInv : InboxInv Store.empty.inbox := by
  constructor
  all_goals
    intro _ _ h
    simp [Store.empty, Store.inbox] at h

namespace InboxInv

variable {b : Inbox} (hinv : InboxInv b)

include hinv

theorem store {id : String} (hnew : b.records[id]? = none) (value : NewInbound) (kind : StoredKind)
    (hash : TlvHash)
    : InboxInv
        { b with
          records := b.records.insert id (newRecord id value kind hash)
          payloads := b.payloads.insert id value.payload } := by
  constructor
  . intro id' record hget
    rcases Table.getElem?_insert_some hget with ⟨rfl, rfl⟩ | ⟨_, hold⟩
    . rfl
    . exact hinv.id id' record hold
  . intro id' record hget
    rcases Table.getElem?_insert_some hget with ⟨rfl, rfl⟩ | ⟨_, hold⟩
    . simp [newRecord]
    . exact hinv.expires id' record hold
  . intro id' record hget hstate
    rcases Table.getElem?_insert_some hget with ⟨rfl, rfl⟩ | ⟨_, hold⟩
    . simp [newRecord] at hstate
    . exact hinv.mapped id' record hold hstate
  . intro k mapping hmapping houtcome
    obtain ⟨record, key, hrecord, hrest⟩ := hinv.opened k mapping hmapping houtcome
    refine ⟨record, key, ?_, hrest⟩
    dsimp only
    rw [Table.getElem?_insert_ne, hrecord]
    intro heq
    rw [heq, hrecord] at hnew
    cases hnew
  . intro k mapping hmapping
    obtain ⟨record, hrecord⟩ := hinv.named k mapping hmapping
    dsimp only
    rw [Table.getElem?_insert]
    split
    . exact ⟨_, rfl⟩
    . exact ⟨record, hrecord⟩
  . intro id' record hget
    dsimp only at hget ⊢
    rw [Table.getElem?_insert]
    split
    . exact ⟨_, rfl⟩
    . next hne =>
      rw [Table.getElem?_insert_ne _ hne] at hget
      exact hinv.payload id' record hget

theorem close {record : InboundRecord} (record' : InboundRecord) {key token : String}
    {outcome : InboundState}
    (hrecord : b.records[record.inboundId]? = some record) (hclaimed : record.state = .claimed)
    (hkey : record.claimKey = some key) (hid : record'.inboundId = record.inboundId)
    (hstate : record'.state ≠ .claimed) (hexpires : record'.claimExpires = none)
    (tokens : Table String TokenResolution)
    : InboxInv
        { b with
          records := b.records.insert record.inboundId record'
          claimKeys :=
            b.claimKeys.insert (claimMappingKey record.application key)
              ⟨record.inboundId, token, some outcome⟩
          resolvedTokens := tokens } := by
  have hmapped : ∀ (id : String) other, b.records[id]? = some other → other.state = .claimed →
      record.inboundId ≠ id → ∀ key', other.claimKey = some key' →
      claimMappingKey record.application key ≠ claimMappingKey other.application key' := by
    intro id other hother hclaimed' hne key' hkey' heq
    obtain ⟨key₁, _, hkey₁, _, hmap⟩ := hinv.mapped _ record hrecord hclaimed
    obtain ⟨key₂, _, hkey₂, _, hmap'⟩ := hinv.mapped id other hother hclaimed'
    rw [hkey] at hkey₁
    rw [hkey'] at hkey₂
    injection hkey₁ with hkey₁
    injection hkey₂ with hkey₂
    rw [← hkey₁, heq, hkey₂, hmap'] at hmap
    injection hmap with hmap
    exact hne (ClaimMapping.mk.inj hmap).1.symm
  constructor
  . intro id other hget
    rcases Table.getElem?_insert_some hget with ⟨rfl, rfl⟩ | ⟨_, hold⟩
    . exact hid
    . exact hinv.id id other hold
  . intro id other hget
    rcases Table.getElem?_insert_some hget with ⟨rfl, rfl⟩ | ⟨_, hold⟩
    . simp [hstate, hexpires]
    . exact hinv.expires id other hold
  . intro id other hget hclaimed'
    rcases Table.getElem?_insert_some hget with ⟨rfl, rfl⟩ | ⟨hne, hold⟩
    . exact absurd hclaimed' hstate
    . obtain ⟨key', token', hkey', htoken', hmap⟩ := hinv.mapped id other hold hclaimed'
      refine ⟨key', token', hkey', htoken', ?_⟩
      dsimp only
      rw [Table.getElem?_insert_ne _ (hmapped id other hold hclaimed' hne key' hkey')]
      exact hmap
  . intro k mapping hmapping houtcome
    rcases Table.getElem?_insert_some hmapping with ⟨rfl, rfl⟩ | ⟨hne, hold⟩
    . cases houtcome
    . obtain ⟨other, key', hother, hclaimed', htoken', hkey', rfl⟩ := hinv.opened k mapping hold houtcome
      refine ⟨other, key', ?_, hclaimed', htoken', hkey', rfl⟩
      dsimp only
      rw [Table.getElem?_insert_ne, hother]
      intro heq
      rw [← heq, hrecord] at hother
      injection hother with hother
      subst hother
      rw [hkey] at hkey'
      injection hkey' with hkey'
      exact hne (by rw [hkey'])
  . intro k mapping hmapping
    dsimp only at hmapping ⊢
    rw [Table.getElem?_insert]
    split
    . exact ⟨_, rfl⟩
    . next hne =>
      rcases Table.getElem?_insert_some hmapping with ⟨_, rfl⟩ | ⟨_, hold⟩
      . exact absurd rfl hne
      . exact hinv.named k mapping hold
  . intro id other hget
    rcases Table.getElem?_insert_some hget with ⟨rfl, _⟩ | ⟨_, hold⟩
    . exact hinv.payload _ record hrecord
    . exact hinv.payload id other hold

theorem keep {record record' : InboundRecord}
    (hrecord : b.records[record.inboundId]? = some record) (hclaimed : record.state = .claimed)
    (hid : record'.inboundId = record.inboundId)
    (happlication : record'.application = record.application) (hstate : record'.state = .claimed)
    (hkey : record'.claimKey = record.claimKey) (htoken : record'.claimToken = record.claimToken)
    (hexpires : record'.claimExpires.isSome)
    : InboxInv { b with records := b.records.insert record.inboundId record' } := by
  constructor
  . intro id other hget
    rcases Table.getElem?_insert_some hget with ⟨rfl, rfl⟩ | ⟨_, hold⟩
    . exact hid
    . exact hinv.id id other hold
  . intro id other hget
    rcases Table.getElem?_insert_some hget with ⟨rfl, rfl⟩ | ⟨_, hold⟩
    . simp [hstate, hexpires]
    . exact hinv.expires id other hold
  . intro id other hget hclaimed'
    rcases Table.getElem?_insert_some hget with ⟨rfl, rfl⟩ | ⟨_, hold⟩
    . rw [hkey, htoken, happlication]
      exact hinv.mapped _ record hrecord hclaimed
    . exact hinv.mapped id other hold hclaimed'
  . intro k mapping hmapping houtcome
    obtain ⟨other, key, hother, hclaimed', htoken', hkey', hk⟩ := hinv.opened k mapping hmapping houtcome
    dsimp only
    rw [Table.getElem?_insert]
    split
    . next heq =>
      rw [← heq, hrecord] at hother
      injection hother with hother
      subst hother
      exact ⟨record', key, rfl, hstate, htoken.trans htoken', hkey.trans hkey', happlication ▸ hk⟩
    . exact ⟨other, key, hother, hclaimed', htoken', hkey', hk⟩
  . intro k mapping hmapping
    dsimp only
    rw [Table.getElem?_insert]
    split
    . exact ⟨_, rfl⟩
    . exact hinv.named k mapping hmapping
  . intro id other hget
    rcases Table.getElem?_insert_some hget with ⟨rfl, _⟩ | ⟨_, hold⟩
    . exact hinv.payload _ record hrecord
    . exact hinv.payload id other hold

theorem claim {record : InboundRecord} {key token : String} (now expires attempts : UInt64)
    (hrecord : b.records[record.inboundId]? = some record)
    (hstate : record.state = .available ∨ record.state = .deferred)
    (hkey : b.claimKeys[claimMappingKey record.application key]? = none)
    : InboxInv
        { b with
          records :=
            b.records.insert record.inboundId (claimRecord record key token now expires attempts)
          claimKeys :=
            b.claimKeys.insert (claimMappingKey record.application key)
              ⟨record.inboundId, token, none⟩ } := by
  have hfree : record.state ≠ .claimed := by
    rcases hstate with h | h <;> simp [h]
  constructor
  . intro id other hget
    rcases Table.getElem?_insert_some hget with ⟨rfl, rfl⟩ | ⟨_, hold⟩
    . rfl
    . exact hinv.id id other hold
  . intro id other hget
    rcases Table.getElem?_insert_some hget with ⟨rfl, rfl⟩ | ⟨_, hold⟩
    . simp [claimRecord]
    . exact hinv.expires id other hold
  . intro id other hget hclaimed
    rcases Table.getElem?_insert_some hget with ⟨rfl, rfl⟩ | ⟨_, hold⟩
    . refine ⟨key, token, rfl, rfl, ?_⟩
      exact Std.ExtTreeMap.getElem?_insert_self
    . obtain ⟨key', token', hkey', htoken', hmap⟩ := hinv.mapped id other hold hclaimed
      refine ⟨key', token', hkey', htoken', ?_⟩
      dsimp only
      rw [Table.getElem?_insert_ne, hmap]
      intro heq
      rw [heq, hmap] at hkey
      cases hkey
  . intro k mapping hmapping houtcome
    rcases Table.getElem?_insert_some hmapping with ⟨rfl, rfl⟩ | ⟨_, hold⟩
    . refine ⟨_, key, Std.ExtTreeMap.getElem?_insert_self, rfl, rfl, rfl, rfl⟩
    . obtain ⟨other, key', hother, hclaimed, hrest⟩ := hinv.opened k mapping hold houtcome
      refine ⟨other, key', ?_, hclaimed, hrest⟩
      dsimp only
      rw [Table.getElem?_insert_ne, hother]
      intro heq
      rw [← heq, hrecord] at hother
      injection hother with hother
      exact hfree (hother ▸ hclaimed)
  . intro k mapping hmapping
    dsimp only at hmapping ⊢
    rw [Table.getElem?_insert]
    split
    . exact ⟨_, rfl⟩
    . next hne =>
      rcases Table.getElem?_insert_some hmapping with ⟨_, rfl⟩ | ⟨_, hold⟩
      . exact absurd rfl hne
      . exact hinv.named k mapping hold
  . intro id other hget
    rcases Table.getElem?_insert_some hget with ⟨rfl, _⟩ | ⟨_, hold⟩
    . exact hinv.payload _ record hrecord
    . exact hinv.payload id other hold

end InboxInv

theorem Touch.inv {fresh : Prop} {label : Label} {b b' : Inbox} (h : Touch fresh label b b') (hinv : InboxInv b)
    : InboxInv b' := by
  cases h with
  | store value kind hash hnew => exact hinv.store hnew value kind hash
  | @expire _ record expires key token hrecord hstate hexpires hkey htoken =>
    exact hinv.close (expireRecord record expires) hrecord hstate hkey rfl (by simp [expireRecord])
      rfl _
  | claim now expires attempts hrecord hstate hkey _ =>
    exact hinv.claim now expires attempts hrecord hstate hkey
  | @resolve _ record key token now resolution hrecord hheld hkey htoken =>
    have hexpires : (resolveRecord record now resolution).claimExpires = none := by
      cases resolution <;> rfl
    have hid : (resolveRecord record now resolution).inboundId = record.inboundId := by
      cases resolution <;> rfl
    have hstate := resolveRecord_state_ne record now resolution
    exact hinv.close _ hrecord (isHeld_iff.mp hheld).1 hkey hid hstate hexpires _
  | renew expires hrecord hheld =>
    have hstate := (isHeld_iff.mp hheld).1
    exact hinv.keep hrecord hstate rfl rfl hstate rfl rfl rfl
  | link jobId hrecord hstate hforward =>
    exact hinv.keep hrecord hstate rfl rfl hstate rfl rfl ((hinv.expires _ _ hrecord).mp hstate)

theorem Touches.inv {fresh : Prop} {allowed : Label → Prop} {b b' : Inbox}
    (h : Touches fresh allowed b b') (hinv : InboxInv b)
    : InboxInv b' := by
  induction h with
  | refl => exact hinv
  | tail _ hstep ih =>
    obtain ⟨label, _, htouch⟩ := hstep
    exact htouch.inv ih

@[simp]
theorem resolveRecord_application (record : InboundRecord) (now : UInt64) (resolution : Resolution)
    : (resolveRecord record now resolution).application = record.application := by
  cases resolution <;> rfl

@[simp]
theorem resolveRecord_forwardJob (record : InboundRecord) (now : UInt64) (resolution : Resolution)
    : (resolveRecord record now resolution).forwardJob = record.forwardJob := by
  cases resolution <;> rfl

@[simp]
theorem resolveRecord_claimToken (record : InboundRecord) (now : UInt64) (resolution : Resolution)
    : (resolveRecord record now resolution).claimToken = record.claimToken := by
  cases resolution <;> rfl

/--
What no change takes from a record: its application, the job that forwards it, and the token of its
claim while there is one.
-/
structure RecordKept (record record' : InboundRecord) : Prop where
  application : record'.application = record.application
  forwardJob : record.forwardJob ≠ none → record'.forwardJob = record.forwardJob
  claimToken : record.state = .claimed → record'.claimToken = record.claimToken

theorem RecordKept.refl (record : InboundRecord) : RecordKept record record :=
  ⟨rfl, fun _ => rfl, fun _ => rfl⟩

theorem Touch.record_kept {fresh : Prop} {label : Label} {b b' : Inbox} (h : Touch fresh label b b')
    {id : String} {record : InboundRecord} (hrecord : b.records[id]? = some record)
    : ∃ record', b'.records[id]? = some record' ∧ RecordKept record record' := by
  have hinsert : ∀ (other other' : InboundRecord), b.records[other.inboundId]? = some other →
      RecordKept other other' →
      ∃ record', (b.records.insert other.inboundId other')[id]? = some record' ∧
        RecordKept record record' := by
    intro other other' hother hkept
    rw [Table.getElem?_insert]
    split
    . next heq =>
      rw [heq, hrecord] at hother
      injection hother with heq
      subst heq
      exact ⟨other', rfl, hkept⟩
    . exact ⟨record, hrecord, .refl record⟩
  cases h with
  | store value kind hash hnew =>
    refine ⟨record, ?_, .refl record⟩
    dsimp only
    rw [Table.getElem?_insert_ne, hrecord]
    rintro rfl
    rw [hnew] at hrecord
    cases hrecord
  | expire hother => exact hinsert _ _ hother ⟨rfl, fun _ => rfl, fun _ => rfl⟩
  | claim _ _ _ hother hstate =>
    refine hinsert _ _ hother ⟨rfl, fun _ => rfl, ?_⟩
    intro hclaimed
    rcases hstate with h | h <;> simp [h] at hclaimed
  | resolve resolution hother => exact hinsert _ _ hother ⟨by simp, by simp, by simp⟩
  | renew _ hother => exact hinsert _ _ hother ⟨rfl, fun _ => rfl, fun _ => rfl⟩
  | link _ hother _ hforward =>
    exact hinsert _ _ hother ⟨rfl, fun h => absurd hforward h, fun _ => rfl⟩

theorem Touches.record_exists {fresh : Prop} {allowed : Label → Prop} {b b' : Inbox}
    (h : Touches fresh allowed b b') {id : String} {record : InboundRecord}
    (hrecord : b.records[id]? = some record)
    : ∃ record', b'.records[id]? = some record' := by
  induction h with
  | refl => exact ⟨record, hrecord⟩
  | tail _ hstep ih =>
    obtain ⟨label, _, htouch⟩ := hstep
    obtain ⟨record', hrecord'⟩ := ih
    obtain ⟨record'', hrecord'', _⟩ := htouch.record_kept hrecord'
    exact ⟨record'', hrecord''⟩

end Tith
