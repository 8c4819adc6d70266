import Tith.Store.Lemmas.Touches

/-!
This module contains the invariant of the inbound records and their claims over whole runs of the
store, and that applications do not get at the records and claims of each other.
-/

namespace Tith

/--
The applications in whose name an operation is issued. Sessions and the daemon itself issue the
operations that belong to none.
-/
def Op.IssuedBy (op : Op) (application : Application) : Prop :=
  match op with
  | .claim a .. | .resolve a .. | .renew a .. | .cancel a .. | .retry a .. | .reroute a ..
  | .acknowledgeEvent a _ => a = application
  | .commitBatch identities .. => ∃ identity ∈ identities, identity.application = application
  | _ => False

/--
The clock reading that an operation on the inbox brings along.
-/
def Op.clock (op : Op) : Option UInt64 :=
  match op with
  | .refreshExpirations now | .claim _ _ now _ _ | .resolve _ _ _ now _ | .renew _ _ _ now _ =>
    some now
  | _ => none

/--
A claim key without an outcome that names a record.
-/
def IsOpen (s : Store) (inboundId : String) (k : List UInt8) (mapping : ClaimMapping) : Prop :=
  s.claimKeys[k]? = some mapping ∧ mapping.outcome = none ∧ mapping.inboundId = inboundId

/--
A claimed record whose time has passed at `now`.
-/
def HasLapsed (now : UInt64) (record : InboundRecord) (expires : UInt64) : Prop :=
  record.state = .claimed ∧ record.claimExpires = some expires ∧ expires ≤ now

/--
The records and claim keys of an application are as they were, but for claims whose time has passed
at the clock reading of the operation.
-/
structure Untouched (op : Op) (b b' : Inbox) (application : Application) : Prop where
  record : ∀ (id : String) record, b.records[id]? = some record →
    record.application = application →
    b'.records[id]? = some record ∨
      ∃ now expires, op.clock = some now ∧ HasLapsed now record expires ∧
        b'.records[id]? = some (expireRecord record expires)
  mapping : ∀ key, b'.claimKeys[claimMappingKey application key]? =
      b.claimKeys[claimMappingKey application key]? ∨
    ∃ mapping record now expires,
      b.claimKeys[claimMappingKey application key]? = some mapping ∧ mapping.outcome = none ∧
      b.records[mapping.inboundId]? = some record ∧ op.clock = some now ∧
      HasLapsed now record expires ∧
      b'.claimKeys[claimMappingKey application key]? =
        some { mapping with outcome := some .available }

theorem Untouched.refl (op : Op) (b : Inbox) (application : Application)
    : Untouched op b b application :=
  ⟨fun _ _ hrecord _ => .inl hrecord, fun _ => .inl rfl⟩

/--
The application in whose name a change is made.
-/
def Label.owner (label : Label) : Option Application :=
  match label with
  | .store | .expire _ => none
  | .claim application _ _ | .resolve application _ _ | .renew application _ _
  | .link application => some application

theorem issuedBy_of_allows {op : Op} {label : Label} (h : op.Allows label)
    {application : Application} (howner : label.owner = some application)
    : op.IssuedBy application := by
  cases label with
  | store => cases howner
  | expire expires => cases howner
  | claim a key token =>
    injection howner with howner
    cases op with
    | claim => exact h.1.symm.trans howner
    | _ => exact h.elim
  | resolve a token now =>
    injection howner with howner
    cases op with
    | resolve => exact h.1.symm.trans howner
    | _ => exact h.elim
  | renew a token now =>
    injection howner with howner
    cases op with
    | renew => exact h.1.symm.trans howner
    | _ => exact h.elim
  | link a =>
    injection howner with howner
    cases op with
    | commitBatch => exact howner ▸ h
    | _ => exact h.elim

theorem clock_of_allows {op : Op} {expires : UInt64} (h : op.Allows (.expire expires))
    : ∃ now, op.clock = some now ∧ expires ≤ now := by
  cases op with
  | refreshExpirations now => exact ⟨now, rfl, h⟩
  | claim application key now duration rng => exact ⟨now, rfl, h⟩
  | _ => exact h.elim

/--
A change in the name of another application, or of none, leaves the records and claim keys of an
application alone unless it is an expiry.
-/
theorem Touch.foreign {fresh : Prop} {label : Label} {b b' : Inbox} (h : Touch fresh label b b')
    {application : Application} (howner : label.owner ≠ some application)
    (hexpire : ∀ expires, label ≠ .expire expires)
    : (∀ (id : String) record, b.records[id]? = some record → record.application = application →
          b'.records[id]? = some record) ∧
        ∀ key, b'.claimKeys[claimMappingKey application key]? =
          b.claimKeys[claimMappingKey application key]? := by
  have hrecords : ∀ (record record' : InboundRecord),
      b.records[record.inboundId]? = some record → record.application ≠ application →
      ∀ (id : String) other, b.records[id]? = some other → other.application = application →
        (b.records.insert record.inboundId record')[id]? = some other := by
    intro record record' hrecord hne id other hother happlication
    rw [Table.getElem?_insert_ne, hother]
    rintro rfl
    rw [hrecord] at hother
    injection hother with heq
    exact hne (heq ▸ happlication)
  have hkeys : ∀ (other : Application) (key' : String) (mapping : ClaimMapping),
      other ≠ application → ∀ key,
      (b.claimKeys.insert (claimMappingKey other key') mapping)[claimMappingKey application key]? =
        b.claimKeys[claimMappingKey application key]? := by
    intro other key' mapping hne key
    apply Table.getElem?_insert_ne
    intro heq
    exact hne (claimMappingKey_inj heq).1
  cases h with
  | @store _ id value kind hash hnew =>
    refine ⟨?_, fun _ => rfl⟩
    intro id' record hrecord _
    dsimp only
    rw [Table.getElem?_insert_ne, hrecord]
    rintro rfl
    rw [hnew] at hrecord
    cases hrecord
  | expire => exact absurd rfl (hexpire _)
  | @claim _ record key token now expires attempts hrecord hstate hkey _ =>
    have hne : record.application ≠ application := fun heq => howner (heq ▸ rfl)
    exact ⟨hrecords record _ hrecord hne, hkeys _ _ _ hne⟩
  | @resolve _ record key token now resolution hrecord hheld hkey htoken =>
    have hne : record.application ≠ application := fun heq => howner (heq ▸ rfl)
    exact ⟨hrecords record _ hrecord hne, hkeys _ _ _ hne⟩
  | @renew _ record token now expires hrecord hheld =>
    have hne : record.application ≠ application := fun heq => howner (heq ▸ rfl)
    exact ⟨hrecords record _ hrecord hne, fun _ => rfl⟩
  | @link _ record jobId hrecord hstate hforward =>
    have hne : record.application ≠ application := fun heq => howner (heq ▸ rfl)
    exact ⟨hrecords record _ hrecord hne, fun _ => rfl⟩

theorem Untouched.touch {fresh : Prop} {op : Op} {application : Application} {b₀ b b' : Inbox} {label : Label}
    (h : Untouched op b₀ b application) (hinv₀ : InboxInv b₀) (hinv : InboxInv b)
    (hforeign : ¬op.IssuedBy application) (hallows : op.Allows label)
    (htouch : Touch fresh label b b')
    : Untouched op b₀ b' application := by
  by_cases hexpire : ∃ expires, label = .expire expires
  . obtain ⟨expires, rfl⟩ := hexpire
    obtain ⟨now, hclock, hle⟩ := clock_of_allows hallows
    cases htouch with
    | @expire _ record _ key token hrecord hstate hexpires hkey htoken =>
      have hsame : ∀ record₀, b₀.records[record.inboundId]? = some record₀ →
          record₀.application = application → record₀ = record := by
        intro record₀ hrecord₀ happlication
        rcases h.record _ record₀ hrecord₀ happlication with hkept | ⟨_, _, _, _, hlapsed⟩
        . rw [hkept] at hrecord
          injection hrecord
        . rw [hlapsed] at hrecord
          injection hrecord with heq
          rw [← heq] at hstate
          cases hstate
      constructor
      . intro id record₀ hrecord₀ happlication
        by_cases hid : record.inboundId = id
        . subst hid
          have := hsame record₀ hrecord₀ happlication
          subst this
          exact .inr ⟨now, expires, hclock, ⟨hstate, hexpires, hle⟩,
            Std.ExtTreeMap.getElem?_insert_self⟩
        . dsimp only
          rw [Table.getElem?_insert_ne _ hid]
          exact h.record id record₀ hrecord₀ happlication
      . intro key'
        by_cases hkeys :
            claimMappingKey record.application key = claimMappingKey application key'
        . obtain ⟨happlication, rfl⟩ := claimMappingKey_inj hkeys
          -- The claim key is still open, so no claim of the application has expired under it yet.
          obtain ⟨key₁, token₁, hkey₁, htoken₁, hmap⟩ := hinv.mapped _ record hrecord hstate
          rw [hkey] at hkey₁
          rw [htoken] at htoken₁
          injection hkey₁ with hkey₁
          injection htoken₁ with htoken₁
          subst hkey₁ htoken₁
          rw [happlication] at hmap
          have hmap₀ : b₀.claimKeys[claimMappingKey application key]? =
              some ⟨record.inboundId, token, none⟩ := by
            rcases h.mapping key with hkept | ⟨_, _, _, _, _, _, _, _, _, hclosed⟩
            . rw [← hkept, hmap]
            . rw [hmap] at hclosed
              injection hclosed with hclosed
              cases (ClaimMapping.mk.inj hclosed).2.2
          obtain ⟨record₀, key₀, hrecord₀, _, _, _, hk⟩ := hinv₀.opened _ _ hmap₀ rfl
          have := hsame record₀ hrecord₀ (claimMappingKey_inj hk).1.symm
          subst this
          refine .inr ⟨_, _, now, expires, hmap₀, rfl, hrecord₀, hclock, ⟨hstate, hexpires, hle⟩, ?_⟩
          dsimp only
          rw [happlication]
          exact Std.ExtTreeMap.getElem?_insert_self
        . dsimp only
          rw [Table.getElem?_insert_ne _ hkeys]
          exact h.mapping key'
  . simp only [not_exists] at hexpire
    have howner : label.owner ≠ some application :=
      fun heq => hforeign (issuedBy_of_allows hallows heq)
    obtain ⟨hrecords, hkeys⟩ := htouch.foreign howner hexpire
    constructor
    . intro id record₀ hrecord₀ happlication
      rcases h.record id record₀ hrecord₀ happlication with hkept | ⟨now, expires, hclock, hlapsed, hget⟩
      . exact .inl (hrecords id record₀ hkept happlication)
      . exact .inr ⟨now, expires, hclock, hlapsed, hrecords id _ hget happlication⟩
    . intro key
      rw [hkeys key]
      exact h.mapping key

theorem Touches.untouched {fresh : Prop} {op : Op} {application : Application} {b b' : Inbox}
    (h : Touches fresh op.Allows b b') (hinv : InboxInv b) (hforeign : ¬op.IssuedBy application)
    : InboxInv b' ∧ Untouched op b b' application := by
  induction h with
  | refl => exact ⟨hinv, .refl op b application⟩
  | tail _ hstep ih =>
    obtain ⟨label, hallows, htouch⟩ := hstep
    exact ⟨htouch.inv ih.1, ih.2.touch hinv ih.1 hforeign hallows htouch⟩

/--
Records that are done are never written again.
-/
def SettledKept (s s' : Store) : Prop :=
  ∀ (id : String) record, s.records[id]? = some record →
    record.state = .consumed ∨ record.state = .rejected →
    s'.records[id]? = some record ∧ s'.payloads[id]? = s.payloads[id]?

theorem Touch.settled {fresh : Prop} {label : Label} {b b' : Inbox} (h : Touch fresh label b b')
    {id : String}
    {record : InboundRecord} (hrecord : b.records[id]? = some record)
    (hstate : record.state = .consumed ∨ record.state = .rejected)
    : b'.records[id]? = some record ∧ b'.payloads[id]? = b.payloads[id]? := by
  have hother : ∀ (other other' : InboundRecord), b.records[other.inboundId]? = some other →
      other.state = .claimed ∨ other.state = .available ∨ other.state = .deferred →
      (b.records.insert other.inboundId other')[id]? = some record := by
    intro other other' hget hactive
    rw [Table.getElem?_insert_ne, hrecord]
    rintro rfl
    rw [hget] at hrecord
    injection hrecord with heq
    subst heq
    rcases hstate with h | h <;> simp [h] at hactive
  cases h with
  | @store _ id' value kind hash hnew =>
    have hne : id' ≠ id := by
      rintro rfl
      rw [hnew] at hrecord
      cases hrecord
    exact ⟨(Table.getElem?_insert_ne _ hne _).trans hrecord, Table.getElem?_insert_ne _ hne _⟩
  | expire hget hactive => exact ⟨hother _ _ hget (.inl hactive), rfl⟩
  | claim _ _ _ hget hactive => exact ⟨hother _ _ hget (.inr hactive), rfl⟩
  | resolve _ hget hheld => exact ⟨hother _ _ hget (.inl (isHeld_iff.mp hheld).1), rfl⟩
  | renew _ hget hheld => exact ⟨hother _ _ hget (.inl (isHeld_iff.mp hheld).1), rfl⟩
  | link _ hget hactive => exact ⟨hother _ _ hget (.inl hactive), rfl⟩

theorem Touches.settled {fresh : Prop} {allowed : Label → Prop} {b b' : Inbox}
    (h : Touches fresh allowed b b')
    {id : String} {record : InboundRecord} (hrecord : b.records[id]? = some record)
    (hstate : record.state = .consumed ∨ record.state = .rejected)
    : b'.records[id]? = some record ∧ b'.payloads[id]? = b.payloads[id]? := by
  induction h with
  | refl => exact ⟨hrecord, rfl⟩
  | tail _ hstep ih =>
    obtain ⟨label, _, htouch⟩ := hstep
    obtain ⟨hkept, hpayload⟩ := htouch.settled ih.1 hstate
    exact ⟨hkept, hpayload.trans ih.2⟩

theorem run_settledKept (c : Crypto) {s : Store} (hinv : InboxInv s.inbox) (ops : List Op)
    : SettledKept s ((storeMachine c).run s ops) := by
  apply Machine.relates_along (m := storeMachine c) (fun _ _ => True)
    (fun (s : Store) => InboxInv s.inbox) SettledKept
  . intro s id record hrecord _
    exact ⟨hrecord, rfl⟩
  . intro s t u hst htu id record hrecord hstate
    obtain ⟨hrecord', hpayload⟩ := hst id record hrecord hstate
    obtain ⟨hrecord'', hpayload'⟩ := htu id record hrecord' hstate
    exact ⟨hrecord'', hpayload'.trans hpayload⟩
  . intro s op hinv _
    exact step_inboxInv c hinv op
  . intro s op hinv _ id record hrecord hstate
    exact (step_touches False c hinv False.elim).settled hrecord hstate
  . exact hinv
  . apply Machine.along_true

theorem run_claim_invariant (c : Crypto) (ops : List Op)
    : let s := (storeMachine c).run .empty ops
      (∀ (id : String) record, s.records[id]? = some record →
        (record.state = .claimed ↔ record.claimExpires.isSome) ∧
        (record.state = .claimed → ∃ k mapping, IsOpen s id k mapping ∧
          record.claimToken = some mapping.token ∧
          ∀ k' mapping', IsOpen s id k' mapping' → k' = k)) ∧
      (∀ later, SettledKept s ((storeMachine c).run s later)) ∧
      (∀ op application, ¬op.IssuedBy application →
        Untouched op s.inbox (step c s op).2.inbox application) := by
  have hinv := run_inboxInv c ops
  refine ⟨?_, ?_, ?_⟩
  . intro id record hrecord
    refine ⟨hinv.expires id record hrecord, ?_⟩
    intro hstate
    obtain ⟨key, token, hkey, htoken, hmap⟩ := hinv.mapped id record hrecord hstate
    refine ⟨_, _, ⟨hmap, rfl, rfl⟩, htoken, ?_⟩
    rintro k' mapping' ⟨hmap', houtcome, rfl⟩
    obtain ⟨record', key', hrecord', _, _, hkey', rfl⟩ := hinv.opened k' mapping' hmap' houtcome
    have hsame := hrecord'.symm.trans hrecord
    injection hsame with heq
    subst heq
    rw [hkey'] at hkey
    injection hkey with heq
    rw [heq]
  . intro later
    exact run_settledKept c hinv later
  . intro op application hforeign
    exact ((step_touches False c hinv False.elim).untouched hinv hforeign).2

end Tith
