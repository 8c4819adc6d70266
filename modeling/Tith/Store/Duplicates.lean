import Tith.Store.Lemmas.Touches
import Tith.Wire.Lemmas.Address

/-!
This module contains the proof that a signed item is stored once: its identity is bound to the
record that was stored for it, in the same transaction, and stays bound.
-/

namespace Tith

theorem encodeDuplicateIdentity_injective : Function.Injective encodeDuplicateIdentity := by
  rintro ⟨kind, ⟨address, publicKey⟩, signature⟩ ⟨kind', ⟨address', publicKey'⟩, signature'⟩ h
  simp only [encodeDuplicateIdentity, List.append_assoc] at h
  -- Key and signature have a fixed length, so the texts of the addresses have the same one.
  have hlength := congrArg List.length h
  simp only [List.length_append, Bytes.length_ofWord, Bytes.length_withLength,
    Vector.length_toList] at hlength
  obtain ⟨hkind, h⟩ := List.append_inj h (by simp)
  obtain ⟨haddress, h⟩ := List.append_inj h (by simp only [Bytes.length_withLength]; omega)
  obtain ⟨hkey, hsignature⟩ := List.append_inj h (by simp)
  have hkind' : kind = kind' := by
    have := Bytes.ofWord_inj.mp hkind
    cases kind <;> cases kind' <;> simp [Types.message, Types.file] at this <;> rfl
  have haddress' : address = address' := by
    apply Address.display_inj
    apply Bytes.ofString_inj.mp
    exact (List.append_inj haddress (by simp)).2
  rw [hkind', haddress', Vector.toList_inj.mp hkey, Vector.toList_inj.mp hsignature]

theorem step_accept_cases (c : Crypto) (s : Store) (value : NewInbound)
    (duplicateIdentity : Option SignedItemIdentity) (rng : Rng)
    : (∃ e, step c s (.accept value duplicateIdentity rng) = (.error e, s)) ∨
        (∃ existing, duplicateOf s duplicateIdentity = some existing ∧
          step c s (.accept value duplicateIdentity rng) =
            (.ok (.accepted (.duplicate existing)), s)) ∨
        (∃ record, duplicateOf s duplicateIdentity = none ∧ s.records[record.inboundId]? = none ∧
          step c s (.accept value duplicateIdentity rng) =
            (.ok (.accepted (.stored record)),
              { s with
                records := s.records.insert record.inboundId record
                payloads := s.payloads.insert record.inboundId value.payload
                duplicates := bindDuplicate s duplicateIdentity record.inboundId })) := by
  simp only [step]
  split
  . next e _ => exact .inl ⟨e, rfl⟩
  . next result rng' s' h =>
    right
    obtain ⟨kind, hash, _, _, ⟨existing, hexisting, rfl, _, rfl⟩ | ⟨id, hnone, halloc, rfl, rfl⟩⟩ :=
      accept_cases h
    . exact .inl ⟨existing, hexisting, rfl⟩
    . obtain ⟨htaken, _⟩ := freshIdentifier_cases halloc
      rw [Option.isSome_eq_false_iff, Option.isNone_iff_eq_none] at htaken
      exact .inr ⟨newRecord id value kind hash, hnone, htaken, rfl⟩

/--
The identity of an item is bound to a record that is there, with its payload.
-/
structure IsStored (s : Store) (identity : SignedItemIdentity) (id : String)
    (payload : List UInt8) : Prop where
  record : ∃ record, s.records[id]? = some record
  payload : s.payloads[id]? = some payload
  duplicate : s.duplicates[encodeDuplicateIdentity identity]? = some id

section Step

variable (c : Crypto) {s : Store} {identity : SignedItemIdentity} {id : String}
  {payload : List UInt8}

theorem stored_isStored {value : NewInbound} {rng : Rng} {record : InboundRecord}
    (h : (step c s (.accept value (some identity) rng)).1 = .ok (.accepted (.stored record)))
    : IsStored (step c s (.accept value (some identity) rng)).2 identity record.inboundId
        value.payload := by
  rcases step_accept_cases c s value (some identity) rng with
    ⟨e, heq⟩ | ⟨existing, _, heq⟩ | ⟨stored, _, _, heq⟩
  . simp [heq] at h
  . simp [heq] at h
  . simp only [heq, Except.ok.injEq, Answer.accepted.injEq, AcceptResult.stored.injEq] at h
    subst h
    rw [heq]
    exact ⟨⟨stored, by simp⟩, by simp, by simp [bindDuplicate]⟩

theorem duplicate_bound {value : NewInbound} {rng : Rng}
    (h : (step c s (.accept value (some identity) rng)).1 = .ok (.accepted (.duplicate id)))
    : s.duplicates[encodeDuplicateIdentity identity]? = some id := by
  rcases step_accept_cases c s value (some identity) rng with
    ⟨e, heq⟩ | ⟨existing, hexisting, heq⟩ | ⟨record, _, _, heq⟩
  . simp [heq] at h
  . simp only [heq, Except.ok.injEq, Answer.accepted.injEq, AcceptResult.duplicate.injEq] at h
    exact h ▸ hexisting
  . simp [heq] at h

theorem accept_isStored (h : IsStored s identity id payload) (value : NewInbound)
    (duplicateIdentity : Option SignedItemIdentity) (rng : Rng)
    : IsStored (step c s (.accept value duplicateIdentity rng)).2 identity id payload := by
  rcases step_accept_cases c s value duplicateIdentity rng with
    ⟨e, heq⟩ | ⟨existing, _, heq⟩ | ⟨stored, hnone, hnew, heq⟩
  . rw [heq]
    exact h
  . rw [heq]
    exact h
  . rw [heq]
    obtain ⟨record, hrecord⟩ := h.record
    have hne : stored.inboundId ≠ id := by
      rintro rfl
      rw [hnew] at hrecord
      cases hrecord
    refine ⟨⟨record, ?_⟩, ?_, ?_⟩
    . rw [Table.getElem?_insert_ne _ hne, hrecord]
    . rw [Table.getElem?_insert_ne _ hne, h.payload]
    . cases duplicateIdentity with
      | none => exact h.duplicate
      | some other =>
        have hother : encodeDuplicateIdentity other ≠ encodeDuplicateIdentity identity := by
          intro hsame
          simp only [duplicateOf, hsame, h.duplicate] at hnone
          cases hnone
        simp only [bindDuplicate]
        rw [Table.getElem?_insert_ne _ hother, h.duplicate]

theorem removeDuplicateIdentity_isStored (h : IsStored s identity id payload)
    {other : SignedItemIdentity} (hne : other ≠ identity)
    : IsStored (removeDuplicateIdentity other s).2 identity id payload := by
  refine ⟨h.record, h.payload, ?_⟩
  simp only [removeDuplicateIdentity]
  rw [Std.ExtTreeMap.getElem?_erase]
  simp [h.duplicate, encodeDuplicateIdentity_injective.ne hne]

theorem IsStored.frame {s' : Store} (h : IsStored s identity id payload) {fresh : Prop}
    {allowed : Label → Prop} (htouches : Touches fresh allowed s.inbox s'.inbox)
    (hpayloads : s'.payloads = s.payloads) (hduplicates : s'.duplicates = s.duplicates)
    : IsStored s' identity id payload := by
  obtain ⟨record, hrecord⟩ := h.record
  obtain ⟨record', hrecord'⟩ := htouches.record_exists hrecord
  exact ⟨⟨record', hrecord'⟩, by rw [hpayloads, h.payload], by rw [hduplicates, h.duplicate]⟩

theorem step_isStored (hinv : InboxInv s.inbox) (h : IsStored s identity id payload) {op : Op}
    (hop : op ≠ .removeDuplicateIdentity identity)
    : IsStored (step c s op).2 identity id payload := by
  have htouches : Touches False op.Allows s.inbox (step c s op).2.inbox :=
    step_touches False c hinv False.elim
  cases hside : op.side with
  | arrival =>
    cases op with
    | accept value duplicateIdentity rng => exact accept_isStored c h value duplicateIdentity rng
    | removeDuplicateIdentity other =>
      apply removeDuplicateIdentity_isStored h
      rintro rfl
      exact hop rfl
    | _ => cases hside
  | claims =>
    have hframe := step_claimsOnly c s hside
    exact h.frame htouches (by rw [hframe]) (by rw [hframe])
  | batch =>
    have hframe := step_batchOnly c s hside
    exact h.frame htouches (by rw [hframe]) (by rw [hframe])
  | delivery =>
    have hframe := step_ledgerOnly c s hside
    exact h.frame htouches (by rw [hframe]) (by rw [hframe])

theorem step_binds {op : Op}
    (hbefore : s.duplicates[encodeDuplicateIdentity identity]? ≠ some id)
    (hafter : (step c s op).2.duplicates[encodeDuplicateIdentity identity]? = some id)
    : ∃ value rng record, op = .accept value (some identity) rng ∧
        (step c s op).1 = .ok (.accepted (.stored record)) ∧ record.inboundId = id := by
  -- A binding that was not there before is made by storing an item of that identity.
  cases hside : op.side with
  | arrival =>
    cases op with
    | accept value duplicateIdentity rng =>
      rcases step_accept_cases c s value duplicateIdentity rng with
        ⟨e, heq⟩ | ⟨existing, _, heq⟩ | ⟨record, _, _, heq⟩
      . rw [heq] at hafter
        exact absurd hafter hbefore
      . rw [heq] at hafter
        exact absurd hafter hbefore
      . rw [heq] at hafter
        cases duplicateIdentity with
        | none => exact absurd hafter hbefore
        | some other =>
          rcases Table.getElem?_insert_some hafter with ⟨hsame, hid⟩ | ⟨_, hold⟩
          . rw [encodeDuplicateIdentity_injective hsame] at heq ⊢
            exact ⟨value, rng, record, rfl, by rw [heq], hid⟩
          . exact absurd hold hbefore
    | removeDuplicateIdentity other =>
      simp only [step, removeDuplicateIdentity, Std.ExtTreeMap.getElem?_erase] at hafter
      split at hafter
      . cases hafter
      . exact absurd hafter hbefore
    | _ => cases hside
  | claims =>
    rw [step_claimsOnly c s hside] at hafter
    exact absurd hafter hbefore
  | batch =>
    rw [step_batchOnly c s hside] at hafter
    exact absurd hafter hbefore
  | delivery =>
    rw [step_ledgerOnly c s hside] at hafter
    exact absurd hafter hbefore

end Step

theorem run_isStored (c : Crypto) {s : Store} (hinv : InboxInv s.inbox)
    {identity : SignedItemIdentity} {id : String} {payload : List UInt8}
    (h : IsStored s identity id payload) {ops : List Op}
    (hops : .removeDuplicateIdentity identity ∉ ops)
    : IsStored ((storeMachine c).run s ops) identity id payload := by
  have hguard : (storeMachine c).Along (fun _ op => op ≠ .removeDuplicateIdentity identity) s ops := by
    apply Machine.along_of_forall
    rintro op hmem rfl
    exact hops hmem
  have hrun := Machine.invariant_along _
    (fun (s : Store) => InboxInv s.inbox ∧ IsStored s identity id payload) ?_ ⟨hinv, h⟩ hguard
  . exact hrun.2
  . rintro s op ⟨hinv, h⟩ hop
    exact ⟨step_inboxInv c hinv op, step_isStored c hinv h hop⟩

/--
The item passes the checks of `accept`, and its hash is computed.
-/
def Acceptable (c : Crypto) (value : NewInbound) (duplicateIdentity : Option SignedItemIdentity)
    : Prop :=
  (∃ kind, checkInbound value duplicateIdentity = .ok kind) ∧
    ∃ hash, c.hashInboundItem value.payload = .ok hash

theorem accept_of_bound {c : Crypto} {value : NewInbound} {identity : SignedItemIdentity} {id : String}
    {s : Store} (h : s.duplicates[encodeDuplicateIdentity identity]? = some id) (rng : Rng)
    : (Acceptable c value (some identity) →
          accept c value (some identity) rng s = .ok (.duplicate id, rng, s)) ∧
        (¬Acceptable c value (some identity) →
          ∃ e, accept c value (some identity) rng s = .error e) := by
  constructor
  . rintro ⟨⟨kind, hkind⟩, hash, hhash⟩
    simp [accept, hkind, hhash, duplicateOf, h]
  . intro hnot
    cases hresult : accept c value (some identity) rng s with
    | error e => exact ⟨e, rfl⟩
    | ok result =>
      obtain ⟨kind, hash, hkind, hhash, _⟩ := accept_cases hresult
      exact absurd ⟨⟨kind, hkind⟩, hash, hhash⟩ hnot

/--
A signed item in every run. What is stored is stored together, an identity is bound to the record of
the first item that was stored for it, and to no other, until the binding is removed.
-/
theorem run_accept_once (c : Crypto) (ops : List Op)
    : let s := (storeMachine c).run .empty ops
      (∀ value duplicateIdentity rng,
        let r := step c s (.accept value duplicateIdentity rng)
        (∃ record, r.1 = .ok (.accepted (.stored record)) ∧
          duplicateOf s duplicateIdentity = none ∧ s.records[record.inboundId]? = none ∧
          r.2 =
            { s with
              records := s.records.insert record.inboundId record
              payloads := s.payloads.insert record.inboundId value.payload
              duplicates := bindDuplicate s duplicateIdentity record.inboundId }) ∨
          ((∀ record, r.1 ≠ .ok (.accepted (.stored record))) ∧ r.2 = s)) ∧
      (∀ value identity rng record,
        (step c s (.accept value (some identity) rng)).1 = .ok (.accepted (.stored record)) →
        ∀ later, .removeDuplicateIdentity identity ∉ later →
        let t := (storeMachine c).run (step c s (.accept value (some identity) rng)).2 later
        IsStored t identity record.inboundId value.payload ∧
        ∀ value' rng',
          (Acceptable c value' (some identity) →
            accept c value' (some identity) rng' t = .ok (.duplicate record.inboundId, rng', t)) ∧
          (¬Acceptable c value' (some identity) →
            ∃ e, accept c value' (some identity) rng' t = .error e)) ∧
      (∀ value identity rng id,
        (step c s (.accept value (some identity) rng)).1 = .ok (.accepted (.duplicate id)) →
        ∃ before value' rng' record after,
          ops = before ++ .accept value' (some identity) rng' :: after ∧
          (step c ((storeMachine c).run .empty before)
            (.accept value' (some identity) rng')).1 = .ok (.accepted (.stored record)) ∧
          record.inboundId = id) ∧
      Function.Injective encodeDuplicateIdentity := by
  have hinv := run_inboxInv c ops
  refine ⟨?_, ?_, ?_, encodeDuplicateIdentity_injective⟩
  . intro value duplicateIdentity rng r
    rcases step_accept_cases c ((storeMachine c).run .empty ops) value duplicateIdentity rng with
      ⟨e, heq⟩ | ⟨existing, _, heq⟩ | ⟨record, hnone, hnew, heq⟩
    . exact .inr ⟨by simp [r, heq], by simp only [r, heq]⟩
    . exact .inr ⟨by simp [r, heq], by simp only [r, heq]⟩
    . exact .inl ⟨record, by simp only [r, heq], hnone, hnew, by simp only [r, heq]⟩
  . intro value identity rng record hstored later hlater t
    have ht : IsStored t identity record.inboundId value.payload :=
      run_isStored c (step_inboxInv c hinv _) (stored_isStored c hstored) hlater
    exact ⟨ht, fun value' rng' => accept_of_bound ht.duplicate rng'⟩
  . intro value identity rng id hduplicate
    have hbound := duplicate_bound c hduplicate
    obtain ⟨before, op, after, rfl, hbefore, hafter⟩ :=
      (storeMachine c).exists_step
        (P := fun s => s.duplicates[encodeDuplicateIdentity identity]? = some id)
        (by simp [Store.empty]) hbound
    obtain ⟨value', rng', record, rfl, hstored, hid⟩ := step_binds c hbefore hafter
    exact ⟨before, value', rng', record, after, rfl, hstored, hid⟩

namespace Sample

def itemIdentity : SignedItemIdentity where
  kind := .message
  signer := ⟨⟨"fidonet", 1, 2, 4, 0, by decide⟩, Vector.replicate 32 0⟩
  signature := Vector.replicate 64 0

def signedInbound : NewInbound := { newInbound with authentication := .originValid }

end Sample

/--
An item that is already stored is not answered as a duplicate if it fails the checks of `accept`,
which come first: here its second payload is empty.
-/
theorem accept_again_not_duplicate
    : ¬∀ (c : Crypto) value identity rng record,
        (step c .empty (.accept value (some identity) rng)).1 = .ok (.accepted (.stored record)) →
        ∀ value' rng',
          (step c (step c .empty (.accept value (some identity) rng)).2
            (.accept value' (some identity) rng')).1 =
            .ok (.accepted (.duplicate record.inboundId)) := by
  intro h
  have hagain := h Sample.crypto Sample.signedInbound Sample.itemIdentity [Sample.draw 1]
    (newRecord (identifierOf 'I' (Sample.draw 1)) Sample.signedInbound .message
      (Vector.replicate 32 0))
    (by decide) { Sample.signedInbound with payload := [] } [Sample.draw 2]
  revert hagain
  decide

end Tith
