import Tith.Store.Inbound

/-!
This module contains for every inbound operation what a successful call has found and what it has
written. All invariants of the inbound tables are derived from these lemmas.
-/

namespace Tith

theorem accept_cases {c : Crypto} {value : NewInbound}
    {duplicateIdentity : Option SignedItemIdentity} {rng rng' : Rng} {s s' : Store}
    {result : AcceptResult} (h : accept c value duplicateIdentity rng s = .ok (result, rng', s'))
    : ∃ kind hash, checkInbound value duplicateIdentity = .ok kind ∧
        c.hashInboundItem value.payload = .ok hash ∧
        ((∃ existing, duplicateOf s duplicateIdentity = some existing ∧
            result = .duplicate existing ∧ rng' = rng ∧ s' = s) ∨
          (∃ id, duplicateOf s duplicateIdentity = none ∧ allocate s rng = .ok (id, rng') ∧
            result = .stored (newRecord id value kind hash) ∧
            s' = { s with
              records := s.records.insert id (newRecord id value kind hash)
              payloads := s.payloads.insert id value.payload
              duplicates := bindDuplicate s duplicateIdentity id })) := by
  simp only [accept, Except.bind_ok_iff] at h
  obtain ⟨kind, hcheck, h⟩ := h
  split at h
  . cases h
  . next hash hhash =>
    refine ⟨kind, hash, hcheck, hhash, ?_⟩
    split at h
    . next existing hexisting =>
      simp only [Except.ok.injEq, Prod.mk.injEq] at h
      obtain ⟨hresult, hrng, hs⟩ := h
      exact .inl ⟨existing, hexisting, hresult.symm, hrng.symm, hs.symm⟩
    . next hnone =>
      simp only [Except.bind_ok_iff, Except.ok.injEq, Prod.mk.injEq, Prod.exists] at h
      obtain ⟨id, rng₁, halloc, hresult, rfl, hs⟩ := h
      exact .inr ⟨id, hnone, halloc, hresult.symm, hs.symm⟩

theorem expireClaim_cases {s s' : Store} {record : InboundRecord} (h : expireClaim s record = .ok s')
    : ∃ expiredAt claimKey claimToken, record.claimExpires = some expiredAt ∧
        record.claimKey = some claimKey ∧ record.claimToken = some claimToken ∧
        s' = { s with
          records := s.records.insert record.inboundId (expireRecord record expiredAt)
          claimKeys :=
            s.claimKeys.insert (claimMappingKey record.application claimKey)
              ⟨record.inboundId, claimToken, some .available⟩
          resolvedTokens :=
            s.resolvedTokens.insert claimToken ⟨record.inboundId, .available, false⟩ } := by
  simp only [expireClaim, Except.bind_ok_iff, Option.okOr_eq_ok, Except.ok.injEq] at h
  obtain ⟨expiredAt, hexpires, claimKey, hkey, claimToken, htoken, hs⟩ := h
  exact ⟨expiredAt, claimKey, claimToken, hexpires, hkey, htoken, hs.symm⟩

theorem claimNext_cases {application : Application} {claimKey : String} {now duration : UInt64}
    {rng : Rng} {s s' : Store} {result : ClaimResult}
    (h : claimNext application claimKey now duration rng s = .ok (result, s'))
    : (∃ mapping, s.claimKeys[claimMappingKey application claimKey]? = some mapping ∧
          claimAgain s mapping now = .ok result ∧ s' = s) ∨
        (s.claimKeys[claimMappingKey application claimKey]? = none ∧
          selectRecord s application now = none ∧ result = .empty ∧ s' = s) ∨
        (∃ record token rng' expires attempts,
          s.claimKeys[claimMappingKey application claimKey]? = none ∧
          selectRecord s application now = some record ∧
          randomIdentifier 'C' rng = .ok (token, rng') ∧
          result = .completed ⟨record.inboundId, token, expires,
            claimRecord record claimKey token now expires attempts⟩ ∧
          s' = { s with
            records :=
              s.records.insert record.inboundId
                (claimRecord record claimKey token now expires attempts)
            claimKeys :=
              s.claimKeys.insert (claimMappingKey application claimKey)
                ⟨record.inboundId, token, none⟩ }) := by
  unfold claimNext at h
  split at h
  . next mapping hmapping =>
    simp only [Except.bind_ok_iff, Except.ok.injEq, Prod.mk.injEq] at h
    obtain ⟨_, hagain, rfl, rfl⟩ := h
    exact .inl ⟨mapping, hmapping, hagain, rfl⟩
  . next hnone =>
    split at h
    . next hselect =>
      simp only [Except.ok.injEq, Prod.mk.injEq] at h
      exact .inr (.inl ⟨hnone, hselect, h.1.symm, h.2.symm⟩)
    . next record hselect =>
      simp only [Except.bind_ok_iff, Option.okOr_eq_ok, Except.ok.injEq, Prod.mk.injEq,
        Prod.exists] at h
      obtain ⟨token, rng', htoken, expires, _, attempts, _, claim, hclaim, rfl, hs⟩ := h
      have heq : claim = ⟨record.inboundId, token, expires,
          claimRecord record claimKey token now expires attempts⟩ := by
        simp only [claimFrom, claimRecord, Option.okOr_some, Except.bind_of_ok,
          Except.ok.injEq] at hclaim
        exact hclaim.symm
      exact .inr (.inr ⟨record, token, rng', expires, attempts, hnone, hselect, htoken,
        by rw [heq], hs.symm⟩)

theorem claim_cases {application : Application} {claimKey : String} {now duration : UInt64}
    {rng : Rng} {s s' : Store} {result : Except StoreError ClaimResult}
    (h : claim application claimKey now duration rng s = (result, s'))
    : s' = s ∨
        ∃ t, refreshExpirations now s = .ok t ∧
          (s' = t ∨
            ∃ r, claimNext application claimKey now duration rng t = .ok (r, s') ∧ result = .ok r) := by
  unfold claim at h
  split at h
  . left
    exact (Prod.mk.inj h).2.symm
  . split at h
    . left
      exact (Prod.mk.inj h).2.symm
    . next t hrefresh =>
      right
      refine ⟨t, hrefresh, ?_⟩
      split at h
      . left
        exact (Prod.mk.inj h).2.symm
      . next r t' hnext =>
        right
        obtain ⟨hresult, hs⟩ := Prod.mk.inj h
        subst hs
        exact ⟨r, hnext, hresult.symm⟩

theorem resolve_cases {application : Application} {inboundId token : String} {now : UInt64}
    {resolution : Resolution} {s s' : Store} {state : InboundState}
    (h : resolve application inboundId token now resolution s = .ok (state, s'))
    : (∃ resolved record, s.resolvedTokens[token]? = some resolved ∧
          s.records[resolved.inboundId]? = some record ∧ record.application = application ∧
          resolved.inboundId = inboundId ∧ resolved.completed = true ∧ state = resolved.state ∧
          s' = s) ∨
        (∃ record, s.resolvedTokens[token]? = none ∧ s.records[inboundId]? = some record ∧
          record.application = application ∧ record.state ≠ .claimed ∧
          record.claimToken = some token ∧ state = record.state ∧ s' = s) ∨
        (∃ record claimKey, s.resolvedTokens[token]? = none ∧ s.records[inboundId]? = some record ∧
          record.application = application ∧ record.isHeld token now = true ∧
          record.claimKey = some claimKey ∧
          state = (resolveRecord record now resolution).state ∧
          s' = { s with
            records := s.records.insert inboundId (resolveRecord record now resolution)
            claimKeys :=
              s.claimKeys.insert (claimMappingKey record.application claimKey)
                ⟨inboundId, token, some (resolveRecord record now resolution).state⟩
            resolvedTokens :=
              s.resolvedTokens.insert token
                ⟨inboundId, (resolveRecord record now resolution).state, true⟩ }) := by
  unfold resolve at h
  split at h
  . next resolved hresolved =>
    simp only [Except.bind_ok_iff, Option.okOr_eq_ok] at h
    obtain ⟨record, hrecord, h⟩ := h
    split at h
    . cases h
    . next happ =>
      split at h
      . next hdone =>
        simp only [Except.ok.injEq, Prod.mk.injEq] at h
        exact .inl ⟨resolved, record, hresolved, hrecord, by simpa using happ, hdone.1, hdone.2,
          h.1.symm, h.2.symm⟩
      . cases h
  . next hnone =>
    simp only [Except.bind_ok_iff, Option.okOr_eq_ok] at h
    obtain ⟨record, hrecord, h⟩ := h
    split at h
    . cases h
    . next happ =>
      simp only [ne_eq, not_not] at happ
      split at h
      . next hstate =>
        split at h
        . next htoken =>
          simp only [Except.ok.injEq, Prod.mk.injEq] at h
          exact .inr (.inl ⟨record, hnone, hrecord, happ, hstate, htoken, h.1.symm, h.2.symm⟩)
        . cases h
      . split at h
        . cases h
        . next hheld =>
          simp only [Except.bind_ok_iff, Option.okOr_eq_ok, Except.ok.injEq, Prod.mk.injEq] at h
          obtain ⟨claimKey, hkey, hstate, hs⟩ := h
          exact .inr (.inr ⟨record, claimKey, hnone, hrecord, happ, by simpa using hheld, hkey,
            hstate.symm, hs.symm⟩)

theorem renew_cases {application : Application} {inboundId token : String}
    {now duration expires : UInt64} {s s' : Store}
    (h : renew application inboundId token now duration s = .ok (expires, s'))
    : ∃ record, s.records[inboundId]? = some record ∧ record.application = application ∧
        record.isHeld token now = true ∧ checkedAdd now duration = some expires ∧
        s' = { s with
          records := s.records.insert inboundId { record with claimExpires := some expires } } := by
  simp only [renew, Except.bind_ok_iff, Option.okOr_eq_ok] at h
  obtain ⟨record, hrecord, h⟩ := h
  split at h
  . cases h
  . next happ =>
    split at h
    . cases h
    . next hheld =>
      simp only [Except.bind_ok_iff, Option.okOr_eq_ok, Except.ok.injEq, Prod.mk.injEq] at h
      obtain ⟨expires', hexpires, rfl, hs⟩ := h
      exact ⟨record, hrecord, by simpa using happ, by simpa using hheld, hexpires, hs.symm⟩

end Tith
