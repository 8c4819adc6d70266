import Tith.Wire.Agreement

/-!
This module contains which accepted items a reader with other keys can read.
-/

namespace Tith

open Cursor StateExcept

/--
The key of the identity is in the item or known to the resolver.
-/
def Resolvable (resolver : KeyResolver) (identity : Identity) : Prop :=
  identity.address.isAnonymous = true ∨ (resolver identity.address).isSome = true

theorem parseIdentity_resolver {origin : OwnedTlv} {publicKey : Option OwnedTlv} {accepting resolver : KeyResolver}
    {identity : Identity} (h : parseIdentity origin publicKey accepting = .ok identity)
    : (∃ identity', parseIdentity origin publicKey resolver = .ok identity') ↔ Resolvable resolver identity := by
  unfold parseIdentity at h ⊢
  rw [Except.bind_ok_iff] at h
  obtain ⟨address, haddress, h⟩ := h
  rw [haddress, Except.bind_of_ok]
  unfold Resolvable
  split at h
  . next hanonymous =>
    simp only [Except.bind_ok_iff] at h
    obtain ⟨keyTlv, hkeyTlv, key, hkey, h⟩ := h
    injection h with h
    rw [if_pos hanonymous, ← h, hkeyTlv, Except.bind_of_ok, hkey]
    exact iff_of_true ⟨_, rfl⟩ (.inl hanonymous)
  . next hnamed =>
    split at h
    . cases h
    . next hkeyless =>
      rw [Except.bind_ok_iff] at h
      obtain ⟨key, _, h⟩ := h
      injection h with h
      rw [if_neg hnamed, if_neg hkeyless, ← h]
      simp only [Except.bind_ok_iff, Option.okOr_eq_ok]
      rw [or_iff_right hnamed, Option.isSome_iff_exists]
      constructor
      . rintro ⟨_, key, hkey, _⟩
        exact ⟨key, hkey⟩
      . rintro ⟨key, hkey⟩
        exact ⟨_, key, hkey, rfl⟩

theorem readDestination_resolver {cursor next : Cursor} {accepting resolver : KeyResolver}
    {destination : Option Identity} (h : readDestination accepting cursor = .ok (destination, next))
    : ((∃ result, readDestination resolver cursor = .ok result) →
          ∀ identity ∈ destination, Resolvable resolver identity) ∧
        ((∀ identity ∈ destination, Resolvable resolver identity) →
          ∃ destination', readDestination resolver cursor = .ok (destination', next)) := by
  unfold readDestination at h ⊢
  simp only [bind_run_iff, Prod.exists] at h ⊢
  obtain ⟨found, mid, hfound, h⟩ := h
  cases found with
  | none =>
    obtain ⟨rfl, rfl⟩ := Prod.mk.inj (Except.ok.inj h)
    exact ⟨fun _ => by simp, fun _ => ⟨_, _, _, hfound, rfl⟩⟩
  | some entry =>
    simp only [bind_run_iff, lift_run_iff, pure_run_iff] at h
    obtain ⟨address, _, ⟨haddress, rfl⟩, key, last, hkey, identity, _, ⟨hidentity, rfl⟩, rfl, rfl⟩ := h
    have hresolvable := @parseIdentity_resolver _ _ _ resolver _ hidentity
    constructor
    . rintro ⟨destination', next', found', mid', hfound', h'⟩ _ ⟨⟩
      obtain ⟨rfl, rfl⟩ := Prod.mk.inj (Except.ok.inj (hfound.symm.trans hfound'))
      simp only [bind_run_iff, lift_run_iff, pure_run_iff] at h'
      obtain ⟨_, _, ⟨haddress', rfl⟩, key', last', hkey', identity', _, ⟨hidentity', rfl⟩, _⟩ := h'
      rw [← Except.ok.inj (haddress.symm.trans haddress')] at hkey'
      obtain ⟨rfl, _⟩ := Prod.mk.inj (Except.ok.inj (hkey.symm.trans hkey'))
      exact hresolvable.mp ⟨identity', hidentity'⟩
    . intro hall
      obtain ⟨identity', hidentity'⟩ := hresolvable.mpr (hall identity rfl)
      refine ⟨some identity', _, _, hfound, ?_⟩
      simp only [bind_run_iff, lift_run_iff, pure_run_iff]
      exact ⟨_, _, ⟨haddress, rfl⟩, _, _, hkey, _, _, ⟨hidentity', rfl⟩, rfl, rfl⟩

theorem MessageReading.resolver_iff {value : OwnedTlv} {accepting resolver : KeyResolver}
    (reading : MessageReading value accepting) (htype : value.typeCode = Types.message)
    : (∃ read, readMessage value resolver = .ok read) ↔
        ∀ identity ∈ reading.destination, Resolvable resolver identity := by
  obtain ⟨hneeds, hsuffices⟩ := @readDestination_resolver _ _ _ resolver _ reading.readDestination
  constructor
  . rintro ⟨read, hread⟩
    obtain ⟨other, _⟩ := (readMessage_iff htype).mp hread
    have horigin := other.readOrigin
    rw [Except.ok.inj (other.hchildren.symm.trans reading.hchildren), reading.readOrigin] at horigin
    obtain ⟨_, horigin⟩ := Prod.mk.inj (Except.ok.inj horigin)
    have hsigned := other.readSigned
    rw [← horigin, reading.readSigned] at hsigned
    obtain ⟨_, hsigned⟩ := Prod.mk.inj (Except.ok.inj hsigned)
    exact hneeds ⟨_, hsigned ▸ other.readDestination⟩
  . intro hall
    obtain ⟨destination, hdestination⟩ := hsuffices hall
    obtain ⟨children, origin, signedOrigin, _, words, controls, signature, requestIdentifier, route, lines, m₁, m₂, m₃,
      m₄, m₅, m₆, m₇, m₈, m₉, last, hchildren, horigin, hsigned, _, hwords, hcontrols, hsignature, hrequest, hroute,
      hlines, hfinished⟩ := reading
    let other : MessageReading value resolver :=
      ⟨children, origin, signedOrigin, destination, words, controls, signature, requestIdentifier, route, lines, m₁,
        m₂, m₃, m₄, m₅, m₆, m₇, m₈, m₉, last, hchildren, horigin, hsigned, hdestination, hwords, hcontrols, hsignature,
        hrequest, hroute, hlines, hfinished⟩
    exact ⟨other.message, (readMessage_iff htype).mpr ⟨other, rfl⟩⟩

theorem MessageRun.readable_iff {c : Crypto} {value : OwnedTlv} {accepting resolver : KeyResolver}
    (run : MessageRun c value accepting) (htype : value.typeCode = Types.message)
    : (∃ read, readMessage value resolver = .ok read) ↔
        ¬Unreadable run.children ∧ ∀ identity ∈ run.item.destination, Resolvable resolver identity := by
  rw [← run.read_iff htype]
  constructor
  . rintro ⟨read, hread⟩
    obtain ⟨key, hkey⟩ := run.key_of_read htype hread
    obtain ⟨own, hown, hagrees⟩ := run.read_of_key htype hkey
    obtain ⟨reading, rfl⟩ := (readMessage_iff htype).mp hown
    refine ⟨⟨_, hown, hagrees⟩, ?_⟩
    rw [← hagrees.destination]
    exact (reading.resolver_iff htype).mp ⟨read, hread⟩
  . rintro ⟨⟨own, hown, hagrees⟩, hall⟩
    obtain ⟨reading, rfl⟩ := (readMessage_iff htype).mp hown
    rw [← hagrees.destination] at hall
    exact (reading.resolver_iff htype).mpr hall

end Tith
