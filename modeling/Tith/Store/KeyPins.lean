import Tith.Store.Basic

/-!
This module contains the pins of public keys: the key of a non-anonymous address that was observed
first, or that a proof of continuity has led to, beside the key that the nodelist publishes.
-/

namespace Tith

inductive KeyPinEvidence where
  | authorizedInitialObservation
  | authenticatedContinuityProof
  deriving DecidableEq, Repr

structure KeyPin where
  current : PublicKey
  anchor : Option PublicKey
  predecessor : Option PublicKey
  observed : UInt64
  evidence : KeyPinEvidence
  deriving DecidableEq

abbrev KeyPins := Table String KeyPin

namespace KeyPins

def canonicalNonAnonymous (address : Address) : Except StoreError String :=
  if address.isAnonymous then .error .invalidPayload else .ok address.display

def get (pins : KeyPins) (address : Address) : Except StoreError (Option KeyPin) := do
  let key ← canonicalNonAnonymous address
  .ok pins[key]?

/--
The effective key: a published key replaces a pin that is not anchored to it.
-/
def effective (pin : Option KeyPin) (anchor : Option PublicKey) : Option PublicKey :=
  match pin, anchor with
  | some pin, some anchor => if pin.anchor = some anchor then some pin.current else some anchor
  | none, some anchor => some anchor
  | some pin, none => some pin.current
  | none, none => none

def resolve (pins : KeyPins) (address : Address) (authoritativeAnchor : Option PublicKey)
    : Except StoreError (Option PublicKey) := do
  let pin ← pins.get address
  .ok (effective pin authoritativeAnchor)

def observeInitial (pins : KeyPins) (address : Address) (key : PublicKey)
    (authoritativeAnchor : Option PublicKey) (observed : UInt64)
    : Except StoreError (PublicKey × KeyPins) := do
  let text ← canonicalNonAnonymous address
  match effective pins[text]? authoritativeAnchor with
  | some effective => .ok (effective, pins)
  | none =>
    let pin := ⟨key, none, none, observed, .authorizedInitialObservation⟩
    .ok (key, pins.insert text pin)

def advance (pins : KeyPins) (address : Address) (predecessor current : PublicKey)
    (authoritativeAnchor : Option PublicKey) (observed : UInt64)
    : Except StoreError (KeyPin × KeyPins) := do
  let text ← canonicalNonAnonymous address
  if effective pins[text]? authoritativeAnchor ≠ some predecessor then
    .error .invalidPayload
  else
    let anchor := authoritativeAnchor.or (pins[text]?.bind (·.anchor))
    let pin := ⟨current, anchor, some predecessor, observed, .authenticatedContinuityProof⟩
    .ok (pin, pins.insert text pin)

/--
One observation or proof that some worker records.
-/
inductive Step : KeyPins → KeyPins → Prop where
  | observe {pins pins' : KeyPins} {address : Address} {key result : PublicKey}
      {anchor : Option PublicKey} {observed : UInt64}
      (h : pins.observeInitial address key anchor observed = .ok (result, pins'))
      : Step pins pins'
  | advance {pins pins' : KeyPins} {address : Address} {predecessor current : PublicKey} {pin : KeyPin}
      {anchor : Option PublicKey} {observed : UInt64}
      (h : pins.advance address predecessor current anchor observed = .ok (pin, pins'))
      : Step pins pins'

/--
The key of an address, as `ok().flatten()` leaves it.
-/
def lookup (pins : KeyPins) (anchors : KeyResolver) : KeyResolver := fun address =>
  (pins.resolve address (anchors address)).toOption.join

theorem effective_isSome {pin : Option KeyPin} {anchor : Option PublicKey}
    : (effective pin anchor).isSome = (pin.isSome || anchor.isSome) := by
  unfold effective
  split
  . split <;> rfl
  . rfl
  . rfl
  . rfl

theorem lookup_isSome (pins : KeyPins) (anchors : KeyResolver) (address : Address)
    : (pins.lookup anchors address).isSome =
        (!address.isAnonymous && (pins[address.display]?.isSome || (anchors address).isSome)) := by
  unfold lookup resolve get canonicalNonAnonymous
  cases address.isAnonymous with
  | true => rfl
  | false => exact effective_isSome

theorem Step.getElem?_isSome {pins pins' : KeyPins} (h : Step pins pins') {key : String}
    (hkey : pins[key]?.isSome)
    : pins'[key]?.isSome := by
  cases h with
  | observe h =>
    simp only [observeInitial, Except.bind_ok_iff] at h
    obtain ⟨text, _, h⟩ := h
    split at h
    . cases h
      exact hkey
    . cases h
      rw [Table.getElem?_insert]
      split
      . rfl
      . exact hkey
  | advance h =>
    simp only [KeyPins.advance, Except.bind_ok_iff] at h
    obtain ⟨text, _, h⟩ := h
    split at h
    . cases h
    . cases h
      rw [Table.getElem?_insert]
      split
      . rfl
      . exact hkey

theorem lookup_isSome_of_steps {pins pins' : KeyPins} (h : Relation.ReflTransGen Step pins pins')
    {anchors : KeyResolver} {address : Address} (hkey : (pins.lookup anchors address).isSome)
    : (pins'.lookup anchors address).isSome := by
  rw [lookup_isSome, Bool.and_eq_true, Bool.or_eq_true] at hkey ⊢
  obtain ⟨hlisted, hkey⟩ := hkey
  refine ⟨hlisted, hkey.imp_left ?_⟩
  intro hpin
  induction h with
  | refl => exact hpin
  | tail _ hstep ih => exact hstep.getElem?_isSome ih

end KeyPins

end Tith
