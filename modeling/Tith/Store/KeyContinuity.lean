import Tith.Lib.Chain
import Tith.Lib.Machine
import Tith.Store.KeyPins
import Tith.Wire.Lemmas.Address

/-!
This module contains the proof that the effective key of an address is the published one or the end of
proofs of continuity that start at the anchor of its pin or at the key that was observed first.
-/

namespace Tith

inductive KeyCall where
  | observeInitial (address : Address) (key : PublicKey) (anchor : Option PublicKey) (observed : UInt64)
  | advance (address : Address) (predecessor current : PublicKey) (anchor : Option PublicKey)
      (observed : UInt64)
  | resolve (address : Address) (anchor : Option PublicKey)

namespace KeyCall

def address : KeyCall → Address
  | .observeInitial address .. => address
  | .advance address .. => address
  | .resolve address _ => address

end KeyCall

namespace KeyPins

/--
The key that a call ends with. A call that fails drops its transaction.
-/
def perform (pins : KeyPins) (call : KeyCall) : Except StoreError (Option PublicKey) × KeyPins :=
  match call with
  | .observeInitial address key anchor observed =>
    match pins.observeInitial address key anchor observed with
    | .ok (key, pins) => (.ok (some key), pins)
    | .error e => (.error e, pins)
  | .advance address predecessor current anchor observed =>
    match pins.advance address predecessor current anchor observed with
    | .ok (pin, pins) => (.ok (some pin.current), pins)
    | .error e => (.error e, pins)
  | .resolve address anchor => (pins.resolve address anchor, pins)

def machine : Machine KeyPins KeyCall (Except StoreError (Option PublicKey)) where
  init := ∅
  step := perform

/--
A proof of continuity that was accepted, with the pins that it was compared with.
-/
structure Advance where
  before : KeyPins
  predecessor : PublicKey
  current : PublicKey

def advanceOf (address : Address) (pins : KeyPins) (call : KeyCall) : List Advance :=
  match call with
  | .advance address' predecessor current anchor observed =>
    if address' = address ∧ (pins.advance address' predecessor current anchor observed).isOk then
      [⟨pins, predecessor, current⟩]
    else
      []
  | _ => []

/--
The accepted proofs for an address, in the order of the run.
-/
def advances (address : Address) (calls : List KeyCall) : List Advance :=
  machine.emitted (advanceOf address) machine.init calls

/--
The key was the first one that was observed for the address, which had no published key.
-/
def ObservedFirst (address : Address) (calls : List KeyCall) (key : PublicKey) : Prop :=
  ∃ past rest observed, calls = past ++ .observeInitial address key none observed :: rest ∧
    (machine.run machine.init past)[address.display]? = none

/--
Where the proofs that lead to a pin may start. The ones behind a key that was observed first are all that
were ever accepted for the address.
-/
def Founds (address : Address) (calls : List KeyCall) (anchor : Option PublicKey) (chain : List Advance)
    (start : PublicKey) : Prop :=
  match anchor with
  | some anchor =>
    start = anchor ∧
      ∃ first ∈ chain.head?, effective first.before[address.display]? (some anchor) = some start
  | none => ObservedFirst address calls start ∧ chain = advances address calls

/--
The pin is the end of accepted proofs: all that were accepted for the address since the start.
-/
def Continuous (address : Address) (calls : List KeyCall) (pin : KeyPin) : Prop :=
  ∃ start chain, chain <:+ advances address calls ∧
    chain.Leads Advance.predecessor Advance.current start pin.current ∧
    Founds address calls pin.anchor chain start

variable {pins pins' : KeyPins} {address : Address} {anchor : Option PublicKey} {observed : UInt64}

theorem canonicalNonAnonymous_ok {text : String} (h : canonicalNonAnonymous address = .ok text)
    : text = address.display := by
  unfold canonicalNonAnonymous at h
  split at h
  . cases h
  . cases h
    rfl

theorem effective_eq_none {pin : Option KeyPin} : effective pin anchor = none ↔ pin = none ∧ anchor = none := by
  have h := @effective_isSome pin anchor
  rw [← Option.not_isSome_iff_eq_none, h]
  simp

theorem effective_cases {pin? : Option KeyPin} {key : PublicKey} (h : effective pin? anchor = some key)
    : (∃ pin, pin? = some pin ∧ pin.current = key ∧ anchor.or pin.anchor = pin.anchor) ∨
        anchor = some key := by
  unfold effective at h
  split at h
  . next pin anchor =>
    split at h
    . next hanchor =>
      injection h with h
      exact .inl ⟨pin, rfl, h, by rw [hanchor]; rfl⟩
    . exact .inr h
  . exact .inr h
  . next pin =>
    injection h with h
    exact .inl ⟨pin, rfl, h, rfl⟩
  . cases h

theorem observeInitial_cases {key result : PublicKey}
    (h : pins.observeInitial address key anchor observed = .ok (result, pins'))
    : (effective pins[address.display]? anchor = some result ∧ pins' = pins) ∨
        (pins[address.display]? = none ∧ anchor = none ∧ result = key ∧
          pins' = pins.insert address.display
            ⟨key, none, none, observed, .authorizedInitialObservation⟩) := by
  simp only [observeInitial, Except.bind_ok_iff] at h
  obtain ⟨text, htext, h⟩ := h
  obtain rfl := canonicalNonAnonymous_ok htext
  split at h
  . next heffective =>
    cases h
    exact .inl ⟨heffective, rfl⟩
  . next heffective =>
    cases h
    obtain ⟨hpin, hanchor⟩ := effective_eq_none.mp heffective
    exact .inr ⟨hpin, hanchor, rfl, rfl⟩

theorem advance_cases {predecessor current : PublicKey} {pin : KeyPin}
    (h : pins.advance address predecessor current anchor observed = .ok (pin, pins'))
    : effective pins[address.display]? anchor = some predecessor ∧ pin.current = current ∧
        pin.anchor = anchor.or (pins[address.display]?.bind (·.anchor)) ∧
        pins' = pins.insert address.display pin := by
  simp only [KeyPins.advance, Except.bind_ok_iff] at h
  obtain ⟨text, htext, h⟩ := h
  obtain rfl := canonicalNonAnonymous_ok htext
  split at h
  . cases h
  . next heffective =>
    cases h
    exact ⟨not_not.mp heffective, rfl, rfl, rfl⟩

theorem perform_cases (pins : KeyPins) (call : KeyCall)
    : (pins.perform call).2 = pins ∨
        ∃ pin, (pins.perform call).2 = pins.insert call.address.display pin := by
  cases call with
  | observeInitial address key anchor observed =>
    dsimp only [perform]
    split
    . next h =>
      rcases observeInitial_cases h with ⟨-, hpins⟩ | ⟨-, -, -, hpins⟩
      . exact .inl hpins
      . exact .inr ⟨_, hpins⟩
    . exact .inl rfl
  | advance address predecessor current anchor observed =>
    dsimp only [perform]
    split
    . next h => exact .inr ⟨_, (advance_cases h).2.2.2⟩
    . exact .inl rfl
  | resolve address anchor => exact .inl rfl

theorem perform_get_ne (pins : KeyPins) {call : KeyCall} (h : call.address ≠ address)
    : (pins.perform call).2[address.display]? = pins[address.display]? := by
  have hkey : call.address.display ≠ address.display := fun heq => h (Address.display_inj heq)
  rcases perform_cases pins call with hpins | ⟨pin, hpins⟩
  . rw [hpins]
  . rw [hpins, Table.getElem?_insert_ne _ hkey]

section Continuity

variable {past : List KeyCall} {call : KeyCall}

theorem advances_append (address : Address) (past : List KeyCall) (call : KeyCall)
    : advances address (past ++ [call]) =
        advances address past ++ advanceOf address (machine.run machine.init past) call := by
  unfold advances
  rw [Machine.emitted_append]
  simp [Machine.emitted]

theorem ObservedFirst.append {key : PublicKey} (h : ObservedFirst address past key) (call : KeyCall)
    : ObservedFirst address (past ++ [call]) key := by
  obtain ⟨before, rest, observed, rfl, hnone⟩ := h
  exact ⟨before, rest ++ [call], observed, by simp, hnone⟩

theorem Founds.append {chain : List Advance} {start : PublicKey} (h : Founds address past anchor chain start)
    (call : KeyCall)
    : Founds address (past ++ [call]) anchor
        (chain ++ advanceOf address (machine.run machine.init past) call) start := by
  -- The start stays the start, whether the call is a proof that makes the chain longer or not.
  cases anchor with
  | none =>
    obtain ⟨hobserved, rfl⟩ := h
    exact ⟨hobserved.append call, (advances_append address past call).symm⟩
  | some anchor =>
    obtain ⟨hstart, first, hfirst, hbefore⟩ := h
    refine ⟨hstart, first, ?_, hbefore⟩
    rw [List.head?_append, hfirst]
    rfl

theorem Continuous.append {pin : KeyPin} (h : Continuous address past pin)
    (hcall : advanceOf address (machine.run machine.init past) call = [])
    : Continuous address (past ++ [call]) pin := by
  obtain ⟨start, chain, hsuffix, hleads, hfounds⟩ := h
  have hfounds := hfounds.append call
  rw [hcall, List.append_nil] at hfounds
  refine ⟨start, chain, ?_, hleads, hfounds⟩
  rw [advances_append, hcall, List.append_nil]
  exact hsuffix

theorem advanceOf_ne (pins : KeyPins) (h : call.address ≠ address) : advanceOf address pins call = [] := by
  cases call with
  | advance address' predecessor current anchor observed =>
    exact if_neg fun hsame => h hsame.1
  | observeInitial => rfl
  | resolve => rfl

theorem continuous_advance {predecessor current : PublicKey} {pin : KeyPin} {s s' : KeyPins}
    (hs : machine.run machine.init past = s)
    (hpast : ∀ pin, s[address.display]? = some pin → Continuous address past pin)
    (h : s.advance address predecessor current anchor observed = .ok (pin, s'))
    : Continuous address (past ++ [.advance address predecessor current anchor observed]) pin := by
  -- An accepted proof continues the chain of the pin, or starts one at the anchor it was given.
  obtain ⟨heffective, hcurrent, hanchor, -⟩ := advance_cases h
  have hemitted : advanceOf address s (.advance address predecessor current anchor observed) =
      [⟨s, predecessor, current⟩] := by
    dsimp only [advanceOf]
    rw [if_pos]
    exact ⟨rfl, by rw [h]; rfl⟩
  unfold Continuous
  rw [advances_append, hs, hemitted, hcurrent, hanchor]
  rcases effective_cases heffective with ⟨old, hold, hkey, hagrees⟩ | hgiven
  . obtain ⟨start, chain, ⟨before, hbefore⟩, hleads, hfounds⟩ := hpast old hold
    refine ⟨start, chain ++ [⟨s, predecessor, current⟩], ⟨before, ?_⟩, ?_, ?_⟩
    . rw [← hbefore, List.append_assoc]
    . exact hleads.append_singleton hkey.symm
    . have hfounds := hfounds.append (.advance address predecessor current anchor observed)
      rw [hs, hemitted] at hfounds
      rw [hold, Option.bind_some, hagrees]
      exact hfounds
  . subst hgiven
    refine ⟨predecessor, [⟨s, predecessor, current⟩], List.suffix_append _ _, ⟨rfl, rfl⟩, rfl, ?_⟩
    exact ⟨_, rfl, heffective⟩

theorem advances_nil_perform {s : KeyPins} (hs : machine.run machine.init past = s)
    (hpast : ∀ address, s[address.display]? = none → advances address past = [])
    (call : KeyCall) {address : Address} (hnone : (s.perform call).2[address.display]? = none)
    : advances address (past ++ [call]) = [] := by
  -- An accepted proof leaves a pin, and no call removes one.
  have hold : s[address.display]? = none := by
    rcases perform_cases s call with hpins | ⟨pin, hpins⟩
    . rw [← hpins]
      exact hnone
    . rw [hpins, Table.getElem?_insert] at hnone
      split at hnone
      . cases hnone
      . exact hnone
  rw [advances_append, hs, hpast address hold, List.nil_append]
  by_cases haddress : call.address = address
  . cases call with
    | advance address' predecessor current anchor observed =>
      refine if_neg ?_
      rintro ⟨rfl, hok⟩
      obtain ⟨⟨pin, s'⟩, hok⟩ := Except.exists_of_isOk hok
      dsimp only [perform] at hnone
      rw [hok] at hnone
      dsimp only at hnone
      rw [(advance_cases hok).2.2.2, Table.getElem?_insert, if_pos rfl] at hnone
      cases hnone
    | observeInitial => rfl
    | resolve => rfl
  . exact advanceOf_ne s haddress

theorem continuous_perform {s : KeyPins} (hs : machine.run machine.init past = s)
    (hpast : ∀ address pin, s[address.display]? = some pin → Continuous address past pin)
    (hnil : ∀ address, s[address.display]? = none → advances address past = [])
    (call : KeyCall) {address : Address} {pin : KeyPin}
    (hpin : (s.perform call).2[address.display]? = some pin)
    : Continuous address (past ++ [call]) pin := by
  by_cases haddress : call.address = address
  . subst haddress
    cases call with
    | observeInitial address key anchor observed =>
      dsimp only [perform] at hpin
      split at hpin
      . next result s' h =>
        rcases observeInitial_cases h with ⟨-, rfl⟩ | ⟨hnone, rfl, -, rfl⟩
        . exact (hpast _ _ hpin).append rfl
        . rw [KeyCall.address, Table.getElem?_insert, if_pos rfl] at hpin
          injection hpin with hpin
          subst hpin
          refine ⟨key, [], List.nil_suffix, rfl, ⟨past, [], observed, rfl, ?_⟩, ?_⟩
          . rw [hs]
            exact hnone
          . rw [KeyCall.address, advances_append, hnil address hnone]
            rfl
      . exact (hpast _ _ hpin).append rfl
    | advance address predecessor current anchor observed =>
      dsimp only [perform] at hpin
      split at hpin
      . next new s' h =>
        rw [(advance_cases h).2.2.2, KeyCall.address, Table.getElem?_insert, if_pos rfl] at hpin
        injection hpin with hpin
        subst hpin
        exact continuous_advance hs (hpast address) h
      . next h =>
        apply (hpast _ _ hpin).append
        rw [hs]
        dsimp only [advanceOf]
        rw [if_neg]
        rintro ⟨-, hok⟩
        rw [h] at hok
        exact Bool.false_ne_true hok
    | resolve address anchor => exact (hpast _ _ hpin).append rfl
  . rw [perform_get_ne s haddress] at hpin
    exact (hpast _ _ hpin).append (advanceOf_ne _ haddress)

theorem continuous (calls : List KeyCall) (address : Address) (pin : KeyPin)
    (hpin : (machine.run machine.init calls)[address.display]? = some pin)
    : Continuous address calls pin := by
  have hrun := Machine.history
    (m := machine) (fun past s => machine.run machine.init past = s ∧
      (∀ address pin, s[address.display]? = some pin → Continuous address past pin) ∧
      ∀ address, s[address.display]? = none → advances address past = [])
  refine (hrun ?_ ?_ calls).2.1 address pin hpin
  . rintro past s call ⟨hs, hpast, hnil⟩
    refine ⟨?_, fun address pin => continuous_perform hs hpast hnil call,
      fun address => advances_nil_perform hs hnil call⟩
    rw [Machine.run_append, hs]
    rfl
  . refine ⟨rfl, ?_, fun _ _ => rfl⟩
    intro address pin hpin
    simp [machine] at hpin

end Continuity

theorem observeInitial_effective {key result : PublicKey}
    (h : pins.observeInitial address key anchor observed = .ok (result, pins')) {other : Address}
    {anchor' : Option PublicKey} {effectiveKey : PublicKey}
    (hkey : effective pins[other.display]? anchor' = some effectiveKey)
    : effective pins'[other.display]? anchor' = some effectiveKey := by
  rcases observeInitial_cases h with ⟨-, rfl⟩ | ⟨hnone, -, -, rfl⟩
  . exact hkey
  . by_cases haddress : address.display = other.display
    . rw [← haddress, hnone] at hkey
      rw [← haddress, Table.getElem?_insert, if_pos rfl]
      unfold effective at hkey ⊢
      cases anchor' with
      | none => cases hkey
      | some anchor' => exact hkey
    . rw [Table.getElem?_insert_ne _ haddress]
      exact hkey

theorem get_ok {pin : Option KeyPin}
    : pins.get address = .ok pin ↔ address.isAnonymous = false ∧ pins[address.display]? = pin := by
  unfold get canonicalNonAnonymous
  cases address.isAnonymous <;> simp

theorem resolve_ok {key : Option PublicKey}
    : pins.resolve address anchor = .ok key ↔
        address.isAnonymous = false ∧ effective pins[address.display]? anchor = key := by
  unfold resolve get canonicalNonAnonymous
  cases address.isAnonymous <;> simp

theorem perform_advance {predecessor current : PublicKey} {key : Option PublicKey}
    (h : (pins.perform (.advance address predecessor current anchor observed)).1 = .ok key)
    : pins.resolve address anchor = .ok (some predecessor) ∧ key = some current ∧
        ∀ anchor' ∈ [anchor, none],
          (pins.perform (.advance address predecessor current anchor observed)).2.resolve address
            anchor' = .ok (some current) := by
  dsimp only [perform] at h ⊢
  split at h
  . next pin pins' hok =>
    have hlisted : address.isAnonymous = false := by
      cases hanonymous : address.isAnonymous with
      | false => rfl
      | true =>
        rw [advance, canonicalNonAnonymous, if_pos hanonymous] at hok
        cases hok
    obtain ⟨heffective, rfl, hanchor, rfl⟩ := advance_cases hok
    cases h
    refine ⟨resolve_ok.mpr ⟨hlisted, heffective⟩, rfl, ?_⟩
    intro anchor' hmem
    refine resolve_ok.mpr ⟨hlisted, ?_⟩
    dsimp only
    rw [Table.getElem?_insert, if_pos rfl]
    cases anchor' with
    | none => rfl
    | some given =>
      have hgiven : anchor = some given := by simpa [eq_comm] using hmem
      rw [hgiven, Option.some_or] at hanchor
      exact if_pos hanchor
  . cases h

theorem perform_error {call : KeyCall} {e : StoreError} (h : (pins.perform call).1 = .error e)
    : (pins.perform call).2 = pins := by
  cases call with
  | observeInitial address key anchor observed =>
    dsimp only [perform] at h ⊢
    split
    . next hok =>
      rw [hok] at h
      cases h
    . rfl
  | advance address predecessor current anchor observed =>
    dsimp only [perform] at h ⊢
    split
    . next hok =>
      rw [hok] at h
      cases h
    . rfl
  | resolve address anchor => rfl

theorem perform_get (pins : KeyPins) {call : KeyCall} {other : Address} (h : call.address ≠ other)
    : (pins.perform call).2.get other = pins.get other := by
  unfold get canonicalNonAnonymous
  cases other.isAnonymous with
  | true => rfl
  | false => exact congrArg Except.ok (perform_get_ne pins h)

theorem resolve_run (calls : List KeyCall) {key : PublicKey}
    (h : (machine.run machine.init calls).resolve address anchor = .ok (some key))
    : anchor = some key ∨
        ∃ pin start chain, (machine.run machine.init calls).get address = .ok (some pin) ∧
          anchor.or pin.anchor = pin.anchor ∧
          chain <:+ advances address calls ∧
          chain.Leads Advance.predecessor Advance.current start key ∧
          Founds address calls pin.anchor chain start := by
  obtain ⟨hlisted, heffective⟩ := resolve_ok.mp h
  rcases effective_cases heffective with ⟨pin, hpin, rfl, hagrees⟩ | hanchor
  . obtain ⟨start, chain, hsuffix, hleads, hfounds⟩ := continuous calls address pin hpin
    exact .inr ⟨pin, start, chain, get_ok.mpr ⟨hlisted, hpin⟩, hagrees, hsuffix, hleads, hfounds⟩
  . exact .inl hanchor

theorem resolve_observeInitial {address other : Address} {key effectiveKey : PublicKey}
    {anchor anchor' : Option PublicKey} (h : pins.resolve other anchor' = .ok (some effectiveKey))
    : (pins.perform (.observeInitial address key anchor observed)).2.resolve other anchor' =
        .ok (some effectiveKey) := by
  dsimp only [perform]
  split
  . next hobserve =>
    obtain ⟨hlisted, heffective⟩ := resolve_ok.mp h
    exact resolve_ok.mpr ⟨hlisted, observeInitial_effective hobserve heffective⟩
  . exact h

end KeyPins

/--
In every run of calls on an empty store: the effective key is the anchor that is given, or the end of the last
accepted proofs for the address, which start at the recorded anchor of the pin or at the key observed first; an
observation changes no effective key; a proof that is accepted makes its key the effective one, a failed one
changes nothing; and a call changes no pin of another address.
-/
theorem key_pins_advance_by_proof (calls : List KeyCall)
    : let pins := KeyPins.machine.run KeyPins.machine.init calls
      (∀ address anchor key, pins.resolve address anchor = .ok (some key) →
        anchor = some key ∨
          ∃ pin start chain, pins.get address = .ok (some pin) ∧
            anchor.or pin.anchor = pin.anchor ∧
            chain <:+ KeyPins.advances address calls ∧
            chain.Leads KeyPins.Advance.predecessor KeyPins.Advance.current start key ∧
            KeyPins.Founds address calls pin.anchor chain start) ∧
      (∀ address key anchor observed other anchor' effective,
        pins.resolve other anchor' = .ok (some effective) →
        (pins.perform (.observeInitial address key anchor observed)).2.resolve other anchor' =
          .ok (some effective)) ∧
      (∀ address predecessor current anchor observed key,
        (pins.perform (.advance address predecessor current anchor observed)).1 = .ok key →
        pins.resolve address anchor = .ok (some predecessor) ∧ key = some current ∧
          ∀ anchor' ∈ [anchor, none],
            (pins.perform (.advance address predecessor current anchor observed)).2.resolve address
              anchor' = .ok (some current)) ∧
      (∀ address predecessor current anchor observed e,
        (pins.perform (.advance address predecessor current anchor observed)).1 = .error e →
        (pins.perform (.advance address predecessor current anchor observed)).2 = pins) ∧
      (∀ call other, call.address ≠ other →
        (pins.perform call).2.get other = pins.get other ∧
          ∀ anchor, (pins.perform call).2.resolve other anchor = pins.resolve other anchor) := by
  refine ⟨?_, ?_, ?_, ?_, ?_⟩
  . intro address anchor key h
    exact KeyPins.resolve_run calls h
  . intro address key anchor observed other anchor' effective h
    exact KeyPins.resolve_observeInitial h
  . intro address predecessor current anchor observed key h
    exact KeyPins.perform_advance h
  . intro address predecessor current anchor observed e h
    exact KeyPins.perform_error h
  . intro call other h
    have hget := KeyPins.perform_get (KeyPins.machine.run KeyPins.machine.init calls) h
    refine ⟨hget, ?_⟩
    intro anchor
    unfold KeyPins.resolve
    rw [hget]

namespace KeyPins.Sample

def address : Address := ⟨"fidonet", 1, 2, 3, 0, by decide⟩

def key (n : UInt8) : PublicKey := Vector.replicate 32 n

/--
A key that is observed and then replaced twice, with a proof that does not fit in between.
-/
def calls : List KeyCall :=
  [ .observeInitial address (key 1) none 5,
    .advance address (key 1) (key 2) none 6,
    .advance address (key 1) (key 9) none 7,
    .advance address (key 2) (key 3) none 8 ]

end KeyPins.Sample

/--
The pin has advanced by the two proofs that were accepted, from the key that was observed.
-/
theorem key_pins_advance_by_proof_advanced
    : ∃ chain, chain.length = 2 ∧ chain = KeyPins.advances KeyPins.Sample.address KeyPins.Sample.calls ∧
        chain.Leads KeyPins.Advance.predecessor KeyPins.Advance.current (KeyPins.Sample.key 1)
          (KeyPins.Sample.key 3) ∧
        KeyPins.ObservedFirst KeyPins.Sample.address KeyPins.Sample.calls (KeyPins.Sample.key 1) := by
  have hresolve : (KeyPins.machine.run KeyPins.machine.init KeyPins.Sample.calls).resolve
      KeyPins.Sample.address none = .ok (some (KeyPins.Sample.key 3)) := by
    decide
  have hanchor : ((KeyPins.machine.run KeyPins.machine.init KeyPins.Sample.calls).get
      KeyPins.Sample.address).toOption.join.bind (·.anchor) = none := by
    decide
  have hlength : (KeyPins.advances KeyPins.Sample.address KeyPins.Sample.calls).length = 2 := by
    decide
  have hstart : (KeyPins.advances KeyPins.Sample.address KeyPins.Sample.calls).head?.map
      KeyPins.Advance.predecessor = some (KeyPins.Sample.key 1) := by
    decide
  obtain hgiven | ⟨pin, start, chain, hpin, _, _, hleads, hfounds⟩ :=
    (key_pins_advance_by_proof KeyPins.Sample.calls).1 _ none _ hresolve
  . cases hgiven
  . rw [hpin] at hanchor
    have hnone : pin.anchor = none := hanchor
    rw [hnone] at hfounds
    obtain ⟨hobserved, rfl⟩ := hfounds
    cases hchain : KeyPins.advances KeyPins.Sample.address KeyPins.Sample.calls with
    | nil =>
      rw [hchain] at hlength
      cases hlength
    | cons first rest =>
      rw [hchain] at hleads hstart hlength
      have hfirst : first.predecessor = KeyPins.Sample.key 1 := Option.some.inj hstart
      obtain rfl : KeyPins.Sample.key 1 = start := hfirst.symm.trans hleads.1
      exact ⟨first :: rest, hlength, rfl, hleads, hobserved⟩

end Tith
