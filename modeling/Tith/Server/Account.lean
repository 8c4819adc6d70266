import Tith.Lib.Triple
import Tith.Server.Holds

/-!
This module contains the rules by which the parts of a connection keep an account, and the account of
the claimed copies.
-/

namespace Tith

open Std.Do

set_option mvcgen.warning false

/--
What is said about a connection without what is read and written.
-/
abbrev Account := Store → List PollHold → List StoreCall → Prop

/--
A part of the exchange keeps the account, also if it fails. It gives nothing back to read, and has turns
enough for what there is to read.
-/
def KeepsWithin {α : Type} (account : Account) (n : Nat) (part : ServerM α) : Prop :=
  ⦃fun connection => ⌜account connection.store connection.holds connection.calls ∧
    connection.reads.length ≤ n⌝⦄
  part
  ⦃post⟨
    fun _ connection => ⌜account connection.store connection.holds connection.calls ∧
      connection.reads.length ≤ n⌝,
    fun error connection => ⌜account connection.store connection.holds connection.calls ∧
      error.isSome⌝⟩⦄

section Rules

variable {α β : Type} {account : Account} {n : Nat}

theorem keepsWithin_pure (value : α) : KeepsWithin account n (pure value) := by
  unfold KeepsWithin
  mvcgen

theorem keeps_fail (error : ServerError) : KeepsWithin (α := α) account n (ServerM.fail error) := by
  unfold KeepsWithin
  mvcgen [ServerM.fail]
  simp_all

theorem keepsWithin_bind {part : ServerM α} {rest : α → ServerM β} (hpart : KeepsWithin account n part)
    (hrest : ∀ value, KeepsWithin account n (rest value))
    : KeepsWithin account n (part >>= rest) :=
  Triple.bind part rest hpart hrest

theorem keeps_fail_bind (error : ServerError) (rest : α → ServerM β)
    : KeepsWithin account n (ServerM.fail error >>= rest) := by
  unfold KeepsWithin
  mvcgen [ServerM.fail]
  simp_all

theorem keeps_ofExcept (result : Except ServerError α)
    : KeepsWithin account n (ServerM.ofExcept result) := by
  cases result with
  | ok value => apply keepsWithin_pure
  | error error => apply keeps_fail

theorem readNext_spec
    : ⦃fun connection => ⌜account connection.store connection.holds connection.calls ∧
        connection.reads.length ≤ n⌝⦄
      readNext
      ⦃post⟨
        fun value connection => ⌜account connection.store connection.holds connection.calls ∧
          connection.reads.length + (if value.isSome then 1 else 0) ≤ n⌝,
        fun error connection => ⌜account connection.store connection.holds connection.calls ∧
          error.isSome⌝⟩⦄ := by
  mvcgen [readNext, ServerM.ofExcept, ServerM.fail]
  all_goals simp_all +zetaDelta

theorem keeps_mono {part : ServerM α} {m : Nat} (h : KeepsWithin account m part) (hle : m ≤ n)
    : ⦃fun connection => ⌜account connection.store connection.holds connection.calls ∧
        connection.reads.length ≤ m⌝⦄
      part
      ⦃post⟨
        fun _ connection => ⌜account connection.store connection.holds connection.calls ∧
          connection.reads.length ≤ n⌝,
        fun error connection => ⌜account connection.store connection.holds connection.calls ∧
          error.isSome⌝⟩⦄ := by
  unfold KeepsWithin at h
  mvcgen [h]
  intro haccount hreads
  exact ⟨haccount, by omega⟩

theorem keeps_readNext_bind {rest : Option OwnedTlv → ServerM β}
    (hnone : KeepsWithin account n (rest none))
    (hsome : ∀ value m, m < n → KeepsWithin account m (rest (some value)))
    : KeepsWithin account n (readNext >>= rest) := by
  -- Behind a value that was read there is less to read.
  apply Triple.bind _ _ readNext_spec
  intro value
  cases value with
  | none => exact hnone
  | some value =>
    cases n with
    | zero =>
      rw [Triple.iff]
      intro connection h
      simp at h
    | succ n =>
      have hrest := keeps_mono (hsome value n (by omega)) (Nat.le_succ n)
      simpa using hrest

theorem keeps_nextValue_bind {first : Option OwnedTlv} {rest : Option OwnedTlv → ServerM β}
    (hnone : KeepsWithin account n (rest none))
    (hsome : ∀ value m, m ≤ n → m < n + (if first.isSome then 1 else 0) →
      KeepsWithin account m (rest (some value)))
    : KeepsWithin account n (nextValue first >>= rest) := by
  cases first with
  | some value => exact hsome value n (Nat.le_refl n) (Nat.lt_succ_self n)
  | none =>
    apply keeps_readNext_bind hnone
    intro value m hm
    exact hsome value m (by omega) hm

theorem keeps_get_bind {rest : Connection → ServerM β}
    (h : ∀ connection, KeepsWithin account n (rest connection))
    : KeepsWithin account n (get >>= rest) := by
  apply keepsWithin_bind _ h
  unfold KeepsWithin
  mvcgen

theorem keeps_write (mailer : Mailer) (bytes : List UInt8)
    : KeepsWithin account n (write mailer bytes) := by
  unfold KeepsWithin
  mvcgen [write, ServerM.fail]
  all_goals simp_all

theorem keeps_shutdown (mailer : Mailer) : KeepsWithin account n (shutdown mailer) := by
  unfold KeepsWithin
  mvcgen [shutdown, ServerM.fail]
  all_goals simp_all

theorem keeps_currentTime (mailer : Mailer) : KeepsWithin account n (currentTime mailer) := by
  unfold KeepsWithin
  mvcgen [currentTime]

variable (c : Crypto) (sign : SignTlv) (mailer : Mailer)

theorem keeps_readHeaderRest {turns : Nat} (hturns : n < turns) (headerBytes : List UInt8)
    : KeepsWithin account n (readHeaderRest c mailer turns headerBytes) := by
  induction turns generalizing n headerBytes with
  | zero => omega
  | succ turns ih =>
    rw [readHeaderRest]
    apply keeps_readNext_bind
    . exact keeps_fail_bind _ _
    . intro value m hm
      apply keepsWithin_bind (keeps_ofExcept _)
      intro value
      split
      . apply keepsWithin_bind (keeps_ofExcept _)
        intro bundle
        apply keepsWithin_bind (keeps_ofExcept _)
        intro headerHash
        apply keepsWithin_pure
      . apply ih
        omega

theorem keeps_readHeader {turns : Nat} (hturns : n < turns) (first : Option OwnedTlv)
    : KeepsWithin account n (readHeader c mailer turns first) := by
  unfold readHeader
  apply keeps_nextValue_bind
  . apply keepsWithin_pure
  . intro value m hm _
    dsimp only
    split
    . apply keeps_fail
    . apply keepsWithin_bind
      . apply keeps_readHeaderRest
        omega
      . intro incoming
        apply keepsWithin_pure

theorem keeps_replyTo (peer : Identity) (incoming : IncomingBundle)
    : KeepsWithin account n (replyTo c sign mailer peer incoming) := by
  unfold replyTo
  split
  . apply keeps_fail_bind
  . apply keepsWithin_bind (keeps_currentTime mailer)
    intro now
    apply keeps_ofExcept

theorem keeps_answerPublicKeyRequest (request : IncomingBundle) (requestIdentifier : UInt64)
    (responseTo : TlvHash)
    : KeepsWithin account n (answerPublicKeyRequest c sign mailer request requestIdentifier responseTo) := by
  unfold answerPublicKeyRequest
  split
  . apply keeps_fail_bind
  . apply keepsWithin_bind (keeps_currentTime mailer)
    intro now
    apply keepsWithin_bind (keeps_ofExcept _)
    intro encoded
    apply keepsWithin_bind (keeps_write mailer encoded)
    intro _
    apply keeps_shutdown

theorem keeps_answerProbe (request : IncomingBundle) (value : OwnedTlv)
    : KeepsWithin account n (answerProbe c sign mailer request value) := by
  unfold answerProbe
  apply keepsWithin_bind (keeps_ofExcept _)
  intro probe
  apply keepsWithin_bind (keeps_ofExcept _)
  intro found
  apply keepsWithin_bind (keeps_ofExcept _)
  intro request
  apply keeps_readNext_bind
  . exact keeps_answerPublicKeyRequest c sign mailer _ _ _
  . intro value m _
    exact keeps_fail_bind _ _

end Rules

section Account

variable (c : Crypto) (sign : SignTlv) (mailer : Mailer)

def SoundCalls (calls : List StoreCall) : Prop := ∀ call ∈ calls, call.Sound c mailer

/--
The claims are accounted for, as long as the calls of the store have been sound.
-/
def accountOf : Account := fun s holds calls =>
  SoundCalls c mailer calls → Accounted s calls (holds.map (·.claim))

/--
Some of the claims have still to be registered and returned.
-/
def pendingAccount (origin : Identity) (identifier : UInt64) (claims : List DeliveryClaim) : Account :=
  fun s holds calls =>
    SoundCalls c mailer calls →
      Accounted s calls (holds.map (·.claim) ++ claims) ∧ Returns c mailer origin identifier claims

end Account

section Return

variable {c : Crypto} {mailer : Mailer} {origin : Identity} {identifier next : UInt64}
  {claim : DeliveryClaim} {claims : List DeliveryClaim} {s : Store} {holds holds' : List PollHold}
  {calls : List StoreCall}

theorem pendingAccount.overflow
    (h : pendingAccount c mailer origin identifier (claim :: claims) s holds calls)
    (hoverflow : checkedAdd identifier 1 = none)
    : accountOf c mailer s holds calls := by
  intro hsound
  have hlength := (h hsound).2.1
  simp only [checkedAdd, List.length_cons] at hoverflow hlength
  split at hoverflow
  . cases hoverflow
  . next hlt =>
    change ¬identifier.toNat + 1 < 2 ^ 64 at hlt
    omega

theorem toNat_of_checkedAdd (h : checkedAdd identifier 1 = some next)
    : next.toNat = identifier.toNat + 1 := by
  unfold checkedAdd at h
  split at h
  . next hlt =>
    injection h with h
    rw [← h, UInt64.toNat_add]
    exact Nat.mod_eq_of_lt hlt
  . cases h

theorem pendingAccount.register
    (h : pendingAccount c mailer origin identifier (claim :: claims) s holds calls)
    (hnext : checkedAdd identifier 1 = some next)
    (hholds : holds'.map (·.claim) = holds.map (·.claim) ++ [claim])
    : pendingAccount c mailer origin next claims s holds' calls := by
  intro hsound
  obtain ⟨haccounted, hlength, hreturns⟩ := h hsound
  have htoNat := toNat_of_checkedAdd hnext
  refine ⟨?_, ?_, ?_⟩
  . rw [hholds, List.append_assoc]
    exact haccounted
  . simp only [List.length_cons] at hlength
    omega
  . intro i other hother
    have hfound : (claim :: claims).dropLast[i + 1]? = some other := by
      cases claims with
      | nil => simp at hother
      | cons => simpa using hother
    have hreturn := hreturns (i + 1) other hfound
    rw [htoNat]
    rw [show identifier.toNat + 1 + i + 1 = identifier.toNat + (i + 1) + 1 by omega]
    exact hreturn

theorem pendingAccount.failed
    (h : pendingAccount c mailer origin identifier (claim :: claims) s holds calls)
    (hnext : checkedAdd identifier 1 = some next)
    (hholds : holds'.map (·.claim) = holds.map (·.claim) ++ [claim])
    (hfailed : returnable c mailer origin claim.item next = false)
    : accountOf c mailer s holds' calls := by
  -- Only the last claim can fail to be returned. It has been registered by then.
  intro hsound
  obtain ⟨haccounted, _⟩ := h.register hnext hholds hsound
  cases claims with
  | nil =>
    rw [List.append_nil] at haccounted
    exact haccounted
  | cons other claims =>
    have hreturn := (h hsound).2.2 0 claim (by simp)
    have hsame : UInt64.ofNat (identifier.toNat + 0 + 1) = next := by
      rw [Nat.add_zero, ← toNat_of_checkedAdd hnext, UInt64.ofNat_toNat]
    rw [hsame, hfailed] at hreturn
    cases hreturn

theorem not_returnable_of_singleValue (h : (singleValue claim.item).isOk = false)
    : returnable c mailer origin claim.item next = false := by
  unfold returnable
  split
  . rfl
  . next value hvalue =>
    rw [hvalue] at h
    cases h

theorem not_returnable {value : OwnedTlv} (hvalue : singleValue claim.item = .ok value)
    (h : (isRelayDelivery c value origin mailer.resolver).isOk = false ∨
      (setRequestIdentifier value next).isOk = false)
    : returnable c mailer origin claim.item next = false := by
  rw [returnable, hvalue]
  rcases h with h | h
  . simp [h]
  . simp [h]

theorem map_claim_setLastRelayed (relayed : Bool) (holds : List PollHold)
    : (setLastRelayed relayed holds).map (·.claim) = holds.map (·.claim) := by
  apply List.ext_getElem?
  intro i
  simp only [setLastRelayed, List.getElem?_map, List.getElem?_modify]
  cases holds[i]? with
  | none => rfl
  | some hold =>
    simp only [Option.map_some]
    split <;> rfl

theorem soundCalls_append {call : StoreCall} (h : SoundCalls c mailer (calls ++ [call]))
    : SoundCalls c mailer calls ∧ call.Sound c mailer :=
  ⟨fun other hother => h other (by simp [hother]), h call (by simp)⟩

theorem accountOf.poll_failed {kinds : List JobKind} (h : accountOf c mailer s holds calls)
    : accountOf c mailer s holds (calls ++ [.poll s origin kinds identifier []]) := by
  intro hsound
  obtain ⟨hledger, hperm, hheld, hnodup, hsettled⟩ := h (soundCalls_append hsound).1
  constructor
  . exact hledger
  . simpa [StoreCall.claims, StoreCall.finished] using hperm
  . exact hheld
  . exact hnodup
  . simpa [StoreCall.claims] using hsettled

theorem accountOf.poll {kinds : List JobKind} {call : Nat} {s' : Store}
    (h : accountOf c mailer s holds calls)
    (hpoll : snapshotAt mailer call kinds origin s = .ok (claims, s'))
    : pendingAccount c mailer origin identifier claims s' holds
        (calls ++ [.poll s origin kinds identifier claims]) := by
  intro hsound
  obtain ⟨hcalls, hcall⟩ := soundCalls_append hsound
  unfold snapshotAt at hpoll
  split at hpoll
  . cases hpoll
  . exact ⟨(h hcalls).poll hcall.1 hpoll, returns_of_sound hcall hpoll⟩

theorem finish_sound {call : Nat}
    (h : SoundCalls c mailer calls → Accounted s calls (claim :: claims))
    (hsound : SoundCalls c mailer (calls ++ [.finish s claim (mailer.outage call)])) (now : UInt64)
    (outcome : DeliveryOutcome)
    : mailer.outage call = none ∧
        ∃ state s', finishDelivery claim.jobId claim.deliveryIndex claim.workerToken now outcome s =
          .ok (state, s') ∧
          Accounted s' (calls ++ [.finish s claim (mailer.outage call)]) claims := by
  obtain ⟨hcalls, hcall⟩ := soundCalls_append hsound
  exact ⟨hcall.1, (h hcalls).finish hcall now outcome⟩

end Return

end Tith
