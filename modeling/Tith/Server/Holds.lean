import Tith.Server.Copies

/-!
This module contains the account of the copies that a connection has claimed: each of them is finished,
or held by the connection and waits for its response.
-/

namespace Tith

section Sound

variable (c : Crypto) (mailer : Mailer)

/--
The item of a claim can be returned under this identifier.
-/
def returnable (origin : Identity) (item : List UInt8) (identifier : UInt64) : Bool :=
  match singleValue item with
  | .error _ => false
  | .ok value =>
    (isRelayDelivery c value origin mailer.resolver).isOk && (setRequestIdentifier value identifier).isOk

/--
A poll takes no two copies of one job, and can return all of them but perhaps the last. A copy is
finished while the database works and the job has an event number left.
-/
def StoreCall.Sound (call : StoreCall) : Prop :=
  match call with
  | .poll s origin kinds identifier _ =>
    let snapshot := snapshotOf origin.address.display origin.embeddedKey kinds s
    (∀ (key : String) job, s.jobs[key]? = some job →
      MatchesOnce origin.address.display origin.embeddedKey kinds job) ∧
    identifier.toNat + snapshot.length < 2 ^ 64 ∧
    ∀ (i : Nat) selected item, snapshot.dropLast[i]? = some selected →
      s.items[selected.job.jobId]? = some item →
      returnable c mailer origin item (UInt64.ofNat (identifier.toNat + i + 1))
  | .finish s claim outage => outage = none ∧ (lastSequence s.events claim.jobId).toNat + 1 < 2 ^ 64

end Sound

/--
Every claimed copy has been finished once, or is one of the open ones and held by this connection.
-/
structure Accounted (s : Store) (calls : List StoreCall) (claims : List DeliveryClaim) : Prop where
  ledger : LedgerInv False s.ledger
  perm : (calls.flatMap (·.claims)).Perm (calls.flatMap (·.finished) ++ claims)
  held : ∀ claim ∈ claims, Held s claim
  nodup : (claims.map (·.key)).Nodup
  settled : ∀ claim ∈ calls.flatMap (·.claims), claim.key ∈ claims.map (·.key) ∨ Settled s claim.key

section Accounted

variable {c : Crypto} {mailer : Mailer} {s s' : Store} {calls : List StoreCall}
  {claims : List DeliveryClaim}

theorem Accounted.perm_claims (h : Accounted s calls claims) {claims' : List DeliveryClaim}
    (hperm : claims.Perm claims')
    : Accounted s calls claims' where
  ledger := h.ledger
  perm := h.perm.trans (hperm.append_left _)
  held claim hclaim := h.held claim (hperm.mem_iff.mpr hclaim)
  nodup := (hperm.map _).nodup_iff.mp h.nodup
  settled claim hclaim := by
    rcases h.settled claim hclaim with hopen | hsettled
    . exact .inl ((hperm.map _).mem_iff.mp hopen)
    . exact .inr hsettled

theorem Accounted.of_kept (h : Accounted s calls claims) (hledger : LedgerInv False s'.ledger)
    (hkept : CopiesKept [] s s')
    : Accounted s' calls claims where
  ledger := hledger
  perm := h.perm
  held claim hclaim := hkept.held (h.held claim hclaim) (by simp)
  nodup := h.nodup
  settled claim hclaim := by
    rcases h.settled claim hclaim with hopen | hsettled
    . exact .inl hopen
    . exact .inr (hkept.settled hsettled (by simp))

theorem Accounted.acceptance (h : Accounted s calls claims) (c : Crypto) (ops : List AcceptanceOp)
    : Accounted ((storeMachine c).run s (ops.map AcceptanceOp.op)) calls claims := by
  induction ops generalizing s with
  | nil => exact h
  | cons op ops ih =>
    apply ih
    apply h.of_kept
    . exact step_ledgerInv c h.ledger False.elim
    . exact acceptance_kept c op

theorem Accounted.finish {claim : DeliveryClaim} (h : Accounted s calls (claim :: claims))
    {outage : Option StoreError} (hsound : (StoreCall.finish s claim outage).Sound c mailer)
    (now : UInt64) (outcome : DeliveryOutcome)
    : ∃ state s', finishDelivery claim.jobId claim.deliveryIndex claim.workerToken now outcome s =
        .ok (state, s') ∧ Accounted s' (calls ++ [.finish s claim outage]) claims := by
  obtain ⟨copy, ⟨job, position, hjob, hget, hindex⟩, hactive, htoken⟩ := h.held claim (by simp)
  obtain ⟨state, s', hok⟩ :=
    (finishDelivery_ok_iff h.ledger hjob hget hactive htoken now outcome).mpr hsound.2
  dsimp only [DeliveryClaim.key] at hindex hok
  rw [hindex] at hok
  refine ⟨state, s', hok, ?_⟩
  obtain ⟨hkept, hsettled⟩ := finishDelivery_kept hok
  have hnodup := h.nodup
  rw [List.map_cons, List.nodup_cons] at hnodup
  constructor
  . have hledger : LedgerInv False
        (step c s (.finishDelivery claim.jobId claim.deliveryIndex claim.workerToken now
          outcome)).2.ledger :=
      step_ledgerInv c h.ledger False.elim
    simpa [step, transact, hok] using hledger
  . have hperm := h.perm
    simp only [List.flatMap_append, List.flatMap_singleton, StoreCall.claims, StoreCall.finished,
      List.append_nil, List.append_assoc]
    exact hperm
  . intro other hother
    apply hkept.held (h.held other (by simp [hother]))
    intro hkey
    apply hnodup.1
    rw [← List.mem_singleton.mp hkey]
    exact List.mem_map_of_mem hother
  . exact hnodup.2
  . intro other hother
    simp only [List.flatMap_append, List.flatMap_singleton, StoreCall.claims, List.append_nil] at hother
    by_cases hkey : other.key = claim.key
    . right
      rw [hkey]
      exact hsettled
    . rcases h.settled other hother with hopen | hdone
      . left
        rw [List.map_cons, List.mem_cons] at hopen
        exact hopen.resolve_left hkey
      . right
        exact hkept.settled hdone (by simpa using hkey)

section Poll

variable {nextHop : String} {nextHopKey : Option PublicKey} {kinds : List JobKind} {now : UInt64}
  {rng : Rng} {new : List DeliveryClaim}

theorem claimAll_items {selected : List Selected} {now : UInt64} {rng : Rng}
    (h : claimAll selected now rng s = .ok (new, s'))
    : List.Forall₂ (fun sel claim => s.items[sel.job.jobId]? = some claim.item) selected new := by
  induction selected generalizing rng s new with
  | nil =>
    simp only [claimAll, Except.ok.injEq, Prod.mk.injEq] at h
    rw [← h.1]
    exact .nil
  | cons first rest ih =>
    simp only [claimAll, Except.bind_ok_iff, Except.ok.injEq, Prod.mk.injEq, Prod.exists] at h
    obtain ⟨claim, rng₁, s₁, hfirst, claims₁, s₂, hrest, rfl, rfl⟩ := h
    obtain ⟨token, attempts, item, events, _, _, hitem, _, rfl, rfl⟩ := claimSelected_cases hfirst
    have hitems := ih hrest
    exact .cons hitem hitems

theorem Accounted.poll (h : Accounted s calls claims) {origin : Identity} {identifier : UInt64}
    (honce : ∀ (key : String) job, s.jobs[key]? = some job →
      MatchesOnce origin.address.display origin.embeddedKey kinds job)
    (hpoll : claimPollSnapshot origin.address.display origin.embeddedKey kinds now rng s =
      .ok (new, s'))
    : Accounted s' (calls ++ [.poll s origin kinds identifier new]) (claims ++ new) := by
  -- The copies that a poll takes are new: none of them is held yet.
  have hkept := claimPollSnapshot_kept h.ledger hpoll
  have hexact := claimPollSnapshot_exact h.ledger hpoll
  have hnew : ∀ claim ∈ claims, claim.key ∉ new.map (·.key) := by
    intro claim hclaim hkey
    obtain ⟨other, hother, heq⟩ := List.mem_map.mp hkey
    obtain ⟨job, hjob, _, copy, hcopy, hindex, _, _, hwaiting⟩ :=
      (hexact.taken other.jobId other.deliveryIndex).mp ⟨other, hother, rfl, rfl⟩
    obtain ⟨position, hget⟩ := List.getElem?_of_mem hcopy
    obtain ⟨held, hheld, hactive, _⟩ := h.held claim hclaim
    rw [← heq] at hheld
    have hsame := CopyAt.unique h.ledger hheld ⟨job, position, hjob, hget, hindex⟩
    rw [hsame] at hactive
    rw [hactive] at hwaiting
    simp at hwaiting
  constructor
  . have hwrites : Writes False False s.ledger s.ledger s'.ledger :=
      claimPollSnapshot_writes h.ledger False.elim hpoll
    exact (hwrites.inv h.ledger).1
  . simp only [List.flatMap_append, List.flatMap_singleton, StoreCall.claims, StoreCall.finished,
      List.append_nil]
    rw [← List.append_assoc]
    exact h.perm.append_right _
  . intro claim hclaim
    rcases List.mem_append.mp hclaim with hclaim | hclaim
    . exact hkept.held (h.held claim hclaim) (hnew claim hclaim)
    . obtain ⟨job, hjob, position, copy, hget, hindex, hactive, htoken⟩ :=
        held_of_matchesOnce h.ledger hpoll honce hclaim
      exact ⟨copy, ⟨job, position, hjob, hget, hindex⟩, hactive, htoken⟩
  . rw [List.map_append, List.nodup_append]
    refine ⟨h.nodup, hexact.nodup, ?_⟩
    intro key hkey key' hkey' heq
    obtain ⟨claim, hclaim, rfl⟩ := List.mem_map.mp hkey
    rw [← heq] at hkey'
    exact hnew claim hclaim hkey'
  . intro claim hclaim
    simp only [List.flatMap_append, List.flatMap_singleton, StoreCall.claims, List.mem_append] at hclaim
    rw [List.map_append, List.mem_append]
    by_cases hkey : claim.key ∈ new.map (·.key)
    . exact .inl (.inr hkey)
    . rcases hclaim with hclaim | hclaim
      . rcases h.settled claim hclaim with hopen | hsettled
        . exact .inl (.inl hopen)
        . exact .inr (hkept.settled hsettled hkey)
      . exact absurd (List.mem_map_of_mem hclaim) hkey

end Poll

/--
The claims can be returned one after the other under the identifiers behind this one. Nothing follows
the last of them, which may fail.
-/
def Returns (c : Crypto) (mailer : Mailer) (origin : Identity) (identifier : UInt64)
    (claims : List DeliveryClaim) : Prop :=
  identifier.toNat + claims.length < 2 ^ 64 ∧
    ∀ (i : Nat) claim, claims.dropLast[i]? = some claim →
      returnable c mailer origin claim.item (UInt64.ofNat (identifier.toNat + i + 1))

theorem returns_of_sound {origin : Identity} {kinds : List JobKind} {identifier now : UInt64} {rng : Rng}
    {new claimed : List DeliveryClaim}
    (hsound : (StoreCall.poll s origin kinds identifier claimed).Sound c mailer)
    (hpoll : claimPollSnapshot origin.address.display origin.embeddedKey kinds now rng s =
      .ok (new, s'))
    : Returns c mailer origin identifier new := by
  obtain ⟨_, hlength, hreturns⟩ := hsound
  have hitems : List.Forall₂ (fun sel claim => s.items[sel.job.jobId]? = some claim.item)
      (snapshotOf origin.address.display origin.embeddedKey kinds s) new :=
    claimAll_items hpoll
  have heq := hitems.length_eq
  refine ⟨?_, ?_⟩
  . rw [← heq]
    exact hlength
  . intro i claim hclaim
    rw [List.getElem?_dropLast] at hclaim
    split at hclaim
    . next hlt =>
      obtain ⟨hi, rfl⟩ := List.getElem?_eq_some_iff.mp hclaim
      have hselected := hitems.get (heq ▸ hi) hi
      refine hreturns i _ _ ?_ hselected
      rw [List.getElem?_dropLast, if_pos]
      . exact List.getElem?_eq_getElem _
      . omega
    . cases hclaim

end Accounted

end Tith
