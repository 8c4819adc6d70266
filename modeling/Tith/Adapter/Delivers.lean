import Tith.Adapter.Conversion

/-!
This module contains the rules for what a plan comes to while the ledger does not fail.
-/

namespace Tith

namespace Adapter

/--
What the ledger says about an item, and the times that the clock may show.
-/
structure Circumstances where
  record : Option Ledger.Record
  orphan : Option Ledger.Orphan
  times : Set Int

/--
The replies of a ledger that does not fail, and of the clock.
-/
def Circumstances.Admits (circumstances : Circumstances) (op : Op) (reply : op.Reply) : Prop :=
  match op, reply with
  | .getRecord _, reply => reply = .ok circumstances.record
  | .getOrphan _, reply => reply = .ok circumstances.orphan
  | .nextIdentity, reply => ∃ identity, reply = .ok identity
  | .clock, now => now ∈ circumstances.times
  | _, _ => True

/--
The program ends without an error, and with a result that has the property.
-/
def Delivers (circumstances : Circumstances) (post : α → Prop) (m : Io ε α) : Prop :=
  Program.Guarantees circumstances.Admits (fun result => ∃ a, result = .ok a ∧ post a) m.run

section Rules

variable {ε α β : Type} {circumstances : Circumstances} {post : α → Prop}

@[simp]
theorem delivers_pure {a : α} : @Delivers _ ε circumstances post (pure a) ↔ post a := by
  constructor
  . rintro ⟨_, ⟨⟩, hpost⟩
    exact hpost
  . intro hpost
    exact ⟨a, rfl, hpost⟩

@[simp]
theorem delivers_bind {m : Io ε α} {next : α → Io ε β} {post : β → Prop}
    : Delivers circumstances post (m >>= next) ↔
        Delivers circumstances (fun a => Delivers circumstances post (next a)) m := by
  unfold Delivers
  rw [ExceptT.run_bind, Program.guarantees_bind]
  apply Program.guarantees_congr
  rintro (e | a)
  . constructor
    . rintro ⟨_, h, _⟩
      cases h
    . rintro ⟨_, h, _⟩
      cases h
  . constructor
    . intro h
      exact ⟨a, rfl, h⟩
    . rintro ⟨_, ⟨⟩, h⟩
      exact h

theorem delivers_congr {m : Io ε α} {post' : α → Prop} (h : ∀ a, post a ↔ post' a)
    : Delivers circumstances post m ↔ Delivers circumstances post' m := by
  rw [funext fun a => propext (h a)]

@[simp]
theorem delivers_done {result : Except ε α}
    : Delivers circumstances post (attempt (.done result)) ↔ ∃ a, result = .ok a ∧ post a := Iff.rfl

@[simp]
theorem delivers_clock {post : Int → Prop}
    : @Delivers _ ε circumstances post (liftM (issue .clock)) ↔ ∀ now ∈ circumstances.times, post now := by
  apply forall_congr'
  intro now
  apply imp_congr_right
  intro _
  constructor
  . rintro ⟨_, ⟨⟩, hpost⟩
    exact hpost
  . intro hpost
    exact ⟨now, rfl, hpost⟩

@[simp]
theorem delivers_getRecord {inboundId : String} {post : Option Ledger.Record → Prop}
    : Delivers circumstances post (attempt (issue (.getRecord inboundId))) ↔ post circumstances.record := by
  constructor
  . intro h
    obtain ⟨_, ⟨⟩, hpost⟩ := h (.ok circumstances.record) rfl
    exact hpost
  . rintro hpost _ rfl
    exact ⟨_, rfl, hpost⟩

@[simp]
theorem delivers_getOrphan {inboundId : String} {post : Option Ledger.Orphan → Prop}
    : Delivers circumstances post (attempt (issue (.getOrphan inboundId))) ↔ post circumstances.orphan := by
  constructor
  . intro h
    obtain ⟨_, ⟨⟩, hpost⟩ := h (.ok circumstances.orphan) rfl
    exact hpost
  . rintro hpost _ rfl
    exact ⟨_, rfl, hpost⟩

@[simp]
theorem delivers_nextIdentity {post : Nat → Prop}
    : Delivers circumstances post nextIdentity ↔ ∀ identity, post identity := by
  constructor
  . intro h identity
    obtain ⟨_, ⟨⟩, hpost⟩ := h (.ok identity) ⟨identity, rfl⟩
    exact hpost
  . rintro hpost _ ⟨identity, rfl⟩
    exact ⟨identity, rfl, hpost identity⟩

@[simp]
theorem delivers_converted {result : Except String α}
    : Delivers circumstances post (converted result) ↔ ∃ a, result = .ok a ∧ post a := by
  simp [converted, Except.mapError_eq_ok]

end Rules

end Adapter

end Tith
