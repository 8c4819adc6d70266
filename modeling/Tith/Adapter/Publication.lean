import Tith.Adapter.Unblocked

/-!
This module contains the publication of inbound items as a whole: in every run whose interruptions are
harmless it happens at most once, in order and beside what others have in the directory, and never blocks
itself.
-/

namespace Tith

namespace Adapter

section Decidable

instance (site : Site) (s : Surface) : Decidable (Harmless site s) :=
  match h : s.attempt with
  | none => isTrue (by simp [Harmless, h])
  | some id => decidable_of_iff
      (s.settled id = true ∨ ∀ object ∈ s.exposed, object.kind = .companion ∧ object.name ∉ site.keptNames id)
      (by simp [Harmless, h])

instance (site : Site) (s : Program.Process Surface Op Op.Reply) (turn : Program.Turn Task Surroundings Move)
    : Decidable (Program.Admitted site.world s turn) :=
  match s, turn with
  | ⟨world, some (.call op _)⟩, .tick around =>
    inferInstanceAs (Decidable (op.interrupts (world.act op around).1 = true → Harmless site world))
  | ⟨world, some _⟩, .stop => inferInstanceAs (Decidable (Harmless site world))
  | ⟨_, some (.done _)⟩, .tick _ | ⟨_, none⟩, .tick _ | ⟨_, none⟩, .stop => isTrue trivial
  | ⟨_, none⟩, .start _ | ⟨_, some _⟩, .start _ | ⟨_, none⟩, .move _ | ⟨_, some _⟩, .move _ => isTrue trivial

instance (site : Site) (turns : List (Program.Turn Task Surroundings Move)) : Decidable (HarmlessRun site turns) :=
  go site.machine.init turns
where
  go (s : Program.Process Surface Op Op.Reply) (turns : List (Program.Turn Task Surroundings Move))
      : Decidable (site.machine.Along (Program.Admitted site.world) s turns) :=
    match turns with
    | [] => isTrue trivial
    | turn :: rest => @instDecidableAnd _ _ inferInstance (go (site.machine.step s turn).2 rest)

instance (inboundId : String) (events : List Event) : Decidable (Once inboundId events) :=
  inferInstanceAs (Decidable (_ ∧ _))

instance (c : Companions) : Decidable c.Distinct := inferInstanceAs (Decidable (_ ∧ (_ → _)))

instance (site : Site) (s : Surface) (inboundId : String) : Decidable (Roomy site s inboundId) :=
  inferInstanceAs (Decidable (_ ≤ _))

end Decidable

/--
Whatever the adapter is told to do and wherever it crashes, fails or finds a name taken, if that is never
between the moment at which a packet, a TIC, a notice or a companion under a name of its own becomes visible
and the ledger's record of the publication.
-/
theorem publication_at_most_once (site : Site) (turns : List (Program.Turn Task Surroundings Move))
    (hturns : HarmlessRun site turns)
    : let s := (site.machine.run site.machine.init turns).world
      (∀ id, Once id s.events) ∧ Ordered s.events ∧
      (∀ (name : String) (contents : List UInt8), s.unrelated[name]? = some contents →
        ∃ number, s.files[name]? = some ⟨number, none, contents⟩) ∧
      ∀ id, s.attempt ≠ some id → s.settled id = false → (site.companions id).Distinct → Roomy site s id →
        ¬site.Blocked s id := by
  intro s
  have halways : Always site s := always_run hturns
  refine ⟨halways.once, halways.ordered, halways.tidy.unrelated, ?_⟩
  intro id hattempt hsettled hdistinct hroom
  have hhidden : Hidden site id s.events := by
    have hitem := halways.items id hattempt
    unfold ItemRests at hitem
    rw [hsettled] at hitem
    exact hitem
  exact not_blocked halways.tidy hhidden hdistinct hroom

/-!
A distribution File from a hub, which is delivered with a warning because no one has signed it.
-/

def hub : Address := ⟨"f", 1, 2, 3, 0, by decide⟩

def areaFile : List UInt8 :=
  [65, 62, 96, 16] ++ "longfilename.zip".toUTF8.toList ++ [97, 1, 1, 107, 3, 108, 1, 65, 1, 7] ++
    "f#1:2/3".toUTF8.toList ++ [98, 1, 1, 113, 13, 7, 7] ++ "f#1:2/3".toUTF8.toList ++ [5, 1, 0, 120, 112, 7] ++
    "f#1:2/3".toUTF8.toList

def areaTic (name : String) : List UInt8 :=
  ("Area A\r\nOrigin 1:2/3@f\r\nFrom 1:2/3@f\r\nFile " ++ name ++ "\r\nLfile longfilename.zip\r\nSize 1\r\n" ++
    "Crc A505DF1B\r\nPath 1:2/3@f 0 x\r\nSeenby 1:2/3@f\r\n").toUTF8.toList

def hubSite : Site where
  configuration := {
    links := [⟨hub, hub, none, ""⟩]
    policy := {}
    unconvertible := .reject
    orphanNotice := none
    requestProcessor := false
    resolver := fun _ => none }
  conversion := {
    toLegacy := fun _ _ _ _ => .error ""
    packet := fun _ _ _ _ _ => .error ""
    toTic := fun _ _ name => .ok (areaTic name)
    areaTag := .ok
    notice := fun _ _ _ text _ => .ok text.toUTF8.toList }
  queue _ := {
    payloadHash := Vector.replicate 32 0
    peer := hub
    peerKey := Vector.replicate 32 0
    authentication := .unsigned
    payload := areaFile }

def running (operations : Nat) : List (Program.Turn Task Surroundings Move) :=
  List.replicate operations (.tick ⟨none, 0, 0, .notCommitted "", true⟩)

/--
The item is handled, and the adapter crashes after so many operations.
-/
def crashAfter (operations : Nat) : List (Program.Turn Task Surroundings Move) :=
  .start (.handle "I1" "") :: running operations ++ [.stop]

def claimAgain : List (Program.Turn Task Surroundings Move) :=
  .start .recover :: running 8 ++ .start (.handle "I1" "") :: running 40

theorem not_blocked_after_crash
    : let s := (hubSite.machine.run hubSite.machine.init (crashAfter 18)).world
      shownOf "I1" s.events ≠ [] ∧ Once "I1" s.events ∧ ¬hubSite.Blocked s "I1" := by
  have hturns : HarmlessRun hubSite (crashAfter 18) := by decide +kernel
  obtain ⟨honce, _, _, hblocked⟩ := publication_at_most_once hubSite (crashAfter 18) hturns
  refine ⟨by decide +kernel, honce "I1", hblocked "I1" ?_ ?_ ?_ ?_⟩
  . decide
  . decide +kernel
  . decide +kernel
  . decide +kernel

/--
A crash after the TIC has become visible and before the ledger says so: the next claim publishes another.
-/
theorem published_twice_after_crash
    : let s := (hubSite.machine.run hubSite.machine.init (crashAfter 20 ++ claimAgain)).world
      ((shownOf "I1" s.events).filter (·.kind.isMain)).map (·.name) = ["00000003.tic", "00000001.tic"] ∧
        ¬Once "I1" s.events := by
  decide +kernel

end Adapter

end Tith
