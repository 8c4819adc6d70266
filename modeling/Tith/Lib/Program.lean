import Mathlib.Logic.Relation
import Tith.Lib.Machine

/-!
This module contains programs that act on a world one operation at a time, while others move in the
same world and a crash may discard the program between any two operations, and the rules that prove
what holds at every point of every such run.
-/

/--
A program that issues operations of type `ω` and goes on with their replies.
-/
inductive Program (ω : Type) (reply : ω → Type) (α : Type) where
  | done (a : α)
  | call (op : ω) (next : reply op → Program ω reply α)

namespace Program

variable {ω : Type} {reply : ω → Type} {α β : Type}

def bind : Program ω reply α → (α → Program ω reply β) → Program ω reply β
  | done a, f => f a
  | call op next, f => call op (fun r => bind (next r) f)

instance : Monad (Program ω reply) where
  pure := done
  bind := bind

def perform (op : ω) : Program ω reply (reply op) := call op done

/--
The run of a program that no one interrupts, in surroundings that stay the same.
-/
def evaluate {σ φ : Type} (act : σ → (op : ω) → φ → reply op × σ) (f : φ) : Program ω reply α → σ → α × σ
  | done a, s => (a, s)
  | call op next, s => evaluate act f (next (act s op f).1) (act s op f).2

theorem evaluate_bind {σ φ : Type} {act : σ → (op : ω) → φ → reply op × σ} {f : φ} {p : Program ω reply α}
    {next : α → Program ω reply β} {s : σ}
    : evaluate act f (p >>= next) s =
        evaluate act f (next (evaluate act f p s).1) (evaluate act f p s).2 := by
  induction p generalizing s with
  | done a => rfl
  | call op rest ih => exact ih _

/--
Whatever the program returns has the property, if every operation replies as `admits` says.
-/
def Guarantees (admits : (op : ω) → reply op → Prop) (post : α → Prop) : Program ω reply α → Prop
  | done a => post a
  | call op next => ∀ r, admits op r → Guarantees admits post (next r)

section Guarantees

variable {admits : (op : ω) → reply op → Prop}

theorem guarantees_bind {p : Program ω reply α} {next : α → Program ω reply β} {post : β → Prop}
    : Guarantees admits post (p >>= next) ↔ Guarantees admits (fun a => Guarantees admits post (next a)) p := by
  induction p with
  | done a => rfl
  | call op rest ih => exact forall_congr' fun r => imp_congr_right fun _ => ih r

theorem guarantees_congr {p : Program ω reply α} {post post' : α → Prop} (h : ∀ a, post a ↔ post' a)
    : Guarantees admits post p ↔ Guarantees admits post' p := by
  rw [funext fun a => propext (h a)]

end Guarantees

/--
A world: what an operation does in it, how others move in it, which operations may be issued and
where a crash may happen. The surroundings `φ` of an operation decide what it leaves open.
-/
structure World (σ : Type) (ω : Type) (reply : ω → Type) (φ : Type) where
  act : σ → (op : ω) → φ → reply op × σ
  moves : σ → σ → Prop
  allowed : σ → ω → φ → Prop
  mayStop : σ → Prop

namespace World

variable {σ φ : Type} (w : World σ ω reply φ)

def Later : σ → σ → Prop := Relation.ReflTransGen w.moves

def Stable (P : σ → Prop) : Prop := ∀ s s', w.moves s s' → P s → P s'

variable {w}

theorem Stable.later {P : σ → Prop} (h : w.Stable P) {s s' : σ} (hmoves : w.Later s s') (hs : P s) : P s' := by
  induction hmoves with
  | refl => exact hs
  | tail _ hmove ih => exact h _ _ hmove ih

variable (w)

/--
From `s` the program keeps `always` at every point, leaves `resumable` behind wherever it may be
stopped, and ends in `post`.
-/
def Upholds (always resumable : σ → Prop) (post : α → σ → Prop) : Program ω reply α → σ → Prop
  | done a, s => ∀ s', w.Later s s' → always s' ∧ post a s'
  | call op next, s => ∀ s', w.Later s s' →
      always s' ∧ (w.mayStop s' → resumable s') ∧
      ∀ f, w.allowed s' op f → Upholds always resumable post (next (w.act s' op f).1) (w.act s' op f).2

def Triple (always resumable : σ → Prop) (pre : σ → Prop) (p : Program ω reply α) (post : α → σ → Prop)
    : Prop :=
  ∀ s, pre s → w.Upholds always resumable post p s

variable {w} {always resumable : σ → Prop} {pre : σ → Prop} {post : α → σ → Prop}

theorem Upholds.later {p : Program ω reply α} {s s' : σ} (h : w.Upholds always resumable post p s)
    (hmoves : w.Later s s')
    : w.Upholds always resumable post p s' := by
  cases p with
  | done a =>
    intro s'' hmoves'
    exact h s'' (hmoves.trans hmoves')
  | call op next =>
    intro s'' hmoves'
    exact h s'' (hmoves.trans hmoves')

theorem Upholds.now {p : Program ω reply α} {s : σ} (h : w.Upholds always resumable post p s) : always s := by
  cases p with
  | done a => exact (h s .refl).1
  | call op next => exact (h s .refl).1

theorem Upholds.mono {p : Program ω reply α} {s : σ} {post' : α → σ → Prop}
    (h : w.Upholds always resumable post p s) (himp : ∀ a s, post a s → post' a s)
    : w.Upholds always resumable post' p s := by
  induction p generalizing s with
  | done a =>
    intro s' hmoves
    exact ⟨(h s' hmoves).1, himp a s' (h s' hmoves).2⟩
  | call op next ih =>
    intro s' hmoves
    obtain ⟨halways, hstop, hnext⟩ := h s' hmoves
    refine ⟨halways, hstop, ?_⟩
    intro f hallowed
    exact ih _ (hnext f hallowed)

theorem Upholds.evaluate {p : Program ω reply α} {s : σ} {f : φ} (h : w.Upholds always resumable post p s)
    (hallowed : ∀ s op, w.allowed s op f)
    : post (p.evaluate w.act f s).1 (p.evaluate w.act f s).2 := by
  induction p generalizing s with
  | done a => exact (h s .refl).2
  | call op next ih => exact ih _ ((h s .refl).2.2 f (hallowed s op))

theorem Upholds.bind {p : Program ω reply α} {f : α → Program ω reply β} {mid : α → σ → Prop}
    {post : β → σ → Prop} {s : σ} (h : w.Upholds always resumable mid p s)
    (hf : ∀ a s, mid a s → w.Upholds always resumable post (f a) s)
    : w.Upholds always resumable post (p >>= f) s := by
  induction p generalizing s with
  | done a => exact hf a s (h s .refl).2
  | call op next ih =>
    intro s' hmoves
    obtain ⟨halways, hstop, hnext⟩ := h s' hmoves
    refine ⟨halways, hstop, ?_⟩
    intro e hallowed
    exact ih _ (hnext e hallowed)

theorem Triple.bind {p : Program ω reply α} {f : α → Program ω reply β} {mid : α → σ → Prop}
    {post : β → σ → Prop} (h : w.Triple always resumable pre p mid)
    (hf : ∀ a, w.Triple always resumable (mid a) (f a) post)
    : w.Triple always resumable pre (p >>= f) post := by
  intro s hs
  exact (h s hs).bind hf

theorem Triple.pure {a : α} (hstable : w.Stable pre) (halways : ∀ s, pre s → always s)
    (hpost : ∀ s, pre s → post a s)
    : w.Triple always resumable pre (pure a) post := by
  intro s hs s' hmoves
  have hs' := hstable.later hmoves hs
  exact ⟨halways s' hs', hpost s' hs'⟩

theorem Triple.mono {p : Program ω reply α} {pre' : σ → Prop} {post' : α → σ → Prop}
    (h : w.Triple always resumable pre p post) (hpre : ∀ s, pre' s → pre s)
    (hpost : ∀ a s, post a s → post' a s)
    : w.Triple always resumable pre' p post' := by
  intro s hs
  exact (h s (hpre s hs)).mono hpost

theorem Triple.perform {op : ω} {post : reply op → σ → Prop} (hstable : w.Stable pre)
    (halways : ∀ s, pre s → always s) (hstop : ∀ s, pre s → w.mayStop s → resumable s)
    (hact : ∀ s f, pre s → w.allowed s op f → post (w.act s op f).1 (w.act s op f).2)
    (hpost : ∀ r, w.Stable (post r)) (hpostAlways : ∀ r s, post r s → always s)
    : w.Triple always resumable pre (perform op) post := by
  intro s hs s' hmoves
  have hs' := hstable.later hmoves hs
  refine ⟨halways s' hs', hstop s' hs', ?_⟩
  intro f hallowed s'' hmoves'
  have hs'' := (hpost _).later hmoves' (hact s' f hs' hallowed)
  exact ⟨hpostAlways _ s'' hs'', hs''⟩

end World

/-!
A process in a world: it runs one program after the other, and a crash discards the one it runs.
-/

/--
What happens to a process: it is given a task, it issues the next operation of its program, it is
stopped, or others move.
-/
inductive Turn (τ φ μ : Type) where
  | start (task : τ)
  | tick (surroundings : φ)
  | stop
  | move (by_others : μ)

structure Process (σ : Type) (ω : Type) (reply : ω → Type) where
  world : σ
  running : Option (Program ω reply Unit)

/--
The tasks of a process, what is set up for each, and the moves of the others.
-/
structure Tasks (σ : Type) (ω : Type) (reply : ω → Type) (τ μ : Type) where
  program : τ → Program ω reply Unit
  begin : τ → σ → σ
  finish : σ → σ
  moved : μ → σ → σ

section Process

variable {σ φ τ μ : Type} (w : World σ ω reply φ) (tasks : Tasks σ ω reply τ μ)

def advance (s : Process σ ω reply) (turn : Turn τ φ μ) : Process σ ω reply :=
  match turn with
  | .start task =>
    match s.running with
    | none => ⟨tasks.begin task s.world, some (tasks.program task)⟩
    | some _ => s
  | .tick surroundings =>
    match s.running with
    | none => s
    | some (.done _) => ⟨tasks.finish s.world, none⟩
    | some (.call op next) =>
      let (r, world) := w.act s.world op surroundings
      ⟨world, some (next r)⟩
  | .stop => ⟨tasks.finish s.world, none⟩
  | .move by_others => { s with world := tasks.moved by_others s.world }

/--
The turns whose outcome the rules answer for.
-/
def Admitted (s : Process σ ω reply) (turn : Turn τ φ μ) : Prop :=
  match turn, s.running with
  | .tick surroundings, some (.call op _) => w.allowed s.world op surroundings
  | .stop, some _ => w.mayStop s.world
  | _, _ => True

def machine (init : σ) : Machine (Process σ ω reply) (Turn τ φ μ) Unit where
  init := ⟨init, none⟩
  step s turn := ((), advance w tasks s turn)

/--
What holds of a process between two turns.
-/
def Sound (always resumable : σ → Prop) (s : Process σ ω reply) : Prop :=
  match s.running with
  | none => resumable s.world
  | some p => w.Upholds always resumable (fun _ => resumable) p s.world

variable {w tasks} {always resumable : σ → Prop}

theorem sound_advance (hstable : w.Stable resumable)
    (hmoved : ∀ m s, w.moves s (tasks.moved m s))
    (hfinish : ∀ s, resumable s → resumable (tasks.finish s))
    (hprograms : ∀ task s, resumable s →
      w.Upholds always resumable (fun _ => resumable) (tasks.program task) (tasks.begin task s))
    {s : Process σ ω reply} {turn : Turn τ φ μ} (hs : Sound w always resumable s) (hturn : Admitted w s turn)
    : Sound w always resumable (advance w tasks s turn) := by
  obtain ⟨world, running⟩ := s
  cases turn with
  | start task =>
    cases running with
    | none => exact hprograms task world hs
    | some p => exact hs
  | tick surroundings =>
    match running with
    | none => exact hs
    | some (.done a) => exact hfinish _ (hs world .refl).2
    | some (.call op next) => exact (hs world .refl).2.2 surroundings hturn
  | stop =>
    match running with
    | none => exact hfinish _ hs
    | some (.done a) => exact hfinish _ (hs world .refl).2
    | some (.call op next) => exact hfinish _ ((hs world .refl).2.1 hturn)
  | move by_others =>
    have hmove : w.Later world (tasks.moved by_others world) := .single (hmoved by_others world)
    cases running with
    | none => exact hstable.later hmove hs
    | some p => exact World.Upholds.later hs hmove

/--
Programs that are right one by one are right in every run that gives the process one after the
other, with crashes and restarts.
-/
theorem sound_run (hstable : w.Stable resumable)
    (hmoved : ∀ m s, w.moves s (tasks.moved m s))
    (hfinish : ∀ s, resumable s → resumable (tasks.finish s))
    (hprograms : ∀ task s, resumable s →
      w.Upholds always resumable (fun _ => resumable) (tasks.program task) (tasks.begin task s))
    {init : σ} (hinit : resumable init) {turns : List (Turn τ φ μ)}
    (hturns : (machine w tasks init).Along (Admitted w) (machine w tasks init).init turns)
    : Sound w always resumable ((machine w tasks init).run (machine w tasks init).init turns) := by
  have hstart : Sound w always resumable ⟨init, none⟩ := hinit
  apply Machine.invariant_along (Admitted w) (Sound w always resumable) _ hstart hturns
  intro s turn hs hturn
  exact sound_advance hstable hmoved hfinish hprograms hs hturn

end Process

end Program
