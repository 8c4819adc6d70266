import Mathlib

/-!
This module contains sources of bytes that are read in pieces. The reader only says how much it takes at most,
and what it gets depends on what has arrived; what it has in the end does not.
-/

/--
What a source does next. A piece is never empty, as an empty one stands for the end.
-/
inductive Arrival (α : Type u) where
  | piece (first : α) (rest : List α)
  | interrupted

abbrev Source (α : Type u) := List (Arrival α)

namespace Source

variable {α : Type u}

def Arrival.bytes (arrival : Arrival α) : List α :=
  match arrival with
  | .piece first rest => first :: rest
  | .interrupted => []

def bytes (source : Source α) : List α := source.flatMap Arrival.bytes

/--
One read into a buffer with this much room, which is tried again when it is interrupted.
-/
def read (room : Nat) (source : Source α) : List α × Source α :=
  match source with
  | [] => ([], [])
  | .interrupted :: source => read room source
  | .piece first rest :: source =>
    match (first :: rest).drop room with
    | [] => (first :: rest, source)
    | next :: later => ((first :: rest).take room, .piece next later :: source)

@[simp]
theorem bytes_nil : bytes ([] : Source α) = [] := rfl

@[simp]
theorem bytes_interrupted (source : Source α) : bytes (.interrupted :: source) = bytes source := rfl

@[simp]
theorem bytes_piece (first : α) (rest : List α) (source : Source α)
    : bytes (.piece first rest :: source) = first :: (rest ++ bytes source) := rfl

theorem read_append (room : Nat) (source : Source α)
    : (source.read room).1 ++ (source.read room).2.bytes = source.bytes := by
  fun_induction read room source with
  | case1 => rfl
  | case2 source ih => exact ih
  | case3 => rfl
  | case4 first rest source next later hdrop =>
    rw [bytes_piece, bytes_piece, ← List.cons_append, ← List.cons_append, ← hdrop, ← List.append_assoc,
      List.take_append_drop]

theorem length_read_le (room : Nat) (source : Source α) : (source.read room).1.length ≤ room := by
  fun_induction read room source with
  | case1 => exact Nat.zero_le _
  | case2 source ih => exact ih
  | case3 first rest source hdrop =>
    rw [List.drop_eq_nil_iff] at hdrop
    exact hdrop
  | case4 => exact List.length_take_le _ _

theorem read_eq_nil {room : Nat} (hroom : 0 < room) (source : Source α)
    : (source.read room).1 = [] ↔ source.bytes = [] := by
  fun_induction read room source with
  | case1 => simp
  | case2 source ih => exact ih
  | case3 => simp
  | case4 first rest source next later hdrop =>
    obtain ⟨room, rfl⟩ := Nat.exists_eq_succ_of_ne_zero (by omega : room ≠ 0)
    simp

/--
The source behind the next `n` bytes, of which it has perhaps fewer.
-/
structure Filled (α : Type u) where
  taken : List α
  missing : Nat
  source : Source α

/--
Reads until `n` bytes are there or the source ends. The room that is offered may depend on what is there.
-/
def fill (room : List α → ℕ+) (taken : List α) (n : Nat) (source : Source α) : Filled α :=
  if _hn : n = 0 then
    ⟨taken, 0, source⟩
  else
    let taking := source.read (min n (room taken))
    if _h : taking.1 = [] then
      ⟨taken, n, taking.2⟩
    else
      fill room (taken ++ taking.1) (n - taking.1.length) taking.2
termination_by n
decreasing_by
  have hpos := List.length_pos_iff.mpr _h
  exact Nat.sub_lt (Nat.pos_of_ne_zero _hn) hpos

theorem fill_spec (room : List α → ℕ+) (taken : List α) (n : Nat) (source : Source α)
    : (fill room taken n source).taken = taken ++ source.bytes.take n ∧
        (fill room taken n source).missing = n - source.bytes.length ∧
        (fill room taken n source).source.bytes = source.bytes.drop n := by
  fun_induction fill room taken n source with
  | case1 => simp
  | case2 taken n source hn taking hnil =>
    have hroom : 0 < min n (room taken : Nat) := lt_min (Nat.pos_of_ne_zero hn) (room taken).pos
    have happend : taking.1 ++ taking.2.bytes = source.bytes := read_append _ source
    have hend : source.bytes = [] := (read_eq_nil hroom source).mp hnil
    rw [hnil, hend] at happend
    simp [hend, show taking.2.bytes = [] from happend]
  | case3 taken n source hn taking hne ih =>
    have happend : taking.1 ++ taking.2.bytes = source.bytes := read_append _ source
    have hle : taking.1.length ≤ n := (length_read_le _ source).trans (Nat.min_le_left _ _)
    obtain ⟨htaken, hmissing, hrest⟩ := ih
    refine ⟨?_, ?_, ?_⟩
    . rw [htaken, ← happend, List.take_append, List.take_of_length_le hle, List.append_assoc]
    . rw [hmissing, ← happend, List.length_append]
      omega
    . rw [hrest, ← happend, List.drop_append, List.drop_eq_nil_of_le hle, List.nil_append]

end Source
