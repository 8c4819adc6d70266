import Tith.Lib.Bytes
import Tith.Lib.StateExcept

/-!
This module contains decoders of byte strings, which take a part of the input and leave the rest, and the rules
for decoders that read back what an encoder has written, whatever follows it.
-/

/--
A decoder fails or returns a value and the bytes that it has not taken.
-/
abbrev Decoder (ε : Type) (α : Type) := StateT (List UInt8) (Except ε) α

namespace Decoder

variable {ε α β : Type}

def fail (e : ε) : Decoder ε α := fun _ => .error e

def byte (e : ε) : Decoder ε UInt8 := fun input =>
  match input with
  | [] => .error e
  | b :: rest => .ok (b, rest)

def fixed (e : ε) (length : Nat) : Decoder ε (List UInt8) := fun input =>
  if length ≤ input.length then .ok (input.take length, input.drop length) else .error e

def vector (e : ε) (length : Nat) : Decoder ε (Vector UInt8 length) := fun input =>
  if h : length ≤ input.length then
    .ok (⟨(input.take length).toArray, by simp [h]⟩, input.drop length)
  else
    .error e

def natOf (bytes : List UInt8) : Nat := bytes.foldl (fun n b => n * 256 + b.toNat) 0

def word (e : ε) : Decoder ε UInt64 := do
  let bytes ← fixed e 8
  pure (UInt64.ofNat (natOf bytes))

def littleWord (e : ε) : Decoder ε UInt64 := do
  let bytes ← fixed e 8
  pure (UInt64.ofNat (natOf bytes.reverse))

def littleWord32 (e : ε) : Decoder ε UInt32 := do
  let bytes ← fixed e 4
  pure (UInt32.ofNat (natOf bytes.reverse))

def code (e : ε) (ofCode : UInt8 → Option α) : Decoder ε α := do
  let b ← byte e
  match ofCode b with
  | some a => pure a
  | none => fail e

def text (e : ε) (bytes : Decoder ε (List UInt8)) : Decoder ε String := do
  let b ← bytes
  match Bytes.toString? b with
  | some s => pure s
  | none => fail e

/--
A value behind a byte that says whether there is one.
-/
def option (e : ε) (value : Decoder ε α) : Decoder ε (Option α) := do
  let b ← byte e
  if b = 0 then
    pure none
  else if b = 1 then do
    let a ← value
    pure (some a)
  else
    fail e

def many (value : Decoder ε α) : Nat → Decoder ε (List α)
  | 0 => pure []
  | count + 1 => do
    let a ← value
    let rest ← many value count
    pure (a :: rest)

/--
A value that older records do not have at their end.
-/
def trailing (default : α) (value : Decoder ε α) : Decoder ε α := fun input =>
  if input = [] then .ok (default, []) else value input

/--
The value of an input that has to be taken whole.
-/
def whole (e : ε) (value : Decoder ε α) (input : List UInt8) : Except ε α :=
  match value input with
  | .error e => .error e
  | .ok (a, rest) => if rest = [] then .ok a else .error e

/--
The decoder takes exactly these bytes, and returns the value.
-/
def Reads (d : Decoder ε α) (bytes : List UInt8) (a : α) : Prop :=
  ∀ rest, d (bytes ++ rest) = .ok (a, rest)

theorem reads_pure (a : α) : Reads (pure a : Decoder ε α) [] a := fun _ => rfl

theorem Reads.bind {d : Decoder ε α} {f : α → Decoder ε β} {bytes bytes' : List UInt8} {a : α} {b : β}
    (h : Reads d bytes a) (h' : Reads (f a) bytes' b)
    : Reads (d >>= f) (bytes ++ bytes') b := by
  intro rest
  rw [List.append_assoc, StateExcept.bind_of_ok (h _)]
  exact h' rest

theorem Reads.last {d : Decoder ε α} {f : α → Decoder ε β} {bytes : List UInt8} {a : α} {b : β}
    (h : Reads d bytes a) (h' : Reads (f a) [] b)
    : Reads (d >>= f) bytes b := by
  have hbind := h.bind h'
  rwa [List.append_nil] at hbind

theorem reads_byte (e : ε) (b : UInt8) : Reads (byte e) [b] b := fun _ => rfl

theorem reads_fixed (e : ε) (bytes : List UInt8) : Reads (fixed e bytes.length) bytes bytes := by
  intro rest
  unfold fixed
  rw [if_pos (by simp)]
  simp

theorem reads_vector (e : ε) (bytes : Vector UInt8 n) : Reads (vector e n) bytes.toList bytes := by
  intro rest
  have hlength : bytes.toList.length = n := bytes.length_toList
  unfold vector
  rw [dif_pos (by simp)]
  have htake : (bytes.toList ++ rest).take n = bytes.toList := List.take_left' hlength
  have hdrop : (bytes.toList ++ rest).drop n = rest := List.drop_left' hlength
  congr 2
  apply Vector.toArray_inj.mp
  change ((bytes.toList ++ rest).take n).toArray = bytes.toArray
  rw [htake]
  exact Array.toArray_toList

theorem natOf_ofWord (w : UInt64) : natOf (Bytes.ofWord w) = w.toNat := by
  have hw := w.toNat_lt
  simp [natOf, Bytes.ofWord, UInt64.toNat_toUInt8, UInt64.toNat_shiftRight, Nat.shiftRight_eq_div_pow]
  omega

theorem reads_word (e : ε) (w : UInt64) : Reads (word e) (Bytes.ofWord w) w := by
  apply (reads_fixed e (Bytes.ofWord w)).last
  rw [natOf_ofWord, UInt64.ofNat_toNat]
  exact reads_pure w

theorem reads_littleWord (e : ε) (w : UInt64) : Reads (littleWord e) (Bytes.ofLittleWord w) w := by
  apply (reads_fixed e (Bytes.ofLittleWord w)).last
  rw [Bytes.ofLittleWord, List.reverse_reverse, natOf_ofWord, UInt64.ofNat_toNat]
  exact reads_pure w

theorem natOf_ofLittleWord32 (w : UInt32) : natOf (Bytes.ofLittleWord32 w).reverse = w.toNat := by
  have hw := w.toNat_lt
  simp [natOf, Bytes.ofLittleWord32, UInt32.toNat_toUInt8, UInt32.toNat_shiftRight,
    Nat.shiftRight_eq_div_pow]
  omega

theorem reads_littleWord32 (e : ε) (w : UInt32) : Reads (littleWord32 e) (Bytes.ofLittleWord32 w) w := by
  apply (reads_fixed e (Bytes.ofLittleWord32 w)).last
  rw [natOf_ofLittleWord32, UInt32.ofNat_toNat]
  exact reads_pure w

theorem reads_code (e : ε) {ofCode : UInt8 → Option α} {b : UInt8} {a : α} (h : ofCode b = some a)
    : Reads (code e ofCode) [b] a := by
  intro rest
  unfold code
  rw [StateExcept.bind_of_ok (reads_byte e b rest), h]
  rfl

theorem reads_text (e : ε) {d : Decoder ε (List UInt8)} {bytes : List UInt8} {s : String}
    (h : Reads d bytes (Bytes.ofString s))
    : Reads (text e d) bytes s := by
  apply h.last
  rw [Bytes.toString?_ofString]
  exact reads_pure s

theorem reads_option_none (e : ε) (d : Decoder ε α) : Reads (option e d) [0] none := fun _ => rfl

theorem reads_option_some (e : ε) {d : Decoder ε α} {bytes : List UInt8} {a : α} (h : Reads d bytes a)
    : Reads (option e d) (1 :: bytes) (some a) := by
  have hvalue : Reads (do
      let a ← d
      pure (some a)) bytes (some a) := h.last (reads_pure _)
  exact (reads_byte e 1).bind hvalue

theorem reads_many {d : Decoder ε α} {put : α → List UInt8} {l : List α} (h : ∀ a ∈ l, Reads d (put a) a)
    : Reads (many d l.length) (l.flatMap put) l := by
  induction l with
  | nil => exact reads_pure []
  | cons a l ih =>
    rw [List.flatMap_cons]
    apply (h a (by simp)).bind
    exact (ih (fun b hb => h b (by simp [hb]))).last (reads_pure _)

theorem reads_trailing {d : Decoder ε α} {bytes : List UInt8} {a : α} (default : α) (h : Reads d bytes a)
    (hne : bytes ≠ [])
    : Reads (trailing default d) bytes a := by
  intro rest
  unfold trailing
  rw [if_neg (by simp [hne])]
  exact h rest

theorem whole_of_reads (e : ε) {d : Decoder ε α} {bytes : List UInt8} {a : α} (h : Reads d bytes a)
    : whole e d bytes = .ok a := by
  have hrun := h []
  rw [List.append_nil] at hrun
  unfold whole
  rw [hrun]
  rfl

theorem whole_append_of_reads (e : ε) {d : Decoder ε α} {bytes extra : List UInt8} {a : α} (h : Reads d bytes a)
    (hextra : extra ≠ [])
    : whole e d (bytes ++ extra) = .error e := by
  unfold whole
  rw [h extra]
  exact if_neg hextra

end Decoder
