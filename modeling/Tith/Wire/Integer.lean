import Mathlib

/-!
This module contains the canonical integers of the wire: groups of seven bits, the most significant
group first, every byte but the last with its high bit set.
-/

namespace Tith

inductive IntegerError where
  | empty
  | nonCanonical
  | overflow
  | unterminated
  | trailingBytes
  deriving DecidableEq, Repr

def maxU64Bytes : Nat := 10

def encodeU64 (value : UInt64) : List UInt8 :=
  (go maxU64Bytes value).mapIdx (fun index group => if index = 0 then group else group ||| 0x80)
    |>.reverse
where
  /-- The groups in the order the loop fills `reverse`; the array has room for `slots` more. -/
  go (slots : Nat) (value : UInt64) : List UInt8 :=
    match slots with
    | 0 => []
    | slots + 1 =>
      let group := (value &&& 0x7f).toUInt8
      let value := value >>> 7
      if value = 0 then [group] else group :: go slots value

theorem length_encodeU64_go_le (slots : Nat) (value : UInt64)
    : (encodeU64.go slots value).length ≤ slots := by
  induction slots generalizing value with
  | zero => simp [encodeU64.go]
  | succ slots ih =>
    unfold encodeU64.go
    dsimp only
    split
    . simp
    . rw [List.length_cons]
      have hle := ih (value >>> 7)
      omega

theorem length_encodeU64_le (value : UInt64) : (encodeU64 value).length ≤ 10 := by
  unfold encodeU64
  rw [List.length_reverse, List.length_mapIdx]
  apply length_encodeU64_go_le

def checkedMul (a b : UInt64) : Option UInt64 :=
  if a.toNat * b.toNat < 2 ^ 64 then some (a * b) else none

def checkedAdd (a b : UInt64) : Option UInt64 :=
  if a.toNat + b.toNat < 2 ^ 64 then some (a + b) else none

def decodeU64Prefix (bytes : List UInt8) : Except IntegerError (UInt64 × Nat) :=
  match bytes with
  | [] => .error .empty
  | first :: _ => if first = 0x80 then .error .nonCanonical else go bytes 0 0
where
  go (bytes : List UInt8) (index : Nat) (value : UInt64) : Except IntegerError (UInt64 × Nat) :=
    match bytes with
    | [] => .error .unterminated
    | byte :: rest =>
      match checkedMul value 128 with
      | none => .error .overflow
      | some value =>
        let value := value + (byte &&& 0x7f).toUInt64
        if byte &&& 0x80 = 0 then .ok (value, index + 1) else go rest (index + 1) value

def decodeU64 (bytes : List UInt8) : Except IntegerError UInt64 :=
  match decodeU64Prefix bytes with
  | .error e => .error e
  | .ok (value, used) => if used = bytes.length then .ok value else .error .trailingBytes

/--
The signed value behind the zigzag mapping: even codes are the nonnegative values. The half of a
word always fits a signed word.
-/
def decodeI64 (bytes : List UInt8) : Except IntegerError Int :=
  match decodeU64 bytes with
  | .error e => .error e
  | .ok mapped =>
    let half : Int := mapped.toNat / 2
    if mapped &&& 1 = 0 then .ok half else .ok (-half - 1)

-- The absolute value of the least signed word still fits an unsigned word.
def encodeI64 (value : Int64) : List UInt8 :=
  let mapped :=
    if 0 ≤ value.toInt then
      value.toUInt64 * 2
    else
      (UInt64.ofNat value.toInt.natAbs - 1) * 2 + 1
  encodeU64 mapped

example : encodeU64 16384 = [0x81, 0x80, 0] := by decide
example : decodeU64 (encodeU64 0xffffffffffffffff) = .ok 0xffffffffffffffff := by decide

end Tith
