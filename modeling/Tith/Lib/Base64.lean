import Mathlib

/-!
This module contains the base 64 encoding of RFC 4648 without padding.
-/

namespace Rfc4648

def alphabet : List Char := "ABCDEFGHIJKLMNOPQRSTUVWXYZabcdefghijklmnopqrstuvwxyz0123456789+/".toList

def digit (n : Nat) : Char := alphabet.getD n '='

def valueOf (c : Char) : Option Nat := alphabet.findIdx? (· = c)

def encode (bytes : List UInt8) : List Char :=
  match bytes with
  | a :: b :: c :: rest =>
    digit (a.toNat / 4) :: digit (a.toNat % 4 * 16 + b.toNat / 16) ::
      digit (b.toNat % 16 * 4 + c.toNat / 64) :: digit (c.toNat % 64) :: encode rest
  | [a, b] =>
    [digit (a.toNat / 4), digit (a.toNat % 4 * 16 + b.toNat / 16), digit (b.toNat % 16 * 4)]
  | [a] => [digit (a.toNat / 4), digit (a.toNat % 4 * 16)]
  | [] => []

/--
The bits that do not belong to a byte have to be zero.
-/
def decode (text : List Char) : Option (List UInt8) :=
  match text with
  | w :: x :: y :: z :: rest => do
    let w ← valueOf w
    let x ← valueOf x
    let y ← valueOf y
    let z ← valueOf z
    let rest ← decode rest
    some (UInt8.ofNat (w * 4 + x / 16) :: UInt8.ofNat (x % 16 * 16 + y / 4) ::
      UInt8.ofNat (y % 4 * 64 + z) :: rest)
  | [w, x, y] => do
    let w ← valueOf w
    let x ← valueOf x
    let y ← valueOf y
    if y % 4 ≠ 0 then
      none
    else
      some [UInt8.ofNat (w * 4 + x / 16), UInt8.ofNat (x % 16 * 16 + y / 4)]
  | [w, x] => do
    let w ← valueOf w
    let x ← valueOf x
    if x % 16 ≠ 0 then none else some [UInt8.ofNat (w * 4 + x / 16)]
  | [_] => none
  | [] => some []

theorem valueOf_digit {n : Nat} (h : n < 64) : valueOf (digit n) = some n := by
  have hall : ∀ n : Fin 64, valueOf (digit n) = some n.val := by decide +kernel
  exact hall ⟨n, h⟩

theorem length_encode (bytes : List UInt8) : (encode bytes).length = (4 * bytes.length + 2) / 3 := by
  fun_induction encode bytes with
  | case1 a b c rest ih =>
    simp only [List.length_cons, ih]
    omega
  | case2 a b => simp
  | case3 a => simp
  | case4 => rfl

theorem ofNat_of_eq {n : Nat} {a : UInt8} (h : n = a.toNat) : UInt8.ofNat n = a := by
  rw [h]
  exact UInt8.ofNat_toNat

theorem decode_encode (bytes : List UInt8) : decode (encode bytes) = some bytes := by
  fun_induction encode bytes with
  | case1 a b c rest ih =>
    have ha := a.toNat_lt
    have hb := b.toNat_lt
    have hc := c.toNat_lt
    simp only [decode, valueOf_digit (show a.toNat / 4 < 64 by omega),
      valueOf_digit (show a.toNat % 4 * 16 + b.toNat / 16 < 64 by omega),
      valueOf_digit (show b.toNat % 16 * 4 + c.toNat / 64 < 64 by omega),
      valueOf_digit (show c.toNat % 64 < 64 by omega), ih, Option.bind_eq_bind, Option.bind_some]
    rw [ofNat_of_eq (a := a) (by omega), ofNat_of_eq (a := b) (by omega), ofNat_of_eq (a := c) (by omega)]
  | case2 a b =>
    have ha := a.toNat_lt
    have hb := b.toNat_lt
    simp only [decode, valueOf_digit (show a.toNat / 4 < 64 by omega),
      valueOf_digit (show a.toNat % 4 * 16 + b.toNat / 16 < 64 by omega),
      valueOf_digit (show b.toNat % 16 * 4 < 64 by omega), Option.bind_eq_bind, Option.bind_some]
    rw [if_neg (by omega), ofNat_of_eq (a := a) (by omega), ofNat_of_eq (a := b) (by omega)]
  | case3 a =>
    have ha := a.toNat_lt
    simp only [decode, valueOf_digit (show a.toNat / 4 < 64 by omega),
      valueOf_digit (show a.toNat % 4 * 16 < 64 by omega), Option.bind_eq_bind, Option.bind_some]
    rw [if_neg (by omega), ofNat_of_eq (a := a) (by omega)]
  | case4 => rfl

theorem digit_mem_alphabet {n : Nat} (h : n < 64) : digit n ∈ alphabet := by
  have hall : ∀ n : Fin 64, digit n.val ∈ alphabet := by decide +kernel
  exact hall ⟨n, h⟩

theorem mem_alphabet_of_mem_encode {bytes : List UInt8} {c : Char} (h : c ∈ encode bytes) : c ∈ alphabet := by
  fun_induction encode bytes with
  | case1 a b c' rest ih =>
    have ha := a.toNat_lt
    have hb := b.toNat_lt
    have hc := c'.toNat_lt
    simp only [List.mem_cons] at h
    rcases h with rfl | rfl | rfl | rfl | hrest
    . exact digit_mem_alphabet (by omega)
    . exact digit_mem_alphabet (by omega)
    . exact digit_mem_alphabet (by omega)
    . exact digit_mem_alphabet (by omega)
    . exact ih hrest
  | case2 a b =>
    have ha := a.toNat_lt
    have hb := b.toNat_lt
    simp only [List.mem_cons, List.not_mem_nil, or_false] at h
    rcases h with rfl | rfl | rfl <;> exact digit_mem_alphabet (by omega)
  | case3 a =>
    have ha := a.toNat_lt
    simp only [List.mem_cons, List.not_mem_nil, or_false] at h
    rcases h with rfl | rfl <;> exact digit_mem_alphabet (by omega)
  | case4 => cases h

theorem encode_inj {a b : List UInt8} (h : encode a = encode b) : a = b := by
  have hdecode := congrArg decode h
  rw [decode_encode, decode_encode] at hdecode
  injection hdecode

example : String.ofList (encode [102, 111, 111, 98]) = "Zm9vYg" := by decide

end Rfc4648
