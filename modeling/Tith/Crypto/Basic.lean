import Mathlib

/-!
This module contains the fixed size cryptographic values and the operations that the protocol takes
from the vendored library. The operations are a parameter of everything above them.
-/

namespace Tith

abbrev PublicKey := Vector UInt8 32
abbrev Signature := Vector UInt8 64
abbrev TlvHash := Vector UInt8 32

inductive CryptoError where
  | initialization
  | operation
  | invalidCiphertext
  | lengthOverflow
  deriving DecidableEq, Repr

/--
The library: `verifyTlv` is the SignTLV verification, the two hashes differ by their context.
-/
structure Crypto where
  verifyTlv : List UInt8 → Signature → PublicKey → Except CryptoError Bool
  hashTlv : List UInt8 → Except CryptoError TlvHash
  hashInboundItem : List UInt8 → Except CryptoError TlvHash

/--
`try_into` from a slice to an array: only the exact length is taken.
-/
def fixed (n : Nat) (bytes : List UInt8) : Option (Vector UInt8 n) :=
  if h : bytes.length = n then some ⟨bytes.toArray, by simpa using h⟩ else none

theorem fixed_toList (v : Vector UInt8 n) : fixed n v.toList = some v := by
  unfold fixed
  rw [dif_pos (by simp)]
  congr

end Tith
