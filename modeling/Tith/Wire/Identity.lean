import Tith.Crypto.Basic
import Tith.Wire.Address

/-!
This module contains the identities of nodes and of signed items.
-/

namespace Tith

structure Identity where
  address : Address
  publicKey : PublicKey
  deriving DecidableEq

/--
The key of a non-anonymous address, as the receiver knows it.
-/
abbrev KeyResolver := Address → Option PublicKey

inductive SignedItemKind where
  | message
  | file
  deriving DecidableEq, Repr

structure SignedItemIdentity where
  kind : SignedItemKind
  signer : Identity
  signature : Signature
  deriving DecidableEq

inductive ItemAuthentication where
  | unsigned
  | signedOriginInvalid
  | signedOriginValid
  | originInvalid
  | originValid
  | transport
  deriving DecidableEq, Repr

end Tith
