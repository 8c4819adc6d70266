import Tith.Wire.Common

/-!
This module contains the texts of the errors, as they are written into answers and logs.
-/

namespace Tith

def IntegerError.describe (error : IntegerError) : String :=
  match error with
  | .empty => "empty integer"
  | .nonCanonical => "non-canonical integer"
  | .overflow => "integer is outside the supported range"
  | .unterminated => "unterminated integer"
  | .trailingBytes => "bytes follow the encoded integer"

def AddressError.describe (error : AddressError) : String :=
  match error with
  | .emptyDomain => "address domain is empty"
  | .invalidDomain => "address domain contains a prohibited value"
  | .missingZone => "address zone is missing"
  | .invalidNumber => "address component is not a canonical decimal number"
  | .outOfRange => "address component is out of range"
  | .nonCanonical => "address contains an explicitly encoded default component"
  | .invalidOrder => "address components are out of order or repeated"
  | .invalidWildcard => "invalid address wildcard"

def CryptoError.describe (error : CryptoError) : String :=
  match error with
  | .initialization => "libhydrogen initialization failed"
  | .operation => "libhydrogen operation failed"
  | .invalidCiphertext => "ciphertext authentication failed"
  | .lengthOverflow => "ciphertext length overflow"

def FramingError.describe (error : FramingError) : String :=
  match error with
  | .integer error => "invalid TLV integer: " ++ error.describe
  | .invalidType => "TLV type zero is invalid"
  | .truncatedValue expected received =>
    "truncated TLV value: expected " ++ toString expected ++ " bytes, received " ++ toString received
  | .lengthOverflow => "TLV length does not fit this platform"

def BundleError.describe (error : BundleError) : String :=
  match error with
  | .framing error => "bundle framing error: " ++ error.describe
  | .address error => "invalid address: " ++ error.describe
  | .integer error => "invalid integer value: " ++ error.describe
  | .crypto error => "cryptographic error: " ++ error.describe
  | .invalidUtf8 => "value is not valid UTF-8"
  | .duplicate name => "duplicate " ++ name
  | .missing name => "missing required " ++ name
  | .unexpected name => "unexpected or misplaced " ++ name
  | .wrongLength name => name ++ " has the wrong length"
  | .unknownKey unknown => "no public key for " ++ unknown.display
  | .invalidSignature => "signature verification failed"
  | .incorrectHeaderHash => "payload has the wrong Header TLVHash"

end Tith
