import Tith.Lib.Except
import Tith.Wire.Integer

/-!
This module contains the owned type-length-value codec.
-/

namespace Tith

inductive FramingError where
  | integer (error : IntegerError)
  | invalidType
  | truncatedValue (expected received : Nat)
  | lengthOverflow
  deriving DecidableEq, Repr

/--
A value under its type. The length of a value is always written as a 64 bit integer.
-/
@[ext]
structure OwnedTlv where
  typeCode : UInt64
  value : List UInt8
  length_lt : value.length < 2 ^ 64
  deriving DecidableEq

def requireDefinedType (typeCode : UInt64) : Except FramingError Unit :=
  if typeCode = 0 then .error .invalidType else .ok ()

def OwnedTlv.new (typeCode : UInt64) (value : List UInt8) : Except FramingError OwnedTlv :=
  if h : value.length < 2 ^ 64 then
    match requireDefinedType typeCode with
    | .error e => .error e
    | .ok () => .ok ⟨typeCode, value, h⟩
  else
    .error .lengthOverflow

def OwnedTlv.encode (tlv : OwnedTlv) : List UInt8 :=
  encodeU64 tlv.typeCode ++ encodeU64 (UInt64.ofNat tlv.value.length) ++ tlv.value

def concatenate (values : List OwnedTlv) : List UInt8 := values.flatMap OwnedTlv.encode

theorem length_take_lt (bytes : List UInt8) (length : UInt64)
    : (bytes.take length.toNat).length < 2 ^ 64 := by
  have hlt := length.toNat_lt
  rw [List.length_take]
  omega

/--
One value at the front of `bytes` and the bytes behind it. A `usize` has 64 bits, so every length
that can be read also has a capacity.
-/
def takeTlv (bytes : List UInt8) : Except FramingError (OwnedTlv × List UInt8) :=
  match decodeU64Prefix bytes with
  | .error e => .error (.integer e)
  | .ok (typeCode, typeLen) =>
    match requireDefinedType typeCode with
    | .error e => .error e
    | .ok () =>
      let bytes := bytes.drop typeLen
      match decodeU64Prefix bytes with
      | .error e => .error (.integer e)
      | .ok (length, lengthLen) =>
        let bytes := bytes.drop lengthLen
        if bytes.length < length.toNat then
          .error (.truncatedValue length.toNat bytes.length)
        else
          let tlv :=
            {
              typeCode
              value := bytes.take length.toNat
              length_lt := length_take_lt bytes length
            }
          .ok (tlv, bytes.drop length.toNat)

def parseSequence (bytes : List UInt8) : Except FramingError (List OwnedTlv) :=
  go bytes.length bytes
where
  /-- Every turn takes at least one byte, so `fuel` bytes never need more than `fuel` turns. -/
  go (fuel : Nat) (bytes : List UInt8) : Except FramingError (List OwnedTlv) :=
    match bytes, fuel with
    | [], _ => .ok []
    | _ :: _, 0 => .error .lengthOverflow
    | b :: bs, fuel + 1 =>
      match takeTlv (b :: bs) with
      | .error e => .error e
      | .ok (tlv, rest) =>
        match go fuel rest with
        | .error e => .error e
        | .ok values => .ok (tlv :: values)

end Tith
