import Tith.Adapter.Basic
import Tith.Legacy.Convert

/-!
This module contains the TIC beside a distribution File.
-/

namespace Tith

namespace Adapter

open Legacy (Context ConvertError fiveDimensional one)

/--
The eight shifts of the CRC for one byte.
-/
def crcByte (k : UInt32) : UInt32 :=
  (List.range 8).foldl (fun k _ => if k &&& 1 ≠ 0 then (k >>> 1) ^^^ 0xedb88320 else k >>> 1) k

def crc32 (bytes : List UInt8) : UInt32 :=
  ~~~bytes.foldl (fun crc byte => ((crc >>> 8) &&& 0x00ffffff) ^^^ crcByte ((crc ^^^ byte.toUInt32) &&& 0xff))
    0xffffffff

example : crc32 (Bytes.ofString "123456789") = 0xcbf43926 := by decide

/--
The values of the link that a TIC carries, and the recorded name of the companion.
-/
structure TicOptions where
  transferName : String
  recipient : Option String
  password : Option String

/--
No line is folded, so a value with a line break has no representation.
-/
def ticLine (keyword : String) (value : List Char) : Except ConvertError (List Char) :=
  if value.any (fun c => c = '\r' ∨ c = '\n' ∨ c = '\x00') then
    .error (.unrepresentable "a TIC value with a line break")
  else
    .ok (keyword.toList ++ ' ' :: value)

def optionalTicLine (keyword : String) (value : Option (List Char)) : Except ConvertError (List (List Char)) :=
  match value with
  | none => .ok []
  | some value => one (ticLine keyword value)

section

variable (file : ReadFile) (context : Context) (options : TicOptions)

def ticAddress (address : Address) : Except ConvertError (List Char) := do
  let address ← context.legacyAddress address
  (fiveDimensional address).mapError .address

def ticAddressLine (keyword : String) (address : Address) : Except ConvertError (List Char) := do
  let address ← ticAddress context address
  ticLine keyword address

def fileLine : Except ConvertError (List Char) :=
  if isSafeEightThree options.transferName.toList then
    ticLine "File" options.transferName.toList
  else
    .error (.unrepresentable "a transfer name which is not a safe 8.3 name")

/--
The own name of the file, if it has been transferred under another one.
-/
def longNameLine : Except ConvertError (List (List Char)) := do
  let filename ← file.data.filename.okOr (.unrepresentable "a TIC for a File without Filename")
  optionalTicLine "Lfile" (if filename ≠ options.transferName then some filename.toList else none)

def pathLine (via : ViaData) : Except ConvertError (List Char) :=
  if via.address.isAnonymous then
    .error (.unrepresentable "a Via whose anonymous address cannot carry its required PublicKey")
  else do
    let address ← ticAddress context via.address
    ticLine "Path" (address ++ ' ' :: Nat.toDigits 10 via.timestamp.toNat ++ ' ' :: via.software.toList)

/--
The area, the addresses and the names of a distribution File.
-/
def ticHead : Except ConvertError (List (List Char)) := do
  let area ← file.data.area.okOr (.unrepresentable "a TIC for a File with no Area")
  let tag ← context.areaTag area.name
  let area ← ticLine "Area" tag.toList
  let origin ← ticAddressLine context "Origin" file.signing.origin
  let sender ← ticAddressLine context "From" context.packetOrigin
  let recipient ← optionalTicLine "To" (options.recipient.map String.toList)
  let name ← fileLine options
  let longName ← longNameLine file options
  .ok (area :: origin :: sender :: recipient ++ name :: longName)

def ticDescription : Except ConvertError (List (List Char)) := do
  let size ← ticLine "Size" (Nat.toDigits 10 file.data.contents.length)
  let date ← optionalTicLine "Date" (file.data.timestamp.map fun timestamp => Nat.toDigits 10 timestamp.toNat)
  let description ← optionalTicLine "Desc" (file.data.shortDescription.map String.toList)
  let longDescription ← file.data.longDescriptionLines.mapM fun line => ticLine "Ldesc" line.toList
  let created ← optionalTicLine "Created" (file.data.tearLine.map String.toList)
  let magic ← optionalTicLine "Magic" (file.data.magicWord.map String.toList)
  let replaces ← optionalTicLine "Replaces" (file.data.replaces.map String.toList)
  let crc ← ticLine "Crc" ((hex8 (crc32 file.data.contents).toNat).map Char.toUpper)
  .ok (size :: date ++ description ++ longDescription ++ created ++ magic ++ replaces ++ [crc])

def ticWay : Except ConvertError (List (List Char)) := do
  let path ← file.vias.mapM (pathLine context)
  let seenBy ← file.seenBy.mapM (ticAddressLine context "Seenby")
  let password ← optionalTicLine "Pw" (options.password.map String.toList)
  .ok (path ++ seenBy ++ password)

def ticLines : Except ConvertError (List (List Char)) := do
  let head ← ticHead file context options
  let description ← ticDescription file
  let way ← ticWay file context options
  .ok (head ++ description ++ way)

def toTic : Except ConvertError (List Char) := do
  let lines ← ticLines file context options
  .ok (lines.flatMap (· ++ "\r\n".toList))

end

end Adapter

end Tith
