import Tith.Lib.Table
import Tith.Nodelist.Stream
import Tith.Wire.Lemmas.Address

/-!
This module contains complete nodelists: the entries of a distribution by their addresses.
-/

namespace Tith

structure Nodelist where
  entries : Table Address Nodelist.Entry

namespace Nodelist

def get (nodelist : Nodelist) (address : Address) : Option Entry := nodelist.entries[address]?

def publicKey (nodelist : Nodelist) (address : Address) : Option PublicKey := do
  let entry ← nodelist.get address
  let service ← entry.tith
  some service.publicKey

def insertRecord (entries : Table Address Entry) (record : Record) : Table Address Entry :=
  match record with
  | .comment _ => entries
  | .entry entry => entries.insert entry.address entry

def ofRecords (records : List Record) : Nodelist := ⟨records.foldl insertRecord ∅⟩

def read (base64 : Base64) (domain : String) (bytes : List UInt8) : Except Fault Nodelist := do
  let reader ← NodelistReader.ofScope (.distribution domain) bytes
  let records ← (reader.items base64).mapM id
  .ok (ofRecords records)

end Nodelist

end Tith
