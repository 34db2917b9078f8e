/-
Digests as text: of contents, shortened for display, and of an item's name.

An item is named by its owner's public key and its salt. `infoHash` is the
key under which lookups and acknowledgements of the item are correlated.
-/

import DhtRecords.Hash.Sha256
import DhtRecords.Text.Hex
import DhtRecords.Text.Utf8

namespace DhtRecords

/-- The SHA-256 digest of contents, in hexadecimal. -/
def contentHash (content : Bytes) : String := Hex.encode (Sha256.hash content)

/-- The characters up to an end position; a negative position counts from the end. -/
def upTo (stop : Int) (cs : List Char) : List Char :=
  if 0 ≤ stop then cs.take stop.toNat else cs.take (cs.length - stop.natAbs)

/-- The usual length of a shortened digest. -/
def shortLength : Int := 16

/-- A shortened digest for display. -/
def shortHash (content : Bytes) (length : Int) : String :=
  String.ofList (upTo length (contentHash content).toList)

/-- The bytes that are hashed for an item's name. -/
def itemName (owner : Bytes) (salt : String) : Bytes := owner ++ Utf8.encode salt

/-- The digest of an item's name. -/
def infoHash (owner : Bytes) (salt : String) : String := contentHash (itemName owner salt)

end DhtRecords
