/-
# The bytes of a key

A key is hashed through a fixed sequence of bytes: numbers by their width, least significant byte
first; text by its UTF-8 form and a closing byte that no UTF-8 text contains; a list of bytes by its
length and then the bytes; a pair one part after the other.  The closing byte and the length keep
different pairs apart.
-/

import Custody.Hash.XXH64

namespace Custody

/-- Keys that can be hashed. -/
class KeyBytes (K : Type) where
  /-- The bytes that stand for a key. -/
  bytes : K → List UInt8

namespace KeyBytes

/-- The lowest bytes of a number, least significant first. -/
def littleEndian : Nat → Nat → List UInt8
  | 0, _ => []
  | width + 1, value => UInt8.ofNat value :: littleEndian width (value / 256)

instance : KeyBytes UInt64 := ⟨fun key => littleEndian 8 key.toNat⟩

instance : KeyBytes UInt32 := ⟨fun key => littleEndian 4 key.toNat⟩

instance : KeyBytes Int64 := ⟨fun key => littleEndian 8 key.toUInt64.toNat⟩

instance : KeyBytes Bool := ⟨fun key => [if key then 1 else 0]⟩

instance : KeyBytes String := ⟨fun key => key.toUTF8.toList ++ [0xFF]⟩

instance : KeyBytes (List UInt8) := ⟨fun key => littleEndian 8 key.length ++ key⟩

instance {K L : Type} [KeyBytes K] [KeyBytes L] : KeyBytes (K × L) :=
  ⟨fun key => bytes key.1 ++ bytes key.2⟩

/-- The hash of a key. -/
def hash {K : Type} [KeyBytes K] (key : K) : UInt64 := XXH64.hash (bytes key)

end KeyBytes

end Custody
