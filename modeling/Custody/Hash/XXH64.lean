/-
# The hash function XXH64

A 64-bit hash of a sequence of bytes, with seed zero.  Long inputs are read in stripes of four
words, each going to a lane of its own; the lanes are merged, what remains is mixed in by words,
half words and bytes, and a final avalanche spreads every bit.  All arithmetic wraps around.
-/

namespace Custody.XXH64

/-- The odd constants that the mixing steps multiply with. -/
def prime1 : UInt64 := 0x9E3779B185EBCA87
def prime2 : UInt64 := 0xC2B2AE3D27D4EB4F
def prime3 : UInt64 := 0x165667B19E3779F9
def prime4 : UInt64 := 0x85EBCA77C2B2AE63
def prime5 : UInt64 := 0x27D4EB2F165667C5

/-- The word rotated to the left. -/
def rotateLeft (word : UInt64) (amount : UInt64) : UInt64 :=
  (word <<< amount) ||| (word >>> (64 - amount))

/-- The number whose bytes are given, least significant first. -/
def littleEndian (bytes : List UInt8) : UInt64 :=
  bytes.foldr (fun byte rest => rest * 256 + byte.toUInt64) 0

/-- One word enters a lane. -/
def round (lane word : UInt64) : UInt64 :=
  rotateLeft (lane + word * prime2) 31 * prime1

/-- The four lanes. -/
structure Lanes where
  first : UInt64
  second : UInt64
  third : UInt64
  fourth : UInt64

/-- The lanes before anything is read. -/
def Lanes.start : Lanes := ⟨prime1 + prime2, prime2, 0, 0 - prime1⟩

/-- One stripe of four words enters the lanes. -/
def Lanes.absorb (lanes : Lanes) (bytes : List UInt8) : Lanes :=
  let word (place : Nat) := littleEndian ((bytes.drop (8 * place)).take 8)
  { first := round lanes.first (word 0)
    second := round lanes.second (word 1)
    third := round lanes.third (word 2)
    fourth := round lanes.fourth (word 3) }

/-- A number of stripes enter the lanes; the bytes behind them remain. -/
def absorbStripes : Nat → Lanes → List UInt8 → Lanes × List UInt8
  | 0, lanes, bytes => (lanes, bytes)
  | stripes + 1, lanes, bytes => absorbStripes stripes (lanes.absorb bytes) (bytes.drop 32)

/-- One lane is merged into the hash. -/
def mergeLane (hash lane : UInt64) : UInt64 :=
  (hash ^^^ round 0 lane) * prime1 + prime4

/-- The four lanes become one hash. -/
def Lanes.merge (lanes : Lanes) : UInt64 :=
  let mixed := rotateLeft lanes.first 1 + rotateLeft lanes.second 7
    + rotateLeft lanes.third 12 + rotateLeft lanes.fourth 18
  [lanes.first, lanes.second, lanes.third, lanes.fourth].foldl mergeLane mixed

/-- One word of the remainder enters the hash. -/
def mixWord (hash word : UInt64) : UInt64 :=
  rotateLeft (hash ^^^ round 0 word) 27 * prime1 + prime4

/-- One half word of the remainder enters the hash. -/
def mixHalfWord (hash word : UInt64) : UInt64 :=
  rotateLeft (hash ^^^ (word * prime1)) 23 * prime2 + prime3

/-- One byte of the remainder enters the hash. -/
def mixByte (hash : UInt64) (byte : UInt8) : UInt64 :=
  rotateLeft (hash ^^^ (byte.toUInt64 * prime5)) 11 * prime1

/-- A number of words enter the hash; the bytes behind them remain. -/
def mixWords : Nat → UInt64 → List UInt8 → UInt64 × List UInt8
  | 0, hash, bytes => (hash, bytes)
  | words + 1, hash, bytes =>
      mixWords words (mixWord hash (littleEndian (bytes.take 8))) (bytes.drop 8)

/-- Every bit of the hash is spread over all others. -/
def avalanche (hash : UInt64) : UInt64 :=
  let hash := (hash ^^^ (hash >>> 33)) * prime2
  let hash := (hash ^^^ (hash >>> 29)) * prime3
  hash ^^^ (hash >>> 32)

/-- The hash of a sequence of bytes. -/
def hash (bytes : List UInt8) : UInt64 :=
  let length := bytes.length
  let (lanes, rest) := absorbStripes (length / 32) Lanes.start bytes
  let start := if length < 32 then prime5 else lanes.merge
  let (state, rest) := mixWords (length % 32 / 8) (start + length.toUInt64) rest
  let (state, rest) :=
    if 4 ≤ rest.length then (mixHalfWord state (littleEndian (rest.take 4)), rest.drop 4)
    else (state, rest)
  avalanche (rest.foldl mixByte state)

end Custody.XXH64
