import ContentAddress.Bytes

/-!
# XXH64

The 64-bit member of the xxHash family, over a whole byte string.  Content of at least 32 bytes is
consumed in stripes by four lanes, which then converge; shorter content starts from the seed alone.
What is left after the stripes is mixed in as words, one half word and single bytes, and the result
is scrambled.
-/

namespace ContentAddress.Xxh64

def prime1 : UInt64 := 0x9E3779B185EBCA87

def prime2 : UInt64 := 0xC2B2AE3D27D4EB4F

def prime3 : UInt64 := 0x165667B19E3779F9

def prime4 : UInt64 := 0x85EBCA77C2B2AE63

def prime5 : UInt64 := 0x27D4EB2F165667C5

def stripeSize : Nat := 32

/-- Rotation to the left; `amount` lies strictly between 0 and 64. -/
@[inline] def rotateLeft (word amount : UInt64) : UInt64 :=
  word <<< amount ||| word >>> (64 - amount)

def round (lane word : UInt64) : UInt64 :=
  rotateLeft (lane + word * prime2) 31 * prime1

structure Lanes where
  first : UInt64
  second : UInt64
  third : UInt64
  fourth : UInt64
deriving DecidableEq, Repr

namespace Lanes

/-- The lanes before the first stripe.  The third one holds the seed itself. -/
def start (seed : UInt64) : Lanes where
  first := seed + prime1 + prime2
  second := seed + prime2
  third := seed
  fourth := seed - prime1

def absorb (lanes : Lanes) (stripe : Bytes) : Lanes where
  first := round lanes.first (Bytes.littleEndian64 (stripe.take 8))
  second := round lanes.second (Bytes.littleEndian64 ((stripe.drop 8).take 8))
  third := round lanes.third (Bytes.littleEndian64 ((stripe.drop 16).take 8))
  fourth := round lanes.fourth (Bytes.littleEndian64 ((stripe.drop 24).take 8))

def merge (hash lane : UInt64) : UInt64 :=
  (hash ^^^ round 0 lane) * prime1 + prime4

def converge (lanes : Lanes) : UInt64 :=
  let hash := rotateLeft lanes.first 1 + rotateLeft lanes.second 7 +
    rotateLeft lanes.third 12 + rotateLeft lanes.fourth 18
  merge (merge (merge (merge hash lanes.first) lanes.second) lanes.third) lanes.fourth

end Lanes

def mixWord (hash : UInt64) (word : Bytes) : UInt64 :=
  rotateLeft (hash ^^^ round 0 word.littleEndian64) 27 * prime1 + prime4

def mixHalf (hash : UInt64) (half : Bytes) : UInt64 :=
  rotateLeft (hash ^^^ half.littleEndian64 * prime1) 23 * prime2 + prime3

def mixByte (hash : UInt64) (byte : UInt8) : UInt64 :=
  rotateLeft (hash ^^^ byte.toUInt64 * prime5) 11 * prime1

def mixTail (hash : UInt64) (tail : Bytes) : UInt64 :=
  let (hash, rest) := Bytes.foldPieces mixWord 8 (tail.length / 8) hash tail
  let (hash, rest) := Bytes.foldPieces mixHalf 4 (rest.length / 4) hash rest
  rest.foldl mixByte hash

/-- Scrambles the bits once more, so that every input bit reaches every output bit. -/
def avalanche (hash : UInt64) : UInt64 :=
  let hash := (hash ^^^ hash >>> 33) * prime2
  let hash := (hash ^^^ hash >>> 29) * prime3
  hash ^^^ hash >>> 32

/-- The last steps, common to all lengths: add the length, mix in the tail, scramble. -/
def finish (hash total : UInt64) (tail : Bytes) : UInt64 :=
  avalanche (mixTail (hash + total) tail)

def hash (seed : UInt64) (content : Bytes) : UInt64 :=
  let size := content.length
  let (lanes, tail) :=
    Bytes.foldPieces Lanes.absorb stripeSize (size / stripeSize) (Lanes.start seed) content
  finish (if size < stripeSize then seed + prime5 else lanes.converge) (UInt64.ofNat size) tail

end ContentAddress.Xxh64
