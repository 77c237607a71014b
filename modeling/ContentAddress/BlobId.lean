import ContentAddress.Bytes
import ContentAddress.Config
import ContentAddress.Hash.Blake3.Tree
import ContentAddress.Hash.Xxh64
import ContentAddress.Positional

/-!
# Blob identifiers

The identifier of a blob is a 64-bit hash of its content.  It is written as sixteen hexadecimal
digits and ordered by its value.
-/

namespace ContentAddress

open Text (Layout)

structure BlobId where
  value : UInt64
deriving DecidableEq, Repr

namespace BlobId

def size : Nat := 8

instance : Ord BlobId := ⟨fun a b => compare a.value b.value⟩

/-- The eight bytes of the identifier, the most significant first. -/
def bytes (id : BlobId) : Bytes :=
  (Positional.digits 256 size id.value.toNat).map UInt8.ofNat

def hex (id : BlobId) : String :=
  String.ofList ((Positional.digits 16 (2 * size) id.value.toNat).map Nat.digitChar)

/-- The identifier in messages: its shortest numeral, filled up with zeros in front. -/
instance : ToString BlobId :=
  ⟨fun id => String.ofList ((Nat.toDigits 16 id.value.toNat).leftpad (2 * size) '0')⟩

/-- The value of a hexadecimal digit in either case; only ASCII digits count. -/
def hexDigit? (char : Char) : Option Nat :=
  if '0' ≤ char ∧ char ≤ '9' then some (char.toNat - '0'.toNat)
  else if 'a' ≤ char ∧ char ≤ 'f' then some (char.toNat - 'a'.toNat + 10)
  else if 'A' ≤ char ∧ char ≤ 'F' then some (char.toNat - 'A'.toNat + 10)
  else none

/-- Reads sixteen hexadecimal digits, and nothing else. -/
def ofHex? (text : String) : Option BlobId :=
  if text.utf8ByteSize = 2 * size then
    (text.toList.mapM hexDigit?).map fun digits => ⟨UInt64.ofNat (Positional.value 16 digits)⟩
  else none

/-- The identifier of some content, computed at once. -/
def ofContent (config : Config) (content : Bytes) : BlobId :=
  match config.algorithm with
  | .xxh64 => ⟨Xxh64.hash config.seed content⟩
  | .blake3 => ⟨Bytes.littleEndian64 ((Blake3.digest content).take size)⟩

def layout (id : BlobId) : Layout := .wrap "BlobId" (.number id.value.toNat)

end BlobId

end ContentAddress
