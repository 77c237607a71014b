import ContentAddress.BlobId
import ContentAddress.Hash.Blake3.Stream
import ContentAddress.Hash.Xxh64.Stream

/-!
# Incremental identifiers

A hasher takes content in pieces and gives the identifier of what it has seen at any moment.
Several hashers live side by side in a bank, where one can be copied into a new one.
-/

namespace ContentAddress

open Text (Layout)

inductive Hasher
  /-- An XXH64 computation beside the seed it starts from. -/
  | xxh64 (seed : UInt64) (stream : Xxh64.Stream)
  | blake3 (stream : Blake3.Stream)
deriving DecidableEq

namespace Hasher

def start (config : Config) : Hasher :=
  match config.algorithm with
  | .xxh64 => xxh64 config.seed (Xxh64.Stream.start config.seed)
  | .blake3 => blake3 Blake3.Stream.start

def update (hasher : Hasher) (data : Bytes) : Hasher :=
  match hasher with
  | xxh64 seed stream => xxh64 seed (stream.update data)
  | blake3 stream => blake3 (stream.update data)

def reset : Hasher → Hasher
  | xxh64 seed stream => xxh64 seed (stream.reset seed)
  | blake3 _ => blake3 Blake3.Stream.start

def id : Hasher → BlobId
  | xxh64 _ stream => ⟨stream.digest⟩
  | blake3 stream => ⟨Bytes.littleEndian64 (stream.digest.take BlobId.size)⟩

def algorithm : Hasher → Algorithm
  | xxh64 .. => .xxh64
  | blake3 _ => .blake3

/-- The hasher in descriptions, which do not show its state. -/
def layout (hasher : Hasher) : Layout :=
  .openRecord "BlobHasher" [("algorithm", hasher.algorithm.layout)]

end Hasher

inductive HasherAction
  | update (data : Bytes)
  | reset
  | finalize
  | clone
deriving DecidableEq, Repr

structure HasherBank where
  hashers : List Hasher

namespace HasherBank

def start (config : Config) : HasherBank := ⟨[Hasher.start config]⟩

/-- Acts on the hasher at `index`, and returns the identifier that it gives afterwards; a copy gives
the same one.  There is no result if the bank has no such hasher. -/
def perform (bank : HasherBank) (index : Nat) (action : HasherAction) :
    Option (HasherBank × BlobId) :=
  bank.hashers[index]?.map fun hasher =>
    match action with
    | .update data =>
        let hasher := hasher.update data
        (⟨bank.hashers.set index hasher⟩, hasher.id)
    | .reset =>
        let hasher := hasher.reset
        (⟨bank.hashers.set index hasher⟩, hasher.id)
    | .finalize => (bank, hasher.id)
    | .clone => (⟨bank.hashers ++ [hasher]⟩, hasher.id)

end HasherBank

end ContentAddress
