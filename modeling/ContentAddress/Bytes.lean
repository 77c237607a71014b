/-!
# Byte strings

Content is a finite list of bytes.  This module reads words from bytes, least significant byte
first, and walks content in pieces of one size, which is how both hash functions consume it.
-/

namespace ContentAddress

universe u

/-- Content, and every chunk of it, is a finite list of bytes. -/
abbrev Bytes := List UInt8

namespace Bytes

/-- The 64-bit word whose bytes are given, least significant first; missing bytes are zero. -/
def littleEndian64 : Bytes → UInt64
  | [] => 0
  | byte :: rest => littleEndian64 rest <<< 8 ||| byte.toUInt64

/-- The 32-bit word whose bytes are given, least significant first; missing bytes are zero. -/
def littleEndian32 : Bytes → UInt32
  | [] => 0
  | byte :: rest => littleEndian32 rest <<< 8 ||| byte.toUInt32

/-- The four bytes of a word, least significant first. -/
def ofWord32 (word : UInt32) : Bytes :=
  [word.toUInt8, (word >>> 8).toUInt8, (word >>> 16).toUInt8, (word >>> 24).toUInt8]

/-- Folds `absorb` over the first `count` pieces of `size` bytes, and returns what is left beside
the result. -/
@[specialize] def foldPieces {α : Type u} (absorb : α → Bytes → α) (size : Nat) :
    Nat → α → Bytes → α × Bytes
  | 0, acc, rest => (acc, rest)
  | count + 1, acc, rest =>
      foldPieces absorb size count (absorb acc (rest.take size)) (rest.drop size)

@[simp] theorem foldPieces_zero {α : Type u} (absorb : α → Bytes → α) (size : Nat) (acc : α)
    (rest : Bytes) : foldPieces absorb size 0 acc rest = (acc, rest) := rfl

theorem foldPieces_succ {α : Type u} (absorb : α → Bytes → α) (size count : Nat) (acc : α)
    (rest : Bytes) :
    foldPieces absorb size (count + 1) acc rest =
      foldPieces absorb size count (absorb acc (rest.take size)) (rest.drop size) := rfl

/-- Replaces the bytes of `buffer` from `offset` on by `data`; what lies behind them stays. -/
def overwrite (buffer : Bytes) (offset : Nat) (data : Bytes) : Bytes :=
  buffer.take offset ++ data ++ buffer.drop (offset + data.length)

theorem length_overwrite {buffer data : Bytes} {offset : Nat}
    (h : offset + data.length ≤ buffer.length) :
    (overwrite buffer offset data).length = buffer.length := by
  simp only [overwrite, List.length_append, List.length_take, List.length_drop]
  omega

end Bytes

end ContentAddress
