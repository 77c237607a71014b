import ContentAddress.Hash.Blake3

/-!
# BLAKE3 of a whole byte string

Content is cut into chunks of 1024 bytes, the leaves of a binary tree.  The left subtree holds the
largest power of two of chunks that leaves at least one byte for the right one.
-/

namespace ContentAddress.Blake3

/-- The flags of the block with the given index in its chunk, the last block apart. -/
def blockFlags (index : Nat) : UInt32 := if index = 0 then chunkStart else 0

/-- The chaining value inside a chunk, beside the number of blocks that led to it. -/
structure Progress where
  value : ChainingValue
  blocks : Nat
deriving DecidableEq

/-- Consumes one whole block of the chunk at position `counter`, which is not its last. -/
def Progress.absorb (counter : Nat) (progress : Progress) (block : Bytes) : Progress where
  value :=
    compress progress.value (Block.ofBytes block) (UInt64.ofNat counter) (UInt32.ofNat blockSize)
      (blockFlags progress.blocks)
  blocks := progress.blocks + 1

/-- The last block of the chunk at position `counter`, as a node. -/
def Progress.last (counter : Nat) (progress : Progress) (block : Bytes) : Node where
  value := progress.value
  block := Block.ofBytes block
  counter
  length := block.length
  flags := blockFlags progress.blocks ||| chunkEnd

/-- A leaf: the chunk at position `counter`.  Its last block, which may be empty only if the chunk
is, stays uncompressed. -/
def leaf (counter : Nat) (chunk : Bytes) : Node :=
  let (progress, block) :=
    Bytes.foldPieces (Progress.absorb counter) blockSize ((chunk.length - 1) / blockSize)
      ⟨initial, 0⟩ chunk
  progress.last counter block

/-- The number of bytes in the left subtree over `size` bytes, more than one chunk: the largest
doubling of one chunk that is smaller than `size`. -/
def leftSize (size : Nat) : Nat := chunkSize <<< Nat.log2 ((size - 1) / chunkSize)

theorem leftSize_pos (size : Nat) : 0 < leftSize size := by
  rw [leftSize, Nat.shiftLeft_eq]
  exact Nat.mul_pos (by decide) (Nat.two_pow_pos _)

theorem leftSize_lt {size : Nat} (h : chunkSize < size) : leftSize size < size := by
  have hne : (size - 1) / chunkSize ≠ 0 := by
    simp only [chunkSize] at h ⊢
    omega
  have hpow : 2 ^ Nat.log2 ((size - 1) / chunkSize) ≤ (size - 1) / chunkSize :=
    Nat.log2_self_le hne
  have hle : leftSize size ≤ chunkSize * ((size - 1) / chunkSize) := by
    rw [leftSize, Nat.shiftLeft_eq]
    exact Nat.mul_le_mul_left _ hpow
  have hdiv := Nat.mul_div_le (size - 1) chunkSize
  omega

/-- The tree over `content`, whose first chunk has position `counter`. -/
def tree (counter : Nat) (content : Bytes) : Node :=
  if _h : content.length ≤ chunkSize then leaf counter content
  else
    let left := leftSize content.length
    Node.parent (tree counter (content.take left)).chainingValue
      (tree (counter + left / chunkSize) (content.drop left)).chainingValue
termination_by content.length
decreasing_by
  · have := leftSize_lt (Nat.lt_of_not_le _h)
    simp only [List.length_take]
    omega
  · have := leftSize_pos content.length
    simp only [List.length_drop, chunkSize] at *
    omega

def digest (content : Bytes) : Bytes := (tree 0 content).digest

end ContentAddress.Blake3
