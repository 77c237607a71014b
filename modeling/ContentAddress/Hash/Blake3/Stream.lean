import ContentAddress.Hash.Blake3.Tree

/-!
# Incremental BLAKE3

Content arrives in pieces of any size.  Inside a chunk a full block is compressed only when more
content follows, since the last block of a chunk is treated differently.  A full chunk is likewise
finished only when more content follows.  The chaining values of finished subtrees wait on a stack;
the binary form of the number of finished chunks says how many of them belong together.
-/

namespace ContentAddress.Blake3

structure Chunk where
  counter : Nat
  progress : Progress
  /-- The block that is not compressed yet, at most 64 bytes. -/
  pending : Bytes
deriving DecidableEq

namespace Chunk

def start (counter : Nat) : Chunk := ⟨counter, ⟨initial, 0⟩, []⟩

def size (chunk : Chunk) : Nat := blockSize * chunk.progress.blocks + chunk.pending.length

/-- Compresses the pending block if it is full; called when more content follows. -/
def makeRoom (chunk : Chunk) : Chunk :=
  if blockSize ≤ chunk.pending.length then
    { chunk with progress := chunk.progress.absorb chunk.counter chunk.pending, pending := [] }
  else chunk

theorem length_pending_makeRoom (chunk : Chunk) :
    chunk.makeRoom.pending.length < blockSize := by
  unfold makeRoom
  split
  · exact Nat.zero_lt_succ _
  · omega

def absorb (chunk : Chunk) (data : Bytes) : Chunk :=
  match data with
  | [] => chunk
  | byte :: rest =>
      let chunk := chunk.makeRoom
      let room := blockSize - chunk.pending.length
      absorb { chunk with pending := chunk.pending ++ (byte :: rest).take room }
        ((byte :: rest).drop room)
termination_by data.length
decreasing_by
  rename_i before
  have := length_pending_makeRoom before
  simp only [List.length_drop, List.length_cons]
  omega

def node (chunk : Chunk) : Node := chunk.progress.last chunk.counter chunk.pending

end Chunk

/-- Puts the chaining value of a finished subtree on the stack.  While `count`, the number of
finished subtrees of its size, is even, the value on top is its left sibling and the two are merged
into one subtree of twice the size. -/
def mergeOnto (value : ChainingValue) (count : Nat) : List ChainingValue → List ChainingValue
  | [] => [value]
  | left :: rest =>
      if count % 2 = 0 then mergeOnto (Node.parent left value).chainingValue (count / 2) rest
      else value :: left :: rest

structure Stream where
  /-- The chaining values of the finished subtrees, the smallest and last on top. -/
  stack : List ChainingValue
  chunk : Chunk
deriving DecidableEq

namespace Stream

def start : Stream := ⟨[], Chunk.start 0⟩

/-- Finishes the chunk if it is full; called when more content follows. -/
def makeRoom (stream : Stream) : Stream :=
  if chunkSize ≤ stream.chunk.size then
    let count := stream.chunk.counter + 1
    { stack := mergeOnto stream.chunk.node.chainingValue count stream.stack
      chunk := Chunk.start count }
  else stream

theorem size_chunk_makeRoom (stream : Stream) : stream.makeRoom.chunk.size < chunkSize := by
  unfold makeRoom
  split
  · simp [Chunk.start, Chunk.size, chunkSize]
  · omega

def update (stream : Stream) (data : Bytes) : Stream :=
  match data with
  | [] => stream
  | byte :: rest =>
      let stream := stream.makeRoom
      let room := chunkSize - stream.chunk.size
      update { stream with chunk := stream.chunk.absorb ((byte :: rest).take room) }
        ((byte :: rest).drop room)
termination_by data.length
decreasing_by
  rename_i before
  have := size_chunk_makeRoom before
  simp only [List.length_drop, List.length_cons]
  omega

/-- The digest of what was seen; the state is unchanged and can be continued.  The stacked subtrees
are joined from the smallest to the largest, and the last join is the root. -/
def digest (stream : Stream) : Bytes :=
  (stream.stack.foldl (fun node left => Node.parent left node.chainingValue)
    stream.chunk.node).digest

end Stream

end ContentAddress.Blake3
