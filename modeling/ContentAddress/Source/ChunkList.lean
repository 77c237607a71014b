import ContentAddress.Source
import ContentAddress.Text.Quoted

/-!
# Lists of chunks

Chunks held in memory, with a cursor in front of the next one to be pulled.  Empty chunks are left
out when they are added, so they never end the sequence early.  The chunks stay in the list when
they are pulled, and the cursor can be moved back to the first one.
-/

namespace ContentAddress

open Text (Layout)

structure ChunkList where
  chunks : Array Bytes := #[]
  /-- The number of chunks in front of the cursor. -/
  position : Nat := 0
deriving DecidableEq

namespace ChunkList

def empty : ChunkList := {}

def push (list : ChunkList) (chunk : Bytes) : ChunkList :=
  if chunk.isEmpty then list else { list with chunks := list.chunks.push chunk }

def extend (list : ChunkList) (chunks : List Bytes) : ChunkList := chunks.foldl push list

/-- A list of the given chunks, empty ones left out, with the cursor at the front. -/
def ofList (chunks : List Bytes) : ChunkList := empty.extend chunks

/-- Adding chunks keeps those held, the cursor, and every new chunk that is not empty. -/
theorem extend_eq (list : ChunkList) (chunks : List Bytes) :
    list.extend chunks =
      { list with chunks := list.chunks ++ (chunks.filter fun chunk => !chunk.isEmpty).toArray } := by
  induction chunks generalizing list with
  | nil => simp [extend]
  | cons chunk chunks ih =>
    have h := ih (list.push chunk)
    by_cases hchunk : chunk.isEmpty <;> simp_all [extend, push]

def size (list : ChunkList) : Nat := list.chunks.size

def isEmpty (list : ChunkList) : Bool := list.chunks.isEmpty

/-- The number of bytes in all chunks held, added up in a word of the machine. -/
def totalLength (list : ChunkList) : Nat :=
  let total := list.chunks.foldl (fun total chunk => total + USize.ofNat chunk.length) 0
  total.toNat

def remaining (list : ChunkList) : Nat := list.size - list.position

def rewind (list : ChunkList) : ChunkList := { list with position := 0 }

/-- Pulls the chunk behind the cursor; at the end nothing changes. -/
def next (list : ChunkList) : Pull ChunkList :=
  match list.chunks[list.position]? with
  | some chunk => { chunk, source := { list with position := list.position + 1 } }
  | none => { chunk := [], source := list }

instance : Source ChunkList := ⟨fun _ => True, fun list _ => list.next⟩

instance : Source.Prompt ChunkList := ⟨fun _ => trivial⟩

instance : Source.Finite ChunkList :=
  .of_measure remaining fun list h => by
    simp only [Source.next, Source.pull, next] at h ⊢
    split at h
    · next chunk hchunk =>
      obtain ⟨hlt, -⟩ := Array.getElem?_eq_some_iff.1 hchunk
      simp only [remaining, size]
      omega
    · exact absurd rfl h

def layout (list : ChunkList) : Layout :=
  .record "MultiBuf"
    [("chunks", .list (list.chunks.toList.map fun chunk => .atom (Text.quoteBytes chunk))),
      ("pos", .number list.position)]

end ChunkList

end ContentAddress
