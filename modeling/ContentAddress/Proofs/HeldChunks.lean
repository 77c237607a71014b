import ContentAddress.Proofs.Draining
import ContentAddress.Source.ChunkList

/-!
# Draining a list of chunks

What a list still has to yield are the chunks behind its cursor.  A list is built by adding chunks
one by one or several at a time; however they are grouped, it holds those that are not empty.
-/

namespace ContentAddress

open Source

/-- One way of adding chunks to a list. -/
inductive Addition
  | push (chunk : Bytes)
  | extend (chunks : List Bytes)

/-- The chunks to be added, empty ones included. -/
def Addition.chunks : Addition → List Bytes
  | push chunk => [chunk]
  | extend chunks => chunks

namespace ChunkList

def add (list : ChunkList) : Addition → ChunkList
  | .push chunk => list.push chunk
  | .extend chunks => list.extend chunks

theorem add_eq_extend (list : ChunkList) (addition : Addition) :
    list.add addition = list.extend addition.chunks := by
  cases addition <;> rfl

theorem extend_append (list : ChunkList) (chunks more : List Bytes) :
    list.extend (chunks ++ more) = (list.extend chunks).extend more :=
  List.foldl_append

theorem foldl_add (additions : List Addition) (list : ChunkList) :
    additions.foldl add list = list.extend (additions.flatMap Addition.chunks) := by
  induction additions generalizing list with
  | nil => rfl
  | cons addition additions ih =>
      rw [List.foldl_cons, ih, add_eq_extend, List.flatMap_cons, extend_append]

def pending (list : ChunkList) : List Bytes := list.chunks.toList.drop list.position

theorem pending_ofList (chunks : List Bytes) :
    (ofList chunks).pending = chunks.filter fun chunk => !chunk.isEmpty := by
  rw [pending, ofList, extend_eq]
  simp [empty]

theorem next_of_pending_nil {list : ChunkList} (hpending : list.pending = []) :
    Source.next list = { chunk := [], source := list } := by
  have hlen : list.chunks.size ≤ list.position := by
    simpa [pending] using hpending
  simp only [Source.next, Source.pull, next, Array.getElem?_eq_none hlen]

theorem next_of_pending_cons {list : ChunkList} {chunk : Bytes} {rest : List Bytes}
    (hpending : list.pending = chunk :: rest) :
    Source.next list = { chunk, source := { list with position := list.position + 1 } } ∧
      ({ list with position := list.position + 1 } : ChunkList).pending = rest := by
  have hget : list.chunks[list.position]? = some chunk := by
    have hhead := congrArg List.head? hpending
    simpa [pending, List.head?_drop] using hhead
  constructor
  · simp only [Source.next, Source.pull, next, hget]
  · have htail := congrArg List.tail hpending
    simpa [pending, List.tail_drop] using htail

theorem drains {list : ChunkList} (hne : ∀ chunk ∈ list.pending, chunk ≠ []) :
    Drains list list.pending
      { list with position := list.position + list.pending.length } := by
  generalize hpending : list.pending = chunks at hne
  induction chunks generalizing list with
  | nil => exact .of_pull_empty (next_of_pending_nil hpending)
  | cons chunk chunks ih =>
      obtain ⟨hnext, hrest⟩ := next_of_pending_cons hpending
      have hdrains := ih hrest fun other hmem => hne other (List.mem_cons_of_mem _ hmem)
      rw [List.length_cons, Nat.add_comm chunks.length, ← Nat.add_assoc]
      exact .of_pull hnext (hne chunk (by simp)) hdrains

end ChunkList

end ContentAddress
