import ContentAddress.Bytes
import ContentAddress.Config
import ContentAddress.Text.Layout

/-!
# Buffers and their pool

A buffer holds bytes and has a capacity, which grows by doubling and never shrinks.  Buffers that
are no longer needed are cleared and kept in a pool, from which the one returned last is taken
first.
-/

namespace ContentAddress

open Text (Layout)

structure Buffer where
  data : ByteArray
  capacity : Nat

namespace Buffer

/-- The capacity of a new buffer, enough for one read of default size. -/
def freshCapacity : Nat := defaultReadSize

def fresh : Buffer := ⟨.empty, freshCapacity⟩

def bytes (buffer : Buffer) : Bytes := buffer.data.data.toList

/-- The capacity after growth: at least twice the old one, and enough for `needed` bytes. -/
def grownCapacity (capacity needed : Nat) : Nat :=
  if needed ≤ capacity then capacity else max (2 * capacity) needed

/-- Appends the bytes of a chunk to `data`, one after the other. -/
def pushAll (data : ByteArray) (chunk : Bytes) : ByteArray := chunk.foldl ByteArray.push data

def pushZeros : Nat → ByteArray → ByteArray
  | 0, data => data
  | count + 1, data => pushZeros count (data.push 0)

@[simp] theorem toList_pushAll (data : ByteArray) (chunk : Bytes) :
    (pushAll data chunk).data.toList = data.data.toList ++ chunk := by
  induction chunk generalizing data with
  | nil => simp [pushAll]
  | cons byte chunk ih =>
      have h := ih (data.push byte)
      simpa [pushAll, ByteArray.data_push] using h

@[simp] theorem toList_pushZeros (count : Nat) (data : ByteArray) :
    (pushZeros count data).data.toList = data.data.toList ++ List.replicate count 0 := by
  induction count generalizing data with
  | zero => simp [pushZeros]
  | succ count ih => simp [pushZeros, ih, ByteArray.data_push, List.replicate_succ]

def append (buffer : Buffer) (chunk : Bytes) : Buffer :=
  let data := pushAll buffer.data chunk
  { data, capacity := grownCapacity buffer.capacity data.size }

/-- Cuts the buffer to `size` bytes or fills it up with zeros to that size. -/
def resize (buffer : Buffer) (size : Nat) : Buffer where
  data :=
    if size < buffer.data.size then buffer.data.extract 0 size
    else pushZeros (size - buffer.data.size) buffer.data
  capacity := grownCapacity buffer.capacity size

def clear (buffer : Buffer) : Buffer := { buffer with data := .empty }

@[simp] theorem bytes_fresh : fresh.bytes = [] := rfl

@[simp] theorem bytes_clear (buffer : Buffer) : buffer.clear.bytes = [] := rfl

@[simp] theorem bytes_append (buffer : Buffer) (chunk : Bytes) :
    (buffer.append chunk).bytes = buffer.bytes ++ chunk := by
  simp [bytes, append]

/-- The buffer in descriptions, which do not show its bytes. -/
def layout (buffer : Buffer) : Layout :=
  .record "Buffer"
    [("len", .number buffer.data.size), ("capacity", .number buffer.capacity)]

end Buffer

/-- The buffers that wait to be used again, the one returned last in front. -/
structure Pool where
  idle : List Buffer

namespace Pool

def maxIdle : Nat := 4

/-- A buffer that grew beyond this capacity, 1 MiB, is given up instead of being kept. -/
def retainLimit : Nat := 1024 * 1024

def empty : Pool := ⟨[]⟩

/-- Takes the buffer that was returned last, or a new one if none waits. -/
def take (pool : Pool) : Buffer × Pool :=
  match pool.idle with
  | [] => (.fresh, pool)
  | buffer :: idle => (buffer, ⟨idle⟩)

/-- Takes a buffer back: it is cleared and waits for its next use, unless it has grown too large or
enough buffers wait already. -/
def give (pool : Pool) (buffer : Buffer) : Pool :=
  if buffer.capacity ≤ retainLimit ∧ pool.idle.length < maxIdle then ⟨buffer.clear :: pool.idle⟩
  else pool

end Pool

end ContentAddress
