import ContentAddress.Client

/-!
# Traffic between a pool and the buffers in use

A pool is only ever touched by taking a buffer and by giving one back.  In between, the holder may
append to the buffer, resize it and overwrite it in place.  The pools that arise this way from an
empty one are the reachable ones, and what can be relied on in them is proved here once, over every
order in which any number of holders take, use and give back.
-/

namespace ContentAddress

namespace Buffer

theorem le_grownCapacity (capacity needed : Nat) : capacity ≤ grownCapacity capacity needed := by
  unfold grownCapacity
  split <;> omega

theorem needed_le_grownCapacity (capacity needed : Nat) :
    needed ≤ grownCapacity capacity needed := by
  unfold grownCapacity
  split <;> omega

theorem length_bytes (buffer : Buffer) : buffer.bytes.length = buffer.data.size := by
  simp [bytes]

theorem size_pushZeros (count : Nat) (data : ByteArray) :
    (pushZeros count data).size = data.size + count := by
  have hlist := congrArg List.length (toList_pushZeros count data)
  rw [List.length_append, List.length_replicate] at hlist
  simpa only [Array.length_toList, ByteArray.size_data] using hlist

@[simp] theorem size_resize (buffer : Buffer) (size : Nat) :
    (buffer.resize size).data.size = size := by
  unfold resize
  dsimp only
  split
  · rw [ByteArray.size_extract]
    omega
  · rw [size_pushZeros]
    omega

/-- What the holder of a buffer may do to it. -/
inductive Use : Buffer → Buffer → Prop
  | append (buffer : Buffer) (chunk : Bytes) : Use buffer (buffer.append chunk)
  | resize (buffer : Buffer) (size : Nat) : Use buffer (buffer.resize size)
  | overwrite (buffer : Buffer) (data : ByteArray) (hsize : data.size = buffer.data.size) :
      Use buffer { buffer with data }

/-- The bytes fit, and the capacity has not fallen below that of a new buffer. -/
def Fits (buffer : Buffer) : Prop :=
  freshCapacity ≤ buffer.capacity ∧ buffer.data.size ≤ buffer.capacity

theorem fits_fresh : fresh.Fits := ⟨Nat.le_refl _, Nat.zero_le _⟩

theorem Use.fits {before after : Buffer} (huse : Use before after) (hfits : before.Fits) :
    after.Fits := by
  obtain ⟨hfresh, hsize⟩ := hfits
  cases huse with
  | append chunk =>
      exact ⟨Nat.le_trans hfresh (le_grownCapacity _ _), needed_le_grownCapacity _ _⟩
  | resize size =>
      refine ⟨Nat.le_trans hfresh (le_grownCapacity _ _), ?_⟩
      rw [size_resize]
      exact needed_le_grownCapacity _ _
  | overwrite data hdata =>
      exact ⟨hfresh, by rwa [hdata]⟩

end Buffer

namespace Pool

/-- The pool and the list of buffers in use that arise from an empty pool, in any order of taking,
using and giving back. -/
inductive Traffic : Pool → List Buffer → Prop
  | start : Traffic .empty []
  | take {pool : Pool} {held : List Buffer} (h : Traffic pool held) :
      Traffic pool.take.2 (pool.take.1 :: held)
  | use {pool : Pool} {front back : List Buffer} {before after : Buffer}
      (h : Traffic pool (front ++ before :: back)) (huse : Buffer.Use before after) :
      Traffic pool (front ++ after :: back)
  | give {pool : Pool} {front back : List Buffer} {buffer : Buffer}
      (h : Traffic pool (front ++ buffer :: back)) : Traffic (pool.give buffer) (front ++ back)

def Reachable (pool : Pool) : Prop := ∃ held, Traffic pool held

structure Orderly (pool : Pool) (held : List Buffer) : Prop where
  idle_length : pool.idle.length ≤ maxIdle
  idle_bytes : ∀ buffer ∈ pool.idle, buffer.bytes = []
  idle_fresh : ∀ buffer ∈ pool.idle, Buffer.freshCapacity ≤ buffer.capacity
  idle_retain : ∀ buffer ∈ pool.idle, buffer.capacity ≤ retainLimit
  held_fits : ∀ buffer ∈ held, buffer.Fits

theorem orderly_empty : Orderly .empty [] := by
  constructor <;> simp [empty]

theorem Orderly.take {pool : Pool} {held : List Buffer} (h : Orderly pool held) :
    Orderly pool.take.2 (pool.take.1 :: held) := by
  obtain ⟨idle⟩ := pool
  cases idle with
  | nil => exact { h with held_fits := List.forall_mem_cons.2 ⟨Buffer.fits_fresh, h.held_fits⟩ }
  | cons buffer idle =>
      have hfits : buffer.Fits := by
        refine ⟨h.idle_fresh buffer (by simp), ?_⟩
        rw [← buffer.length_bytes, h.idle_bytes buffer (by simp)]
        exact Nat.zero_le _
      exact {
        idle_length := Nat.le_trans (Nat.le_succ _) h.idle_length
        idle_bytes := fun other hmem => h.idle_bytes other (List.mem_cons_of_mem _ hmem)
        idle_fresh := fun other hmem => h.idle_fresh other (List.mem_cons_of_mem _ hmem)
        idle_retain := fun other hmem => h.idle_retain other (List.mem_cons_of_mem _ hmem)
        held_fits := List.forall_mem_cons.2 ⟨hfits, h.held_fits⟩ }

theorem Orderly.use {pool : Pool} {front back : List Buffer} {before after : Buffer}
    (h : Orderly pool (front ++ before :: back)) (huse : Buffer.Use before after) :
    Orderly pool (front ++ after :: back) := by
  refine { h with held_fits := fun buffer hmem => ?_ }
  rcases List.mem_append.1 hmem with hfront | hback
  · exact h.held_fits buffer (List.mem_append_left _ hfront)
  · rcases List.mem_cons.1 hback with rfl | hback
    · exact huse.fits (h.held_fits before (by simp))
    · exact h.held_fits buffer (by simp [hback])

/-- A buffer that comes back is cleared first, so what its holder stored in it does not matter. -/
theorem Orderly.give {pool : Pool} {front back : List Buffer} {buffer : Buffer}
    (h : Orderly pool (front ++ buffer :: back)) : Orderly (pool.give buffer) (front ++ back) := by
  have hheld : ∀ other ∈ front ++ back, other.Fits := by
    intro other hmem
    refine h.held_fits other ?_
    rcases List.mem_append.1 hmem with hfront | hback
    · exact List.mem_append_left _ hfront
    · exact List.mem_append_right _ (List.mem_cons_of_mem _ hback)
  unfold Pool.give
  split
  · -- Room and a small enough capacity are what the pool asks of a buffer that it keeps.
    next hkeep =>
    obtain ⟨hretain, hroom⟩ := hkeep
    exact {
      idle_length := hroom
      idle_bytes := List.forall_mem_cons.2 ⟨buffer.bytes_clear, h.idle_bytes⟩
      idle_fresh := List.forall_mem_cons.2 ⟨(h.held_fits buffer (by simp)).1, h.idle_fresh⟩
      idle_retain := List.forall_mem_cons.2 ⟨hretain, h.idle_retain⟩
      held_fits := hheld }
  · exact { h with held_fits := hheld }

theorem Traffic.orderly {pool : Pool} {held : List Buffer} (h : Traffic pool held) :
    Orderly pool held := by
  induction h with
  | start => exact orderly_empty
  | take _ ih => exact ih.take
  | use _ huse ih => exact ih.use huse
  | give _ ih => exact ih.give

theorem reachable_empty : Reachable .empty := ⟨[], .start⟩

theorem Reachable.take {pool : Pool} (h : Reachable pool) : pool.take.2.Reachable := by
  obtain ⟨held, h⟩ := h
  exact ⟨pool.take.1 :: held, h.take⟩

theorem Reachable.bytes_take {pool : Pool} (h : Reachable pool) : pool.take.1.bytes = [] := by
  obtain ⟨held, h⟩ := h
  obtain ⟨idle⟩ := pool
  cases idle with
  | nil => exact Buffer.bytes_fresh
  | cons buffer idle => exact h.orderly.idle_bytes buffer (by simp)

end Pool

end ContentAddress
