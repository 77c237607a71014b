import ContentAddress.Proofs.ReadVerdict

/-!
# Limits of the pool and of the buffers taken from it

Sources over readers and puts take their buffers from one pool, at any time and in any order.  Taken
apart, all that they do to a buffer is to resize it, to overwrite it in place and to append to it,
so what holds of all traffic with the pool holds of them.  What the size of a reader's buffer is,
and how far its capacity can have grown, follows from the moment it was taken: a waiting buffer is
so small that doubling it does not go beyond the largest read size.  None of this depends on what a
reader answers, nor on whether it ever comes to an answer.
-/

namespace ContentAddress

universe u v

open Source

/-! ## The buffer of a source over a reader -/

namespace ReadSource

theorem clampReadSize_eq (requested : Nat) :
    clampReadSize requested = max 1 (min requested (16 * 1024 * 1024)) :=
  rfl

theorem clampReadSize_le (requested : Nat) : clampReadSize requested ≤ maxReadSize := by
  unfold clampReadSize maxReadSize
  omega

variable {ρ : Type u} {source : ReadSource ρ} {requested : Nat} {pulled : Bool}

theorem size_asking (source : ReadSource ρ) : source.asking.size = source.readSize :=
  Buffer.size_resize _ _

/-- The buffer of a source that was opened with this requested read size, and pulled from since or
not. -/
structure Sized (source : ReadSource ρ) (requested : Nat) (pulled : Bool) : Prop where
  readSize_eq : source.readSize = clampReadSize requested
  size_eq : source.buffer.data.size = if pulled then source.readSize else 0
  fits : source.buffer.Fits
  capacity_le : source.buffer.capacity ≤ if pulled then maxReadSize else Pool.retainLimit
  unfinished : pulled = false → source.finished = false

/-- A request makes the buffer large enough, and the reader overwrites it. -/
theorem Sized.overwrite {after : ReadSource ρ} {data : ByteArray}
    (h : source.Sized requested pulled) (hdata : data.size = source.readSize)
    (hbuffer : after.buffer = ⟨data, (source.buffer.resize source.readSize).capacity⟩)
    (hreadSize : after.readSize = source.readSize) : after.Sized requested true := by
  have hclamp := clampReadSize_le requested
  have hfits : (source.buffer.resize source.readSize).Fits := (Buffer.Use.resize _ _).fits h.fits
  refine ⟨hreadSize.trans h.readSize_eq, ?_, ?_, ?_, nofun⟩
  · rw [hbuffer, hreadSize, if_pos rfl, hdata]
  · have hroom := hfits.2
    rw [Buffer.size_resize] at hroom
    rw [hbuffer]
    exact ⟨hfits.1, hdata ▸ hroom⟩
  · have hcapacity := h.capacity_le
    rw [hbuffer, if_pos rfl]
    change Buffer.grownCapacity source.buffer.capacity source.readSize ≤ maxReadSize
    rw [Buffer.grownCapacity, h.readSize_eq]
    split
    · cases pulled with
      | true => exact hcapacity
      | false => exact Nat.le_trans hcapacity (by decide)
    · next hgrows =>
      -- Only the first request can make the buffer grow.
      cases pulled with
      | true =>
          have hold := h.size_eq
          rw [if_pos rfl, h.readSize_eq] at hold
          exact absurd (hold ▸ h.fits.2) hgrows
      | false =>
          have hdouble : 2 * Pool.retainLimit ≤ maxReadSize := by decide
          rw [if_neg Bool.false_ne_true] at hcapacity
          omega

variable [Reader ρ]

theorem pull_of_finished (answers : Source.Answers source) (hfinished : source.finished = true) :
    Source.pull source answers = { chunk := [], source } := by
  obtain ⟨reader, buffer, readSize, counted, error, finished⟩ := source
  subst hfinished
  rfl

section Unfinished

variable (settles : Reader.Settles source.reader source.asking) (answers : Source.Answers source)
  (hfinished : source.finished = false)

include hfinished

theorem buffer_pull :
    (Source.pull source answers).source.buffer = (source.answered settles).buffer := by
  rw [pull_eq settles answers hfinished]
  split <;> rfl

omit settles in
theorem readSize_pull : (Source.pull source answers).source.readSize = source.readSize := by
  rw [pull_eq (answers hfinished).settles answers hfinished]
  split <;> rfl

end Unfinished

theorem size_answered (settles : Reader.Settles source.reader source.asking) :
    (source.answered settles).buffer.data.size = source.readSize :=
  (Reader.size_readThrough settles).trans source.size_asking

/-- The source after a single request, in the middle of a pull: the buffer has its size and the
reader has been asked, and what it has answered is not looked at.  Pulls that never come to an end
go on from here. -/
def ask (source : ReadSource ρ) : ReadSource ρ :=
  let reply := Reader.read source.reader source.asking
  { source with
    reader := reply.reader
    buffer := ⟨reply.buffer, (source.buffer.resize source.readSize).capacity⟩ }

theorem size_ask : source.ask.buffer.data.size = source.readSize :=
  (Reader.size_read source.reader source.asking).trans source.size_asking

theorem Sized.ask (h : source.Sized requested pulled) : source.ask.Sized requested true :=
  h.overwrite size_ask rfl rfl

omit [Reader ρ] in
theorem Sized.takeError (h : source.Sized requested pulled) :
    source.takeError.2.Sized requested pulled :=
  ⟨h.readSize_eq, h.size_eq, h.fits, h.capacity_le, h.unfinished⟩

theorem Sized.pull (h : source.Sized requested pulled) (answers : Source.Answers source) :
    (Source.pull source answers).source.Sized requested true := by
  cases hfinished : source.finished with
  | true =>
      rw [pull_of_finished answers hfinished]
      cases pulled with
      | true => exact h
      | false => exact absurd (h.unfinished rfl) (by simp [hfinished])
  | false =>
      have settles := (answers hfinished).settles
      exact h.overwrite (size_answered settles) (buffer_pull settles answers hfinished)
        (readSize_pull answers hfinished)

theorem Sized.drains {after : ReadSource ρ} {chunks : List Bytes}
    (run : Drains source chunks after) (h : source.Sized requested pulled) :
    after.Sized requested true := by
  induction run generalizing pulled with
  | stop answers => exact h.pull answers
  | more answers _ _ ih => exact ih (h.pull answers)

end ReadSource

/-! ## Readers in the traffic -/

namespace Pool

variable {pool : Pool} {front back : List Buffer} {ρ : Type u}

theorem Traffic.overwrite {source : ReadSource ρ} {data : ByteArray}
    (h : Traffic pool (front ++ source.buffer :: back)) (hdata : data.size = source.readSize) :
    Traffic pool (front ++ ⟨data, (source.buffer.resize source.readSize).capacity⟩ :: back) :=
  (h.use (.resize _ source.readSize)).use
    (.overwrite _ data (hdata.trans (Buffer.size_resize _ _).symm))

theorem Traffic.capacity_take {held : List Buffer} (h : Traffic pool held) :
    pool.take.1.capacity ≤ retainLimit := by
  obtain ⟨idle⟩ := pool
  cases idle with
  | nil =>
      change Buffer.freshCapacity ≤ retainLimit
      decide
  | cons buffer idle => exact h.orderly.idle_retain buffer List.mem_cons_self

theorem Traffic.sized_start {held : List Buffer} (h : Traffic pool held) (reader : ρ)
    (requested : Nat) : (ReadSource.start pool reader requested).1.Sized requested false := by
  have hbytes : pool.take.1.bytes = [] := Reachable.bytes_take ⟨held, h⟩
  refine ⟨rfl, ?_, h.take.orderly.held_fits _ List.mem_cons_self, h.capacity_take, fun _ => rfl⟩
  exact (Buffer.length_bytes _).symm.trans (congrArg List.length hbytes)

variable [Reader ρ] {source : ReadSource ρ}

theorem Traffic.pull (h : Traffic pool (front ++ source.buffer :: back))
    (answers : Source.Answers source) :
    Traffic pool (front ++ (Source.pull source answers).source.buffer :: back) := by
  cases hfinished : source.finished with
  | true =>
      rw [ReadSource.pull_of_finished answers hfinished]
      exact h
  | false =>
      have settles := (answers hfinished).settles
      rw [ReadSource.buffer_pull settles answers hfinished]
      exact h.overwrite (ReadSource.size_answered settles)

theorem Traffic.drains {after : ReadSource ρ} {chunks : List Bytes}
    (run : Drains source chunks after) (h : Traffic pool (front ++ source.buffer :: back)) :
    Traffic pool (front ++ after.buffer :: back) := by
  induction run with
  | stop answers => exact h.pull answers
  | more answers _ _ ih => exact ih (h.pull answers)

/-- Reading to the end takes the buffer of the source and then that of the put, and gives them back
in the opposite order. -/
theorem Traffic.putReader {held : List Buffer} (h : Traffic pool held) (client : Client)
    (reader : ρ) (ends : Ends (client.openReader pool reader).1) :
    Traffic (client.putReader pool reader ends).pool held := by
  obtain ⟨chunks, after, run⟩ := ends.drains
  have hopened : Traffic (client.openReader pool reader).2
      ((client.openReader pool reader).1.buffer :: held) := h.take
  have hput := hopened.put client (client.openReader pool reader).1 ends
  have hdrained := @Traffic.drains _ [] held _ _ _ _ _ run hput
  have hsource := run.source_put client (client.openReader pool reader).2 ends
  simp only [Client.putReader, ReadSource.takeError, ReadSource.close, hsource]
  exact hdrained.give_head

end Pool

/-! ## Whole runs -/

/-- Who holds a buffer: a put that is going on, or a source over a reader, with the read size that
was requested for it and whether it was pulled from. -/
inductive Holder : Type (u + 1)
  | contents (buffer : Buffer)
  | reader {ρ : Type u} [Reader ρ] (requested : Nat) (pulled : Bool) (source : ReadSource ρ)

namespace Holder

def buffer : Holder.{u} → Buffer
  | contents buffer => buffer
  | reader _ _ source => source.buffer

def Sized : Holder.{u} → Prop
  | contents _ => True
  | reader requested pulled source => source.Sized requested pulled

end Holder

/-- What can arise from an empty pool.  A pull or a put that comes to an end is one step, and so is
a single request of a pull that goes on.  The last three cases are the parts of a put that does not
come to an end, or whose source uses the pool itself while it is pulled from. -/
inductive Arises : Pool → List Holder.{u} → Prop
  | start : Arises .empty []
  | openReader {pool : Pool} {holders : List Holder.{u}} (h : Arises pool holders) {ρ : Type u}
      [Reader ρ] (reader : ρ) (requested : Nat) :
      Arises (ReadSource.start pool reader requested).2
        (.reader requested false (ReadSource.start pool reader requested).1 :: holders)
  | next {pool : Pool} {front back : List Holder.{u}} {ρ : Type u} [Reader ρ]
      {requested : Nat} {pulled : Bool} {source : ReadSource ρ}
      (h : Arises pool (front ++ .reader requested pulled source :: back))
      (answers : Source.Answers source) :
      Arises pool (front ++ .reader requested true (Source.pull source answers).source :: back)
  | ask {pool : Pool} {front back : List Holder.{u}} {ρ : Type u} [Reader ρ]
      {requested : Nat} {pulled : Bool} {source : ReadSource ρ}
      (h : Arises pool (front ++ .reader requested pulled source :: back))
      (hfinished : source.finished = false) :
      Arises pool (front ++ .reader requested true source.ask :: back)
  | takeError {pool : Pool} {front back : List Holder.{u}} {ρ : Type u} [Reader ρ]
      {requested : Nat} {pulled : Bool} {source : ReadSource ρ}
      (h : Arises pool (front ++ .reader requested pulled source :: back)) :
      Arises pool (front ++ .reader requested pulled source.takeError.2 :: back)
  | put {pool : Pool} {holders : List Holder.{u}} (h : Arises pool holders) {σ : Type v} [Source σ]
      (client : Client) (source : σ) (ends : Ends source) :
      Arises (client.put pool source ends).pool holders
  | putOpen {pool : Pool} {front back : List Holder.{u}} {ρ : Type u} [Reader ρ]
      {requested : Nat} {pulled : Bool} {source : ReadSource ρ}
      (h : Arises pool (front ++ .reader requested pulled source :: back)) (client : Client)
      (ends : Ends source) :
      Arises (client.put pool source ends).pool
        (front ++ .reader requested true (client.put pool source ends).source :: back)
  | putReader {pool : Pool} {holders : List Holder.{u}} (h : Arises pool holders) {ρ : Type u}
      [Reader ρ] (client : Client) (reader : ρ)
      (ends : Ends (client.openReader pool reader).1) :
      Arises (client.putReader pool reader ends).pool holders
  | close {pool : Pool} {front back : List Holder.{u}} {ρ : Type u} [Reader ρ]
      {requested : Nat} {pulled : Bool} {source : ReadSource ρ}
      (h : Arises pool (front ++ .reader requested pulled source :: back)) :
      Arises (source.close pool).2 (front ++ back)
  | beginPut {pool : Pool} {holders : List Holder.{u}} (h : Arises pool holders) :
      Arises pool.take.2 (.contents pool.take.1 :: holders)
  | append {pool : Pool} {front back : List Holder.{u}} {buffer : Buffer}
      (h : Arises pool (front ++ .contents buffer :: back)) (chunk : Bytes) :
      Arises pool (front ++ .contents (buffer.append chunk) :: back)
  | finishPut {pool : Pool} {front back : List Holder.{u}} {buffer : Buffer}
      (h : Arises pool (front ++ .contents buffer :: back)) :
      Arises (pool.give buffer) (front ++ back)

namespace Arises

variable {pool : Pool} {holders : List Holder.{u}}

theorem traffic (h : Arises.{u, v} pool holders) :
    Pool.Traffic pool (holders.map Holder.buffer) := by
  induction h with
  | start => exact .start
  | openReader _ reader requested ih => exact ih.take
  | next _ answers ih =>
      rw [List.map_append, List.map_cons] at ih ⊢
      exact Pool.Traffic.pull ih answers
  | ask _ _ ih =>
      rw [List.map_append, List.map_cons] at ih ⊢
      exact Pool.Traffic.overwrite ih ReadSource.size_ask
  | takeError _ ih =>
      rw [List.map_append, List.map_cons] at ih ⊢
      exact ih
  | put _ client source ends ih => exact ih.put client source ends
  | putOpen _ client ends ih =>
      obtain ⟨chunks, after, run⟩ := ends.drains
      rw [List.map_append, List.map_cons] at ih ⊢
      rw [run.source_put]
      exact Pool.Traffic.drains run (ih.put client _ ends)
  | putReader _ client reader ends ih => exact ih.putReader client reader ends
  | close _ ih =>
      rw [List.map_append, List.map_cons] at ih
      rw [List.map_append]
      exact ih.give
  | beginPut _ ih => exact ih.take
  | append _ chunk ih =>
      rw [List.map_append, List.map_cons] at ih ⊢
      exact ih.use (.append _ chunk)
  | finishPut _ ih =>
      rw [List.map_append, List.map_cons] at ih
      rw [List.map_append]
      exact ih.give

theorem sized (h : Arises.{u, v} pool holders) : ∀ holder ∈ holders, holder.Sized := by
  induction h with
  | start => simp
  | openReader h reader requested ih =>
      exact List.forall_mem_cons.2 ⟨h.traffic.sized_start reader requested, ih⟩
  | next _ answers ih =>
      rw [List.forall_mem_append, List.forall_mem_cons] at ih ⊢
      exact ⟨ih.1, ReadSource.Sized.pull ih.2.1 answers, ih.2.2⟩
  | ask _ _ ih =>
      rw [List.forall_mem_append, List.forall_mem_cons] at ih ⊢
      exact ⟨ih.1, ReadSource.Sized.ask ih.2.1, ih.2.2⟩
  | takeError _ ih =>
      rw [List.forall_mem_append, List.forall_mem_cons] at ih ⊢
      exact ⟨ih.1, ReadSource.Sized.takeError ih.2.1, ih.2.2⟩
  | put _ _ _ _ ih => exact ih
  | putOpen _ client ends ih =>
      obtain ⟨chunks, after, run⟩ := ends.drains
      rw [List.forall_mem_append, List.forall_mem_cons] at ih ⊢
      rw [run.source_put]
      exact ⟨ih.1, ReadSource.Sized.drains run ih.2.1, ih.2.2⟩
  | putReader _ _ _ _ ih => exact ih
  | close _ ih =>
      rw [List.forall_mem_append, List.forall_mem_cons] at ih
      exact List.forall_mem_append.2 ⟨ih.1, ih.2.2⟩
  | beginPut _ ih => exact List.forall_mem_cons.2 ⟨trivial, ih⟩
  | append _ _ ih =>
      rw [List.forall_mem_append, List.forall_mem_cons] at ih ⊢
      exact ⟨ih.1, trivial, ih.2.2⟩
  | finishPut _ ih =>
      rw [List.forall_mem_append, List.forall_mem_cons] at ih
      exact List.forall_mem_append.2 ⟨ih.1, ih.2.2⟩

/-- At most four buffers wait, all of them empty, with a capacity from 8 KiB to 1 MiB.  The buffer of
an open source over a reader is empty before the first pull and has the size of one read after it:
what was requested, but at least one byte and at most 16 MiB.  It never grows beyond 16 MiB. -/
theorem within_limits (h : Arises.{u, v} pool holders) :
    pool.idle.length ≤ 4 ∧
      (∀ buffer ∈ pool.idle, buffer.data.size = 0 ∧ 8192 ≤ buffer.capacity ∧
        buffer.capacity ≤ 1024 * 1024) ∧
      ∀ (ρ : Type u) [Reader ρ] (requested : Nat) (pulled : Bool) (source : ReadSource ρ),
        .reader requested pulled source ∈ holders →
        source.buffer.data.size =
            (if pulled then max 1 (min requested (16 * 1024 * 1024)) else 0) ∧
          source.buffer.data.size ≤ source.buffer.capacity ∧
          8192 ≤ source.buffer.capacity ∧ source.buffer.capacity ≤ 16 * 1024 * 1024 := by
  have horderly := h.traffic.orderly
  refine ⟨horderly.idle_length, ?_, ?_⟩
  · intro buffer hmem
    refine ⟨?_, horderly.idle_fresh buffer hmem, horderly.idle_retain buffer hmem⟩
    rw [← buffer.length_bytes, horderly.idle_bytes buffer hmem]
    rfl
  · intro ρ _ requested pulled source hmem
    have hsized : source.Sized requested pulled := h.sized _ hmem
    refine ⟨?_, hsized.fits.2, hsized.fits.1, ?_⟩
    · rw [hsized.size_eq, hsized.readSize_eq, ReadSource.clampReadSize_eq]
    · have hcapacity := hsized.capacity_le
      cases pulled with
      | true => exact hcapacity
      | false => exact Nat.le_trans hcapacity (by decide)

/-- A source asked for reads of two bytes is pulled from, and a reader that fails is put while the
source is open. -/
theorem within_limits_while_open :
    let script : Script := { steps := [.interrupt, .data [97, 98, 99]] }
    let broken : Script := { steps := [.data [100], .fail { kind := .brokenPipe }] }
    let opened := ReadSource.start .empty script 2
    let pulled := (Source.next opened.1).source
    let receipt := Client.default.putReader opened.2 broken (Finite.ends _)
    Arises.{0, 0} receipt.pool [.reader 2 true pulled] ∧ receipt.pool.idle.length ≤ 4 ∧
      pulled.buffer.data.size = 2 ∧ pulled.buffer.capacity ≤ 16 * 1024 * 1024 := by
  intro script broken opened pulled receipt
  have hopened : Arises.{0, 0} opened.2 [.reader 2 false opened.1] := .openReader .start script 2
  have hpulled : Arises.{0, 0} opened.2 [.reader 2 true pulled] :=
    @Arises.next _ [] [] _ _ 2 false opened.1 hopened (Prompt.answers opened.1)
  have harises : Arises.{0, 0} receipt.pool [.reader 2 true pulled] :=
    hpulled.putReader Client.default broken (Finite.ends _)
  obtain ⟨hidle, -, hreader⟩ := within_limits harises
  obtain ⟨hsize, -, -, hcapacity⟩ := hreader Script 2 true pulled List.mem_cons_self
  exact ⟨harises, hidle, hsize, hcapacity⟩

end Arises

end ContentAddress
