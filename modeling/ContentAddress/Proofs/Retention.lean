import ContentAddress.Proofs.PoolLimits
import ContentAddress.Source.Playback
import Mathlib.Data.List.Induction

/-!
# Buffers that come back to the pool

A put takes the buffer in front, appends all chunks to it and gives it back.  How often the buffer
grows on the way depends on the chunks, but in the end it either has its old capacity or less than
twice the bytes that it holds, so the length of the content bounds what is kept.  Reading to the end
takes two buffers, and gives them back in the opposite order; the next reading finds each of them in
its old place and, unless it reads more, leaves the pool as it was.
-/

namespace ContentAddress

universe u v

open Source

/-! ## Growth -/

namespace Buffer

theorem grownCapacity_of_le {capacity needed : Nat} (h : needed ≤ capacity) :
    grownCapacity capacity needed = capacity :=
  if_pos h

theorem clear_congr {buffer other : Buffer} (h : buffer.capacity = other.capacity) :
    buffer.clear = other.clear :=
  congrArg (Buffer.mk .empty) h

theorem size_append (buffer : Buffer) (chunk : Bytes) :
    (buffer.append chunk).data.size = buffer.data.size + chunk.length := by
  rw [← length_bytes, ← length_bytes, bytes_append, List.length_append]

theorem capacity_append (buffer : Buffer) (chunk : Bytes) :
    (buffer.append chunk).capacity =
      grownCapacity buffer.capacity (buffer.data.size + chunk.length) := by
  rw [← size_append]
  rfl

theorem size_foldl_append (chunks : List Bytes) (buffer : Buffer) :
    (chunks.foldl append buffer).data.size = buffer.data.size + chunks.flatten.length := by
  rw [← length_bytes, ← length_bytes, bytes_foldl_append, List.length_append]

/-- The capacity is the old one as long as that is enough, and less than twice the size once it was
not. -/
theorem capacity_foldl_append {buffer : Buffer} (h : buffer.data.size ≤ buffer.capacity)
    (chunks : List Bytes) :
    ((chunks.foldl append buffer).data.size ≤ buffer.capacity ∧
        (chunks.foldl append buffer).capacity = buffer.capacity) ∨
      (buffer.capacity < (chunks.foldl append buffer).data.size ∧
        (chunks.foldl append buffer).data.size ≤ (chunks.foldl append buffer).capacity ∧
        (chunks.foldl append buffer).capacity < 2 * (chunks.foldl append buffer).data.size) := by
  induction chunks using List.reverseRecOn with
  | nil => exact .inl ⟨h, rfl⟩
  | append_singleton chunks chunk ih =>
      rw [List.foldl_append, List.foldl_cons, List.foldl_nil, size_append, capacity_append,
        grownCapacity]
      generalize chunks.foldl append buffer = grown at ih ⊢
      rcases ih with ⟨hsize, hcapacity⟩ | ⟨hgrew, hsize, hcapacity⟩
      · rw [hcapacity]
        split <;> omega
      · -- Having grown once, the buffer is never much larger than its content.
        refine .inr ⟨by omega, ?_⟩
        split <;> omega

end Buffer

/-! ## Taking and giving back -/

namespace Pool

variable {pool : Pool}

theorem idle_take (pool : Pool) : pool.take.2.idle = pool.idle.tail := by
  obtain ⟨_ | ⟨buffer, idle⟩⟩ := pool <;> rfl

theorem capacity_take (pool : Pool) :
    pool.take.1.capacity = (pool.idle.head?.map Buffer.capacity).getD Buffer.freshCapacity := by
  obtain ⟨_ | ⟨buffer, idle⟩⟩ := pool <;> rfl

theorem idle_give_of_le {buffer : Buffer} (hcapacity : buffer.capacity ≤ retainLimit)
    (hroom : pool.idle.length < maxIdle) :
    (pool.give buffer).idle = buffer.clear :: pool.idle := by
  rw [give, if_pos ⟨hcapacity, hroom⟩]

theorem give_of_lt {buffer : Buffer} (h : retainLimit < buffer.capacity) :
    pool.give buffer = pool :=
  if_neg fun hkeep => Nat.not_le_of_lt h hkeep.1

theorem Reachable.idle_length (h : pool.Reachable) : pool.idle.length ≤ maxIdle := by
  obtain ⟨held, h⟩ := h
  exact h.orderly.idle_length

theorem Reachable.size_take (h : pool.Reachable) : pool.take.1.data.size = 0 := by
  rw [← Buffer.length_bytes, h.bytes_take]
  rfl

theorem Reachable.capacity_take_le (h : pool.Reachable) : pool.take.1.capacity ≤ retainLimit := by
  obtain ⟨held, h⟩ := h
  exact h.capacity_take

/-- Whoever has taken a buffer finds room for it. -/
theorem Reachable.length_tail_lt (h : pool.Reachable) : pool.idle.tail.length < maxIdle := by
  have hlength := h.idle_length
  have hpos : 0 < maxIdle := by decide
  rw [List.length_tail]
  omega

end Pool

/-! ## One put -/

section Put

variable {σ : Type u} [Source σ] {source after : σ} {chunks : List Bytes} {pool : Pool}

/-- The buffer of a put, in the end. -/
def gathered (pool : Pool) (source : σ) (ends : Ends source) : Buffer :=
  (drain source ends pool.take.1 0 #[]).contents

theorem Pool.Reachable.idle_put (hpool : pool.Reachable) (client : Client) (ends : Ends source)
    (hcapacity : (gathered pool source ends).capacity ≤ retainLimit) :
    (client.put pool source ends).pool.idle =
      (gathered pool source ends).clear :: pool.idle.tail := by
  have hroom := hpool.length_tail_lt
  rw [← idle_take] at hroom ⊢
  exact idle_give_of_le hcapacity hroom

theorem Source.Drains.gathered_eq (run : Drains source chunks after) (pool : Pool)
    (ends : Ends source) : gathered pool source ends = chunks.foldl Buffer.append pool.take.1 := by
  obtain ⟨happened, hdrain⟩ := run.drain_eq ends pool.take.1 0 #[]
  rw [gathered, hdrain]

theorem Source.Drains.capacity_gathered (run : Drains source chunks after)
    (hempty : pool.take.1.data.size = 0) (ends : Ends source) :
    (chunks.flatten.length ≤ pool.take.1.capacity ∧
        (gathered pool source ends).capacity = pool.take.1.capacity) ∨
      (pool.take.1.capacity < chunks.flatten.length ∧
        chunks.flatten.length ≤ (gathered pool source ends).capacity ∧
        (gathered pool source ends).capacity < 2 * chunks.flatten.length) := by
  have hgrowth := Buffer.capacity_foldl_append (hempty ▸ Nat.zero_le _) chunks
  rwa [Buffer.size_foldl_append, hempty, Nat.zero_add, ← run.gathered_eq pool ends] at hgrowth

theorem Source.Drains.capacity_gathered_of_le (run : Drains source chunks after)
    (hempty : pool.take.1.data.size = 0) (ends : Ends source)
    (h : chunks.flatten.length ≤ pool.take.1.capacity) :
    (gathered pool source ends).capacity = pool.take.1.capacity := by
  rcases run.capacity_gathered hempty ends with ⟨-, hsame⟩ | ⟨hlt, -⟩
  · exact hsame
  · exact absurd h (Nat.not_le_of_lt hlt)

theorem Source.Drains.capacity_gathered_of_lt (run : Drains source chunks after)
    (hempty : pool.take.1.data.size = 0) (ends : Ends source)
    (h : pool.take.1.capacity < chunks.flatten.length) :
    chunks.flatten.length ≤ (gathered pool source ends).capacity ∧
      (gathered pool source ends).capacity < 2 * chunks.flatten.length := by
  rcases run.capacity_gathered hempty ends with ⟨hle, -⟩ | ⟨-, hbounds⟩
  · exact absurd h (Nat.not_lt_of_le hle)
  · exact hbounds

theorem Source.Drains.length_le_capacity_gathered (run : Drains source chunks after)
    (hempty : pool.take.1.data.size = 0) (ends : Ends source) :
    chunks.flatten.length ≤ (gathered pool source ends).capacity := by
  rcases run.capacity_gathered hempty ends with ⟨hle, hsame⟩ | ⟨-, hle, -⟩
  · exact hsame ▸ hle
  · exact hle

/-- The buffer of a put keeps its capacity if the content fits into it, and otherwise ends with less
than twice the capacity that the content needs, however it was cut.  So it comes back to the front
of the pool after at most 512 KiB, and never after more than 1 MiB.  If it does not come back, the
pool is as the put found it without the buffer in front. -/
theorem put_retains (client : Client) {pool : Pool} (hpool : pool.Reachable)
    (run : Drains source chunks after) :
    let taken := pool.take.1
    let contents := gathered pool source run.ends
    let size := chunks.flatten.length
    let left := (client.put pool source run.ends).pool.idle
    taken.capacity = (pool.idle.head?.map Buffer.capacity).getD 8192 ∧
    (size ≤ taken.capacity → contents.capacity = taken.capacity) ∧
    (taken.capacity < size → size ≤ contents.capacity ∧ contents.capacity < 2 * size) ∧
    pool.take.2.idle = pool.idle.tail ∧ pool.take.2.idle.length < Pool.maxIdle ∧
    (contents.capacity ≤ Pool.retainLimit → left = contents.clear :: pool.idle.tail) ∧
    (Pool.retainLimit < contents.capacity → left = pool.idle.tail) ∧
    (size ≤ 512 * 1024 → left = contents.clear :: pool.idle.tail) ∧
    (1024 * 1024 < size → left = pool.idle.tail) := by
  intro taken contents size left
  have hempty := hpool.size_take
  have hsame : size ≤ taken.capacity → contents.capacity = taken.capacity :=
    run.capacity_gathered_of_le hempty run.ends
  have hgrown : taken.capacity < size → size ≤ contents.capacity ∧ contents.capacity < 2 * size :=
    run.capacity_gathered_of_lt hempty run.ends
  have htaken : taken.capacity ≤ Pool.retainLimit := hpool.capacity_take_le
  have hroom : pool.take.2.idle.length < Pool.maxIdle := by
    rw [Pool.idle_take]
    exact hpool.length_tail_lt
  have hkept : contents.capacity ≤ Pool.retainLimit → left = contents.clear :: pool.idle.tail :=
    hpool.idle_put client run.ends
  have hgone : Pool.retainLimit < contents.capacity → left = pool.idle.tail := fun hcapacity =>
    (congrArg Pool.idle (Pool.give_of_lt hcapacity)).trans (Pool.idle_take pool)
  refine ⟨Pool.capacity_take pool, hsame, hgrown, Pool.idle_take pool, hroom, hkept, hgone, ?_, ?_⟩
  · intro hsize
    apply hkept
    rcases Nat.lt_or_ge taken.capacity size with hlt | hle
    · obtain ⟨-, hdouble⟩ := hgrown hlt
      rw [Pool.retainLimit]
      omega
    · rw [hsame hle]
      exact htaken
  · intro hsize
    apply hgone
    -- A buffer of the pool is too small for so much.
    obtain ⟨hle, -⟩ := hgrown (Nat.lt_of_le_of_lt htaken hsize)
    exact Nat.lt_of_lt_of_le hsize hle

/-- The second chunk goes beyond a new buffer by one byte. -/
theorem put_retains_grown :
    let chunks : List Bytes := [List.replicate 8000 0, List.replicate 193 1]
    let source : Playback := { left := chunks }
    Pool.empty.Reachable ∧ ∃ run : Drains source chunks ⟨[], 3⟩,
      let contents := gathered .empty source run.ends
      8193 ≤ contents.capacity ∧ contents.capacity < 16386 ∧
        (Client.default.put .empty source run.ends).pool.idle = [contents.clear] := by
  intro chunks source
  have hfilled : ∀ (count : Nat) (byte : UInt8), 0 < count → List.replicate count byte ≠ [] :=
    fun count byte hcount => List.ne_nil_of_length_pos (List.length_replicate.symm ▸ hcount)
  have run : Drains source chunks ⟨[], 3⟩ :=
    .more trivial (hfilled 8000 0 (by decide))
      (.more trivial (hfilled 193 1 (by decide)) (.stop trivial rfl))
  have hsize : chunks.flatten.length = 8193 := by
    rw [List.flatten_cons, List.flatten_cons, List.flatten_nil, List.append_nil,
      List.length_append, List.length_replicate, List.length_replicate]
  obtain ⟨-, -, hgrown, -, -, -, -, hkept, -⟩ :=
    put_retains Client.default Pool.reachable_empty run
  rw [hsize] at hgrown hkept
  obtain ⟨hle, hlt⟩ := hgrown (by decide)
  exact ⟨Pool.reachable_empty, run, hle, hlt, hkept (by decide)⟩

/-- A put whose content fits into the buffer in front leaves the pool as it was. -/
theorem Source.Drains.pool_put_of_fits (run : Drains source chunks after) (client : Client)
    {contents : Buffer} {idle : List Buffer} (hcapacity : contents.capacity ≤ Pool.retainLimit)
    (hroom : idle.length < Pool.maxIdle) (hsize : chunks.flatten.length ≤ contents.capacity)
    (ends : Ends source) :
    (client.put ⟨contents.clear :: idle⟩ source ends).pool = ⟨contents.clear :: idle⟩ := by
  have hsame : (gathered ⟨contents.clear :: idle⟩ source ends).capacity = contents.capacity :=
    run.capacity_gathered_of_le rfl ends hsize
  have hidle := @Pool.idle_give_of_le ⟨idle⟩ _ (hsame ▸ hcapacity) hroom
  rw [Buffer.clear_congr hsame] at hidle
  exact congrArg Pool.mk hidle

end Put

/-! ## One reading -/

section Reading

variable {ρ : Type u} [Reader ρ] {client : Client} {pool : Pool} {reader : ρ}
  {after : ReadSource ρ} {chunks : List Bytes}

namespace ReadSource

theorem clampReadSize_mono {requested more : Nat} (h : requested ≤ more) :
    clampReadSize requested ≤ clampReadSize more := by
  unfold clampReadSize
  omega

theorem capacity_drains {source : ReadSource ρ} (run : Drains source chunks after)
    (h : source.readSize ≤ source.buffer.capacity) :
    after.buffer.capacity = source.buffer.capacity := by
  have hpull : ∀ (source : ReadSource ρ) (answers : Source.Answers source),
      source.readSize ≤ source.buffer.capacity →
      (Source.pull source answers).source.buffer.capacity = source.buffer.capacity ∧
        (Source.pull source answers).source.readSize = source.readSize := by
    intro source answers h
    cases hfinished : source.finished with
    | true =>
        rw [pull_of_finished answers hfinished]
        exact ⟨rfl, rfl⟩
    | false =>
        refine ⟨?_, readSize_pull answers hfinished⟩
        rw [buffer_pull (answers hfinished).settles answers hfinished]
        exact Buffer.grownCapacity_of_le h
  induction run with
  | stop answers => exact (hpull _ answers h).1
  | more answers _ _ ih =>
      obtain ⟨hcapacity, hreadSize⟩ := hpull _ answers h
      rw [← hcapacity]
      apply ih
      rwa [hcapacity, hreadSize]

end ReadSource

/-- The buffer of the put is given back before that of the source. -/
theorem Source.Drains.pool_putReader (run : Drains (client.openReader pool reader).1 chunks after)
    (ends : Ends (client.openReader pool reader).1) :
    (client.putReader pool reader ends).pool =
      (client.put pool.take.2 (client.openReader pool reader).1 ends).pool.give after.buffer := by
  have hsource := run.source_put client (client.openReader pool reader).2 ends
  simp only [Client.putReader, ReadSource.takeError, ReadSource.close, hsource]
  rfl

theorem Source.Drains.idle_putReader (run : Drains (client.openReader pool reader).1 chunks after)
    (hpool : pool.Reachable) (ends : Ends (client.openReader pool reader).1)
    (hbuffer : after.buffer.capacity ≤ Pool.retainLimit)
    (hcontents : (gathered pool.take.2 (client.openReader pool reader).1 ends).capacity ≤
      Pool.retainLimit) :
    (client.putReader pool reader ends).pool.idle =
      after.buffer.clear ::
        (gathered pool.take.2 (client.openReader pool reader).1 ends).clear ::
          pool.idle.drop 2 := by
  have hrest : pool.take.2.idle.tail = pool.idle.drop 2 := by
    rw [Pool.idle_take, ← List.drop_one, ← List.drop_one, List.drop_drop]
  have hput := hpool.take.idle_put client ends hcontents
  rw [hrest] at hput
  have hlength := hpool.idle_length
  rw [run.pool_putReader, Pool.idle_give_of_le hbuffer, hput]
  -- Two buffers were taken from the pool, so there is room for both.
  rw [hput, List.length_cons, List.length_drop]
  rw [Pool.maxIdle] at hlength ⊢
  omega

theorem Source.Drains.clampReadSize_le_capacity
    (run : Drains (client.openReader pool reader).1 chunks after) (hpool : pool.Reachable) :
    ReadSource.clampReadSize client.config.readSize ≤ after.buffer.capacity := by
  obtain ⟨held, h⟩ := hpool
  have hsized := (h.sized_start reader client.config.readSize).drains run
  rw [← hsized.readSize_eq]
  have hsize := hsized.size_eq
  rw [if_pos rfl] at hsize
  exact hsize ▸ hsized.fits.2

/-- A reading that reads no more at once than fits into the first buffer, and no more in all than
fits into the second, leaves the pool as it was. -/
theorem Source.Drains.pool_putReader_of_fits {contents buffer : Buffer} {idle : List Buffer}
    (hbuffer : buffer.capacity ≤ Pool.retainLimit)
    (hcontents : contents.capacity ≤ Pool.retainLimit) (hroom : idle.length + 1 < Pool.maxIdle)
    (run : Drains (client.openReader ⟨buffer.clear :: contents.clear :: idle⟩ reader).1 chunks after)
    (hread : ReadSource.clampReadSize client.config.readSize ≤ buffer.capacity)
    (hsize : chunks.flatten.length ≤ contents.capacity)
    (ends : Ends (client.openReader ⟨buffer.clear :: contents.clear :: idle⟩ reader).1) :
    (client.putReader ⟨buffer.clear :: contents.clear :: idle⟩ reader ends).pool =
      ⟨buffer.clear :: contents.clear :: idle⟩ := by
  have hput := run.pool_put_of_fits client hcontents (Nat.lt_of_succ_lt hroom) hsize ends
  have hsame : after.buffer.capacity = buffer.capacity := ReadSource.capacity_drains run hread
  have hidle := @Pool.idle_give_of_le ⟨contents.clear :: idle⟩ _ (hsame ▸ hbuffer) hroom
  rw [Buffer.clear_congr hsame] at hidle
  rw [run.pool_putReader]
  exact (congrArg (fun left : Pool => left.give after.buffer) hput).trans (congrArg Pool.mk hidle)

end Reading

/-- After one put whose buffer comes back, that buffer is in front, and puts of content that fits
into it leave the pool as it was.  After one reading whose buffers both come back, the buffer of the
reads is in front and that of the put behind it, so the next reading takes each for what it was
before; unless it reads more, it leaves the pool as it was. -/
theorem pool_steady (client : Client) {pool : Pool} (hpool : pool.Reachable) :
    (∀ {σ : Type u} [Source σ] {source after : σ} {chunks : List Bytes}
      (run : Drains source chunks after),
      let contents := gathered pool source run.ends
      let left := (client.put pool source run.ends).pool
      contents.capacity ≤ Pool.retainLimit →
        left.idle = contents.clear :: pool.idle.tail ∧
        left.idle.length = max 1 pool.idle.length ∧
        ∀ {τ : Type v} [Source τ] (other : Client) {next last : τ} {more : List Bytes}
          (run' : Drains next more last), more.flatten.length ≤ contents.capacity →
          (other.put left next run'.ends).pool = left) ∧
    ∀ {ρ : Type u} [Reader ρ] {reader : ρ} {after : ReadSource ρ}
      {chunks : List Bytes} (run : Drains (client.openReader pool reader).1 chunks after),
      let opened := client.openReader pool reader
      let contents := gathered opened.2 opened.1 run.ends
      let left := (client.putReader pool reader run.ends).pool
      after.buffer.capacity ≤ Pool.retainLimit → contents.capacity ≤ Pool.retainLimit →
        left.idle = after.buffer.clear :: contents.clear :: pool.idle.drop 2 ∧
        left.idle.length = max 2 pool.idle.length ∧
        ∀ {τ : Type v} [Reader τ] (other : Client) {next : τ}
          {last : ReadSource τ} {more : List Bytes}
          (run' : Drains (other.openReader left next).1 more last),
          other.config.readSize ≤ client.config.readSize →
          more.flatten.length ≤ chunks.flatten.length →
          (other.putReader left next run'.ends).pool = left := by
  have hlength := hpool.idle_length
  rw [Pool.maxIdle] at hlength
  constructor
  · intro σ _ source after chunks run contents left hcapacity
    have hidle : left.idle = contents.clear :: pool.idle.tail :=
      hpool.idle_put client run.ends hcapacity
    refine ⟨hidle, ?_, ?_⟩
    · rw [hidle, List.length_cons, List.length_tail]
      omega
    · intro τ _ other next last more run' hmore
      have hleft : left = ⟨contents.clear :: pool.idle.tail⟩ := congrArg Pool.mk hidle
      rw [hleft]
      exact run'.pool_put_of_fits other hcapacity hpool.length_tail_lt hmore run'.ends
  · intro ρ _ reader after chunks run opened contents left hbuffer hcontents
    have hroom : (pool.idle.drop 2).length + 1 < Pool.maxIdle := by
      rw [List.length_drop, Pool.maxIdle]
      omega
    have hidle : left.idle = after.buffer.clear :: contents.clear :: pool.idle.drop 2 :=
      run.idle_putReader hpool run.ends hbuffer hcontents
    refine ⟨hidle, ?_, ?_⟩
    · rw [hidle, List.length_cons, List.length_cons, List.length_drop]
      omega
    · intro τ _ other next last more run' hread hmore
      have hopened : opened.2.Reachable := hpool.take
      have hsize : chunks.flatten.length ≤ contents.capacity :=
        run.length_le_capacity_gathered hopened.size_take run.ends
      have hfits : ReadSource.clampReadSize other.config.readSize ≤ after.buffer.capacity :=
        Nat.le_trans (ReadSource.clampReadSize_mono hread) (run.clampReadSize_le_capacity hpool)
      have hleft : left = ⟨after.buffer.clear :: contents.clear :: pool.idle.drop 2⟩ :=
        congrArg Pool.mk hidle
      generalize left = found at hleft run' ⊢
      subst hleft
      exact run'.pool_putReader_of_fits hbuffer hcontents hroom hfits (Nat.le_trans hmore hsize)
        run'.ends

/-- A reading that fails leaves two buffers, and the next one leaves both where they were. -/
theorem pool_steady_broken :
    let broken : Script := { steps := [.data [97, 98], .fail { kind := .brokenPipe }] }
    let next : Script := { steps := [.interrupt, .data [99]] }
    let left := (Client.default.putReader .empty broken (Finite.ends _)).pool
    Pool.empty.Reachable ∧ left.idle.length = 2 ∧
      (Client.default.putReader left next (Finite.ends _)).pool = left := by
  intro broken next left
  have hread : 0 < ReadSource.clampReadSize Client.default.config.readSize :=
    ReadSource.clampReadSize_pos _
  obtain ⟨chunks, after, run⟩ := (Finite.ends (Client.default.openReader .empty broken).1).drains
  obtain ⟨more, last, run'⟩ := (Finite.ends (Client.default.openReader left next).1).drains
  have hplain : Script.Plain broken.steps ∧ Script.Plain next.steps := by
    constructor <;> intro count hmem <;> simp [broken, next] at hmem
  have hchunks : chunks.flatten = [97, 98] :=
    (ReadSource.drains_script run rfl rfl hread hplain.1).1
  have hmore : more.flatten = [99] := (ReadSource.drains_script run' rfl rfl hread hplain.2).1
  have hbuffer : after.buffer.capacity = 8192 :=
    ReadSource.capacity_drains run (by decide : 8192 ≤ Buffer.fresh.capacity)
  have hcontents : (gathered Pool.empty.take.2 _ run.ends).capacity ≤ Pool.retainLimit := by
    rw [run.capacity_gathered_of_le rfl run.ends (by rw [hchunks]; decide)]
    decide
  obtain ⟨-, hreading⟩ := pool_steady.{0, 0} Client.default Pool.reachable_empty
  obtain ⟨-, hlength, hagain⟩ := hreading run (by rw [hbuffer]; decide) hcontents
  refine ⟨Pool.reachable_empty, hlength, ?_⟩
  apply hagain Client.default run' (Nat.le_refl _)
  rw [hchunks, hmore]
  decide

end ContentAddress
