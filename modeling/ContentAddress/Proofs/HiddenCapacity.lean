import ContentAddress.Proofs.PoolLimits
import ContentAddress.Session

/-!
# What the capacity of a buffer shows

A buffer that is used again differs from a new one in its capacity and in nothing else.  So two
sources over equal readers that took their buffers from different pools are related by the view that
leaves the capacity out.  The view is respected by a pull, therefore by a drain, by a put and by
reading to the end, provided that the pools hand out buffers without bytes.
-/

namespace ContentAddress

universe u v

open Source
open Text (Layout)

/-! ## Views that pulls respect -/

/-- What a view shows of a pull depends on nothing but what it shows of the source. -/
def Respects {σ : Type u} {τ : Type v} [Source σ] (view : σ → τ) : Prop :=
  ∀ source other : σ, view source = view other → ∀ answers answers',
    (pull source answers).map view = (pull other answers').map view

namespace Respects

variable {σ : Type u} {τ : Type v} [Source σ] {view : σ → τ} {source other : σ}

theorem lockstep (h : Respects view) : Lockstep fun source other => view source = view other where
  chunk_eq hview answers answers' := by
    have hpull := congrArg Pull.chunk (h _ _ hview answers answers')
    exact hpull
  events_eq hview answers answers' := by
    have hpull := congrArg Pull.events (h _ _ hview answers answers')
    exact hpull
  source_pull hview answers answers' := congrArg Pull.source (h _ _ hview answers answers')

theorem put (h : Respects view) (client : Client) {pool pool' : Pool}
    (hdata : pool.take.1.data = pool'.take.1.data) (ends : Ends source) (ends' : Ends other)
    (hview : view source = view other) :
    (client.put pool source ends).id = (client.put pool' other ends').id ∧
      view (client.put pool source ends).source = view (client.put pool' other ends').source ∧
      (client.put pool source ends).events = (client.put pool' other ends').events := by
  have happend : ∀ (buffer other : Buffer) (chunk : Bytes), buffer.data = other.data →
      (buffer.append chunk).data = (other.append chunk).data := fun _ _ chunk hdata =>
    congrArg (Buffer.pushAll · chunk) hdata
  obtain ⟨hsource, hcontents, hchunks, hevents⟩ :=
    h.lockstep.drain happend ends ends' hview hdata 0 #[]
  simp only [Client.put, Buffer.bytes, hcontents, hchunks, hevents]
  exact ⟨trivial, hsource, trivial⟩

end Respects

/-! ## The route to a source -/

namespace Route

variable {σ : Type u} [Source σ]

theorem next_eq [Source.Prompt σ] (route : Route) (source : σ) :
    route.next source = Source.next source := by
  cases route <;> rfl

theorem put_eq [Source.Finite σ] (route : Route) (client : Client) (pool : Pool) (source : σ) :
    route.put client pool source = client.put pool source (Finite.ends source) := by
  cases route with
  | direct => rfl
  | borrowed =>
      exact (Borrowed.forwards.put client pool (Finite.ends (Borrowed.mk source)) _).symm
  | boxed =>
      have hview := (Borrowed.forwards (σ := σ)).comp Boxed.forwards
      exact (hview.put client pool (Finite.ends (Boxed.mk (Borrowed.mk source))) _).symm
  | erased =>
      have hview := (Borrowed.forwards (σ := σ)).comp (Erased.forwards_target.comp Boxed.forwards)
      exact (hview.put client pool (Finite.ends (Boxed.mk (Erased.of (Borrowed.mk source)))) _).symm

end Route

/-! ## Pools whose buffers are empty -/

namespace Pool

def Clean (pool : Pool) : Prop := ∀ buffer ∈ pool.idle, buffer.data = .empty

variable {pool : Pool}

theorem Reachable.clean (h : pool.Reachable) : pool.Clean := by
  obtain ⟨held, h⟩ := h
  intro buffer hmem
  have hbytes : buffer.data.data.toList = [] := h.orderly.idle_bytes buffer hmem
  exact ByteArray.ext (Array.toList_eq_nil_iff.1 hbytes)

theorem Clean.data_take (h : pool.Clean) : pool.take.1.data = .empty := by
  obtain ⟨idle⟩ := pool
  cases idle with
  | nil => rfl
  | cons buffer idle => exact h buffer List.mem_cons_self

theorem Clean.take (h : pool.Clean) : pool.take.2.Clean := by
  obtain ⟨idle⟩ := pool
  cases idle with
  | nil => exact h
  | cons buffer idle => exact fun other hmem => h other (List.mem_cons_of_mem _ hmem)

theorem Clean.give (h : pool.Clean) (buffer : Buffer) : (pool.give buffer).Clean := by
  unfold Pool.give
  split
  · exact List.forall_mem_cons.2 ⟨rfl, h⟩
  · exact h

theorem Clean.put {σ : Type u} [Source σ] (h : pool.Clean) (client : Client) (source : σ)
    (ends : Ends source) : (client.put pool source ends).pool.Clean :=
  h.take.give _

theorem Clean.putReader {ρ : Type u} [Reader ρ] (h : pool.Clean)
    (client : Client) (reader : ρ) (ends : Ends (client.openReader pool reader).1) :
    (client.putReader pool reader ends).pool.Clean :=
  (h.take.put client _ ends).give _

theorem Clean.release (h : pool.Clean) (source : AnySource) : (source.release pool).Clean := by
  cases source with
  | reader source => exact h.give _
  | _ => exact h

end Pool

/-! ## Leaving the capacity out -/

def Buffer.withoutCapacity (buffer : Buffer) : Buffer := { buffer with capacity := 0 }

namespace ReadSource

variable {ρ : Type u}

def withoutCapacity (source : ReadSource ρ) : ReadSource ρ :=
  { source with buffer := source.buffer.withoutCapacity }

theorem withoutCapacity_start {pool pool' : Pool} (hpool : pool.Clean) (hpool' : pool'.Clean)
    (reader : ρ) (requested : Nat) :
    (start pool reader requested).1.withoutCapacity =
      (start pool' reader requested).1.withoutCapacity := by
  simp only [start, withoutCapacity, Buffer.withoutCapacity, hpool.data_take, hpool'.data_take]

theorem reader_congr {source other : ReadSource ρ}
    (h : source.withoutCapacity = other.withoutCapacity) : source.reader = other.reader := by
  have hreader := congrArg reader h
  exact hreader

theorem takeError_congr {source other : ReadSource ρ}
    (h : source.withoutCapacity = other.withoutCapacity) :
    source.takeError.1 = other.takeError.1 ∧
      source.takeError.2.withoutCapacity = other.takeError.2.withoutCapacity := by
  have herror := congrArg error h
  have hafter := congrArg (fun source : ReadSource ρ => { source with error := none }) h
  exact ⟨herror, hafter⟩

variable [Reader ρ]

/-- The reader is asked to fill the same bytes, whatever the capacity. -/
theorem pull_withoutCapacity (source : ReadSource ρ) (answers : Source.Answers source)
    (answers' : Source.Answers source.withoutCapacity) :
    (Source.pull source.withoutCapacity answers').map withoutCapacity =
      (Source.pull source answers).map withoutCapacity := by
  cases hfinished : source.finished with
  | true =>
      have hfinished' : source.withoutCapacity.finished = true := hfinished
      rw [pull_of_finished answers hfinished, pull_of_finished answers' hfinished']
      rfl
  | false =>
      have hfinished' : source.withoutCapacity.finished = false := hfinished
      have settles := (answers hfinished).settles
      have settles' := (answers' hfinished').settles
      have hreply : source.withoutCapacity.reply settles' = source.reply settles := rfl
      rw [pull_eq settles answers hfinished, pull_eq settles' answers' hfinished', hreply]
      rcases (source.reply settles).outcome with error | _ | count <;> rfl

theorem respects_withoutCapacity : Respects (withoutCapacity (ρ := ρ)) := by
  intro source other hview answers answers'
  have hidden : Source.Answers source.withoutCapacity := answers
  have hidden' : Source.Answers other.withoutCapacity := answers'
  rw [← pull_withoutCapacity source answers hidden, ← pull_withoutCapacity other answers' hidden']
  simp only [hview]

end ReadSource

/-- Two pools without bytes make no difference to what reading to the end comes to. -/
theorem putReader_congr {ρ : Type u} [Reader ρ] (client : Client)
    {pool pool' : Pool} (hpool : pool.Clean) (hpool' : pool'.Clean) (reader : ρ)
    (ends : Ends (client.openReader pool reader).1)
    (ends' : Ends (client.openReader pool' reader).1) :
    (client.putReader pool reader ends).result = (client.putReader pool' reader ends').result ∧
      (client.putReader pool reader ends).reader = (client.putReader pool' reader ends').reader ∧
      (client.putReader pool reader ends).events =
        (client.putReader pool' reader ends').events := by
  have hopened : (client.openReader pool reader).2.Clean := hpool.take
  have hopened' : (client.openReader pool' reader).2.Clean := hpool'.take
  obtain ⟨hid, hsource, hevents⟩ := ReadSource.respects_withoutCapacity.put client
    (hopened.data_take.trans hopened'.data_take.symm) ends ends'
    (ReadSource.withoutCapacity_start hpool hpool' reader client.config.readSize)
  have herror := (ReadSource.takeError_congr hsource).1
  refine ⟨?_, ReadSource.reader_congr hsource, hevents⟩
  simp only [Client.putReader, herror, hid]

namespace AnySource

def withoutCapacity : AnySource → AnySource
  | reader source => reader source.withoutCapacity
  | source => source

theorem withoutCapacity_eq_cases {source other : AnySource}
    (h : source.withoutCapacity = other.withoutCapacity) :
    source = other ∨ ∃ inner inner' : ReadSource Script, source = reader inner ∧
      other = reader inner' ∧ inner.withoutCapacity = inner'.withoutCapacity := by
  cases source with
  | reader inner =>
      cases other with
      | reader inner' => exact .inr ⟨inner, inner', rfl, rfl, AnySource.reader.inj h⟩
      | _ => cases h
  | _ =>
      cases other with
      | reader inner' => cases h
      | _ => exact .inl h

theorem respects_withoutCapacity : Respects withoutCapacity := by
  intro source other hview answers answers'
  obtain rfl | ⟨inner, inner', rfl, rfl, hinner⟩ := withoutCapacity_eq_cases hview
  · rfl
  · have hpull := ReadSource.respects_withoutCapacity inner inner' hinner answers answers'
    exact congrArg (Pull.map reader) hpull

end AnySource

/-! ## Descriptions and reports -/

namespace Text.Layout

mutual

/-- A description that has a gap wherever a capacity stands. -/
def withoutCapacity : Layout → Layout
  | atom text => atom text
  | entry name value =>
      if name = "capacity" then entry name (atom "") else entry name (withoutCapacity value)
  | group head brackets members complete =>
      group head brackets (withoutCapacities members) complete

def withoutCapacities : List Layout → List Layout
  | [] => []
  | member :: rest => withoutCapacity member :: withoutCapacities rest

end

end Text.Layout

theorem ReadSource.layout_withoutCapacity {ρ : Type u} (source : ReadSource ρ) (reader : Layout) :
    (source.withoutCapacity.layout reader).withoutCapacity =
      (source.layout reader).withoutCapacity := by
  simp only [ReadSource.layout, Buffer.layout, Layout.record, Layout.withoutCapacity,
    Layout.withoutCapacities, List.map_cons, List.map_nil, reduceIte]
  rfl

namespace Session

theorem describe_congr {source other : AnySource}
    (h : source.withoutCapacity = other.withoutCapacity) :
    (describe source).map Layout.withoutCapacity = (describe other).map Layout.withoutCapacity := by
  obtain rfl | ⟨inner, inner', rfl, rfl, hinner⟩ := AnySource.withoutCapacity_eq_cases h
  · rfl
  · simp only [describe, Option.map_some]
    rw [← inner.layout_withoutCapacity, hinner, inner'.layout_withoutCapacity]

end Session

def Snapshot.withoutCapacity : Snapshot → Snapshot
  | .source shown => .source shown.withoutCapacity
  | snapshot => snapshot

def Answer.withoutCapacity : Answer → Answer
  | description layout => .description layout.withoutCapacity
  | answer => answer

def Report.withoutCapacity (report : Report) : Report :=
  { report with
    answer := report.answer.withoutCapacity
    snapshot := report.snapshot.map Snapshot.withoutCapacity }

end ContentAddress
