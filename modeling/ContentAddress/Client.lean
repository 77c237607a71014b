import ContentAddress.Buffer
import ContentAddress.Fault
import ContentAddress.Source.ReadSource

/-!
# Clients

A client has a valid configuration and identifies content: a byte string, whatever a source yields
up to its first empty chunk, or whatever a reader gives.  A source is drained into a buffer from the
pool, and the content is hashed at the end.
-/

namespace ContentAddress

universe u v

open Text (Layout)

structure Client where
  config : Config
  valid : config.Valid
deriving DecidableEq

structure Receipt (σ : Type u) where
  id : BlobId
  /-- The source, which has just yielded its first empty chunk. -/
  source : σ
  pool : Pool
  events : List Event

def Receipt.map {σ : Type u} {τ : Type v} (view : σ → τ) (receipt : Receipt σ) : Receipt τ :=
  { receipt with source := view receipt.source }

structure ReadReceipt (ρ : Type u) where
  result : Except Fault BlobId
  reader : ρ
  pool : Pool
  events : List Event

/-- The state of a source that has been drained, with what it gave. -/
structure Drained (σ : Type u) where
  /-- The source after its first empty chunk. -/
  source : σ
  /-- All chunks, one behind the other, behind what the buffer held before. -/
  contents : Buffer
  chunks : Nat
  events : Array Event

/-- Pulls chunks and appends them to `contents`, up to the first empty one.  The chunks are counted
on from `chunks`, and `events` is what happened before. -/
def drain {σ : Type u} [Source σ] (source : σ) (ends : Source.Ends source) (contents : Buffer)
    (chunks : Nat) (events : Array Event) : Drained σ :=
  match h : Source.pull source ends.answers with
  | ⟨[], source', happened⟩ => ⟨source', contents, chunks, events ++ happened⟩
  | ⟨byte :: rest, source', happened⟩ =>
      let chunk := byte :: rest
      drain source' (ends.follows ⟨ends.answers, by simp [h], by simp [h]⟩)
        (contents.append chunk) (chunks + 1)
        ((events ++ happened).push (.appending chunks chunk.length))
termination_by (⟨source, ends.acc⟩ : { source : σ // Acc Source.Follows source })
decreasing_by exact ⟨ends.answers, by simp [h], by simp [h]⟩

namespace Client

def default : Client := ⟨{}, by decide⟩

def ofConfig (config : Config) : Except ConfigFault Client :=
  match h : config.fault? with
  | some fault => .error fault
  | none => .ok ⟨config, Config.fault?_eq_none_iff.1 h⟩

def putBytes (client : Client) (content : Bytes) : BlobId := BlobId.ofContent client.config content

def put {σ : Type u} [Source σ] (client : Client) (pool : Pool) (source : σ)
    (ends : Source.Ends source) : Receipt σ :=
  let (buffer, pool) := pool.take
  let drained := drain source ends buffer 0 #[]
  let id := BlobId.ofContent client.config drained.contents.bytes
  { id
    source := drained.source
    pool := pool.give drained.contents
    events :=
      (drained.events.push
        (.complete drained.chunks drained.contents.data.size id client.config.algorithm)).toList }

def openReader {ρ : Type u} (client : Client) (pool : Pool) (reader : ρ) : ReadSource ρ × Pool :=
  ReadSource.start pool reader client.config.readSize

/-- Reads to the end and identifies what was read, unless the reader fails. -/
def putReader {ρ : Type u} [Reader ρ] (client : Client) (pool : Pool) (reader : ρ)
    (ends : Source.Ends (client.openReader pool reader).1) : ReadReceipt ρ :=
  let opened := client.openReader pool reader
  let receipt := client.put opened.2 opened.1 ends
  let (error, source) := receipt.source.takeError
  let (reader, pool) := source.close receipt.pool
  { result := match error with
      | some error => .error (.io error)
      | none => .ok receipt.id
    reader
    pool
    events := receipt.events }

def layout (client : Client) : Layout :=
  .record "BlobstoreClient" [("config", client.config.layout)]

end Client

end ContentAddress
