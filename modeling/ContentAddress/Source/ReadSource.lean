import ContentAddress.Buffer
import ContentAddress.Reader.Script
import ContentAddress.Source

/-!
# Sources over readers

A source over a reader yields what one successful read gives, up to a fixed number of bytes, through
a buffer from the pool.  Interruptions are retried.  Any other error ends the sequence and is kept;
a source that has ended never asks its reader again.  A pull comes to an end if the reader serves
the request that it makes, whatever the reader would do later.
-/

namespace ContentAddress

universe u

open Text (Layout)

structure ReadSource (ρ : Type u) where
  reader : ρ
  buffer : Buffer
  readSize : Nat
  /-- The number of bytes yielded, as a word. -/
  counted : UInt64 := 0
  /-- The error that ended the sequence, until it is taken. -/
  error : Option IoError := none
  finished : Bool := false

namespace ReadSource

/-- The read size used for a requested one: at least one byte and at most 16 MiB. -/
def clampReadSize (requested : Nat) : Nat := max 1 (min requested maxReadSize)

variable {ρ : Type u}

/-- The number of bytes yielded; it starts again from zero after the largest word. -/
def bytesRead (source : ReadSource ρ) : Nat := source.counted.toNat

/-- What the reader is asked to fill in the next request. -/
def asking (source : ReadSource ρ) : ByteArray := (source.buffer.resize source.readSize).data

def start (pool : Pool) (reader : ρ) (requested : Nat) : ReadSource ρ × Pool :=
  let (buffer, pool) := pool.take
  ({ reader, buffer, readSize := clampReadSize requested }, pool)

def close (source : ReadSource ρ) (pool : Pool) : ρ × Pool :=
  (source.reader, pool.give source.buffer)

/-- Takes the error that ended the sequence; it is given only once. -/
def takeError (source : ReadSource ρ) : Option IoError × ReadSource ρ :=
  (source.error, { source with error := none })

def front (data : ByteArray) (count : Nat) : Bytes := (data.extract 0 count).data.toList

theorem front_eq_take (data : ByteArray) (count : Nat) :
    front data count = data.data.toList.take count := by
  simp [front]

variable [Reader ρ]

/-- A source that has ended makes no request; otherwise its reader must serve the next one. -/
def Answers (source : ReadSource ρ) : Prop :=
  source.finished = false → Reader.Serves source.reader source.asking

def pull (source : ReadSource ρ) (answers : source.Answers) : Pull (ReadSource ρ) :=
  match source, answers with
  | ⟨reader, buffer, readSize, counted, error, true⟩, _ =>
      { chunk := [], source := ⟨reader, buffer, readSize, counted, error, true⟩ }
  | ⟨reader, buffer, readSize, counted, error, false⟩, answers =>
      match hbuffer : buffer.resize readSize with
      | ⟨data, capacity⟩ =>
          have settles : Reader.Settles reader data := by
            have settles := (answers rfl).settles
            rwa [asking, hbuffer] at settles
          match Reader.readThrough reader data settles with
          | ⟨.ok 0, data, reader⟩ =>
              { chunk := [], source := ⟨reader, ⟨data, capacity⟩, readSize, counted, error, true⟩ }
          | ⟨.ok (count + 1), data, reader⟩ =>
              { chunk := front data (count + 1)
                source :=
                  ⟨reader, ⟨data, capacity⟩, readSize, counted + UInt64.ofNat (count + 1), error,
                    false⟩ }
          | ⟨.error failure, data, reader⟩ =>
              { chunk := []
                source := ⟨reader, ⟨data, capacity⟩, readSize, counted, some failure, true⟩
                events := [.readerStopped failure counted.toNat] }

instance : Source (ReadSource ρ) := ⟨Answers, pull⟩

omit [Reader ρ] in
/-- The source in descriptions; `reader` describes its reader. -/
def layout (source : ReadSource ρ) (reader : Layout) : Layout :=
  .record "ReaderSource"
    [("reader", reader), ("buffer", source.buffer.layout), ("read_size", .number source.readSize),
      ("bytes_read", .number source.bytesRead),
      ("error", .option (source.error.map IoError.layout)), ("finished", .truth source.finished)]

end ReadSource

namespace Script

/-- A read of at least one byte makes the script lighter, whatever interruptions precede it. -/
theorem weight_readThrough {script : Script} {buffer : ByteArray}
    (settles : Reader.Settles script buffer) (count : Nat)
    (h : (Reader.readThrough script buffer settles).outcome = .ok (count + 1)) :
    (Reader.readThrough script buffer settles).reader.weight < script.weight := by
  revert h
  refine Reader.readThrough_induction
    (motive := fun script _ reply => reply.outcome = .ok (count + 1) →
      reply.reader.weight < script.weight) ?_ ?_ script buffer settles
  · intro script buffer _ h
    exact weight_read (by simp [h])
  · intro script buffer reply hint hreply h
    obtain ⟨error, herror, -⟩ := hint
    exact Nat.lt_trans (hreply h) (weight_read (by simp [herror]))

instance : Source.Prompt (ReadSource Script) :=
  ⟨fun source _ => source.reader.lawful.serves source.asking⟩

instance : Source.Finite (ReadSource Script) :=
  .of_measure (fun source => source.reader.weight) fun source h => by
    simp only [Source.next, Source.pull, ReadSource.pull] at h ⊢
    split at h
    · exact absurd rfl h
    · next reader buffer readSize counted error answers =>
      have hweight := weight_readThrough
        (reader.settles (buffer.resize readSize).data)
      split at h
      · exact absurd rfl h
      · next count data reader' hread =>
        simp only [hread] at hweight ⊢
        exact hweight count rfl
      · exact absurd rfl h

def layout : Layout := .atom "Script"

end Script

end ContentAddress
