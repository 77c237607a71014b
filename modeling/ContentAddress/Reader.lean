import ContentAddress.Bytes
import ContentAddress.IoError

/-!
# Readers

A reader is asked to fill a buffer.  It reports how many bytes at the front of the buffer are its
answer, or an error; it may change any part of the buffer, and cannot change its size.  A request
that is interrupted is made again.  A reader *serves* a request if this comes to an answer that is
no interruption, and if that reports no more bytes than there are in the buffer; a lawful reader
serves every request.
-/

namespace ContentAddress

universe u

structure Reply (ρ : Type u) where
  /-- The number of bytes read, zero at the end of the content, or an error. -/
  outcome : Except IoError Nat
  buffer : ByteArray
  reader : ρ

def Reply.Interrupted {ρ : Type u} (reply : Reply ρ) : Prop :=
  ∃ error, reply.outcome = .error error ∧ error.kind = .interrupted

class Reader (ρ : Type u) where
  read : ρ → ByteArray → Reply ρ
  size_read : ∀ (reader : ρ) (buffer : ByteArray), (read reader buffer).buffer.size = buffer.size

namespace Reader

variable {ρ : Type u} [Reader ρ]

/-- The request `after` is the one that follows an interrupted request `before`. -/
def Retries (after before : ρ × ByteArray) : Prop :=
  (read before.1 before.2).Interrupted ∧
    after = ((read before.1 before.2).reader, (read before.1 before.2).buffer)

abbrev Settles (reader : ρ) (buffer : ByteArray) : Prop := Acc Retries (reader, buffer)

/-- Asks again until the answer is not an interruption. -/
def readThrough (reader : ρ) (buffer : ByteArray) (settles : Settles reader buffer) : Reply ρ :=
  match h : read reader buffer with
  | ⟨.ok count, buffer', reader'⟩ => ⟨.ok count, buffer', reader'⟩
  | ⟨.error error, buffer', reader'⟩ =>
      if hkind : error.kind = .interrupted then
        readThrough reader' buffer' (settles.inv ⟨⟨error, by simp [h], hkind⟩, by simp [h]⟩)
      else ⟨.error error, buffer', reader'⟩
termination_by (⟨(reader, buffer), settles⟩ : { request : ρ × ByteArray // Acc Retries request })
decreasing_by exact ⟨⟨error, by simp [h], hkind⟩, by simp [h]⟩

/-- A relation between what is asked and what is answered holds of the last answer if it holds of
every uninterrupted one and an interruption may be put in front. -/
theorem readThrough_induction {motive : ρ → ByteArray → Reply ρ → Prop}
    (answer : ∀ reader buffer, ¬ (read reader buffer).Interrupted →
      motive reader buffer (read reader buffer))
    (retry : ∀ reader buffer reply, (read reader buffer).Interrupted →
      motive (read reader buffer).reader (read reader buffer).buffer reply →
      motive reader buffer reply)
    (reader : ρ) (buffer : ByteArray) (settles : Settles reader buffer) :
    motive reader buffer (readThrough reader buffer settles) := by
  have general : ∀ (request : ρ × ByteArray) (acc : Acc Retries request),
      motive request.1 request.2 (readThrough request.1 request.2 acc) := by
    intro request acc
    induction acc with
    | intro request acc ih =>
      obtain ⟨reader, buffer⟩ := request
      dsimp only
      rw [readThrough]
      split
      · next count buffer' reader' h =>
        have hanswer := answer reader buffer (by rintro ⟨error, herror, -⟩; simp [h] at herror)
        rwa [h] at hanswer
      · next error buffer' reader' h =>
        split
        · next hkind =>
          have hint : (read reader buffer).Interrupted := ⟨error, by simp [h], hkind⟩
          refine retry reader buffer _ hint ?_
          simpa [h] using ih (reader', buffer') ⟨hint, by simp [h]⟩
        · next hkind =>
          have hanswer := answer reader buffer (by
            rintro ⟨error', herror, hkind'⟩
            simp only [h, Except.error.injEq] at herror
            exact hkind (herror ▸ hkind'))
          rwa [h] at hanswer
  exact general (reader, buffer) settles

theorem size_readThrough {reader : ρ} {buffer : ByteArray} (settles : Settles reader buffer) :
    (readThrough reader buffer settles).buffer.size = buffer.size := by
  refine readThrough_induction (motive := fun _ buffer reply => reply.buffer.size = buffer.size)
    ?_ ?_ reader buffer settles
  · intro reader buffer _
    exact size_read reader buffer
  · intro reader buffer reply _ hreply
    exact hreply.trans (size_read reader buffer)

/-- The request comes to an answer, and the bytes that this reports are in the buffer. -/
def Serves (reader : ρ) (buffer : ByteArray) : Prop :=
  ∃ settles : Settles reader buffer, ∀ count,
    (readThrough reader buffer settles).outcome = .ok count → count ≤ buffer.size

theorem Serves.settles {reader : ρ} {buffer : ByteArray} (h : Serves reader buffer) :
    Settles reader buffer := by
  obtain ⟨settles, -⟩ := h
  exact settles

theorem Serves.count_le {reader : ρ} {buffer : ByteArray} (h : Serves reader buffer) {count : Nat}
    (houtcome : (readThrough reader buffer h.settles).outcome = .ok count) :
    count ≤ buffer.size := by
  obtain ⟨settles, hcount⟩ := h
  exact hcount count houtcome

/-- What requests, made one after the other, turn a reader into. -/
inductive Becomes : ρ → ρ → Prop
  | refl (reader : ρ) : Becomes reader reader
  | read {reader after : ρ} (buffer : ByteArray)
      (rest : Becomes (read reader buffer).reader after) : Becomes reader after

/-- Whatever is asked of the reader, no answer reports more bytes than fit into the buffer, and
interruptions cease. -/
structure Lawful (reader : ρ) : Prop where
  count_le : ∀ {after : ρ}, Becomes reader after → ∀ (buffer : ByteArray) (count : Nat),
    (read after buffer).outcome = .ok count → count ≤ buffer.size
  settles : ∀ {after : ρ}, Becomes reader after → ∀ buffer : ByteArray, Settles after buffer

namespace Lawful

variable {reader : ρ} (h : Lawful reader) (buffer : ByteArray)

include h

theorem read : Lawful (read reader buffer).reader where
  count_le later := h.count_le (.read buffer later)
  settles later := h.settles (.read buffer later)

theorem readThrough (settles : Settles reader buffer) :
    Lawful (readThrough reader buffer settles).reader := by
  revert h
  refine readThrough_induction (motive := fun reader _ reply => Lawful reader → Lawful reply.reader)
    ?_ ?_ reader buffer settles
  · intro reader buffer _ h
    exact h.read buffer
  · intro reader buffer reply _ hreply h
    exact hreply (h.read buffer)

theorem serves : Serves reader buffer := by
  have settles := h.settles (.refl reader) buffer
  refine ⟨settles, ?_⟩
  revert h
  refine readThrough_induction
    (motive := fun reader buffer reply => Lawful reader → ∀ count, reply.outcome = .ok count →
      count ≤ buffer.size) ?_ ?_ reader buffer settles
  · intro reader buffer _ h
    exact h.count_le (.refl reader) buffer
  · intro reader buffer reply _ hreply h count houtcome
    exact size_read reader buffer ▸ hreply (h.read buffer) count houtcome

end Lawful

end Reader

end ContentAddress
