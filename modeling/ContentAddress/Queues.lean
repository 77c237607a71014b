import ContentAddress.Client
import ContentAddress.Source.ChunkList

/-!
# Numbered queues

Queues of chunks known by their numbers, for callers that hold no values of their own.  Chunks are
pushed at the back, and delivered in order either one at a time or all together, as the value of
their identifier under the default configuration.
-/

namespace ContentAddress

structure Queues where
  queues : Array ChunkList := #[]
  pool : Pool := .empty

namespace Queues

inductive Call
  /-- Opens a queue; its number is the number of queues opened before. -/
  | open
  | push (queue : Nat) (chunk : Bytes)
  | next (queue : Nat)
  | put (queue : Nat)
deriving DecidableEq, Repr

inductive Answer
  | done
  | chunk (chunk : Bytes)
  | value (value : UInt64)
deriving DecidableEq, Repr

def client : Client := .default

/-- Answers a call.  There is no answer if the queue was never opened. -/
def perform (bank : Queues) : Call → Option (Queues × Answer)
  | .open => some ({ bank with queues := bank.queues.push .empty }, .done)
  | .push index chunk =>
      bank.queues[index]?.map fun queue =>
        ({ bank with queues := bank.queues.setIfInBounds index (queue.push chunk) }, .done)
  | .next index =>
      bank.queues[index]?.map fun queue =>
        let pull := queue.next
        ({ bank with queues := bank.queues.setIfInBounds index pull.source }, .chunk pull.chunk)
  | .put index =>
      bank.queues[index]?.map fun queue =>
        let receipt := client.put bank.pool queue (Source.Finite.ends queue)
        ({ queues := bank.queues.setIfInBounds index receipt.source, pool := receipt.pool },
          .value receipt.id.value)

end Queues

end ContentAddress
