import ContentAddress.Hash.Xxh64

/-!
# Incremental XXH64

Content arrives in pieces of any size.  Whole stripes go to the lanes at once; what does not fill a
stripe waits in a 32-byte buffer, of which only the first `fill` bytes count.  The bytes behind them
are left over from earlier stripes and are never read.
-/

namespace ContentAddress.Xxh64

structure Stream where
  lanes : Lanes
  stripe : Bytes
  /-- Number of waiting bytes at the front of the stripe buffer. -/
  fill : Nat
  /-- Number of bytes seen, modulo 2 ^ 64. -/
  total : UInt64
deriving DecidableEq, Repr

namespace Stream

def start (seed : UInt64) : Stream where
  lanes := Lanes.start seed
  stripe := List.replicate stripeSize 0
  fill := 0
  total := 0

/-- Starts again with a seed.  The stripe buffer keeps its bytes, none of which counts. -/
def reset (stream : Stream) (seed : UInt64) : Stream :=
  { stream with lanes := Lanes.start seed, fill := 0, total := 0 }

def waiting (stream : Stream) : Bytes := stream.stripe.take stream.fill

/-- Puts `data` behind the waiting bytes; there is room for it. -/
def keep (stream : Stream) (data : Bytes) : Stream :=
  { stream with
    stripe := stream.stripe.overwrite stream.fill data
    fill := stream.fill + data.length }

def flush (stream : Stream) : Stream :=
  { stream with lanes := stream.lanes.absorb stream.stripe, fill := 0 }

/-- Completes a stripe begun earlier, if there is one, from the front of `data`; returns the rest
of `data` beside the new state. -/
def complete (stream : Stream) (data : Bytes) : Stream × Bytes :=
  if stream.fill = 0 then (stream, data)
  else
    let missing := stripeSize - stream.fill
    ((stream.keep (data.take missing)).flush, data.drop missing)

/-- Hands every whole stripe of `data` to the lanes and keeps the rest; no byte waits before. -/
def absorbStripes (stream : Stream) (data : Bytes) : Stream :=
  let (lanes, rest) :=
    Bytes.foldPieces Lanes.absorb stripeSize (data.length / stripeSize) stream.lanes data
  { stream with lanes }.keep rest

def update (stream : Stream) (data : Bytes) : Stream :=
  let stream := { stream with total := stream.total + UInt64.ofNat data.length }
  if stream.fill + data.length < stripeSize then
    stream.keep data
  else
    let (stream, rest) := stream.complete data
    stream.absorbStripes rest

/-- The hash of what was seen; the state is unchanged and can be continued. -/
def digest (stream : Stream) : UInt64 :=
  let hash :=
    if stream.total < UInt64.ofNat stripeSize then stream.lanes.third + prime5
    else stream.lanes.converge
  finish hash stream.total stream.waiting

end Stream

end ContentAddress.Xxh64
