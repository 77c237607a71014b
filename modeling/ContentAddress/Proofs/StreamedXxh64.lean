import ContentAddress.Hash.Xxh64.Stream
import ContentAddress.Proofs.Pieces
import Mathlib

/-!
# Incremental XXH64 equals XXH64 at once

The lanes of an incremental computation have consumed every whole stripe of the content so far, and
the waiting bytes are what is left of it.  An update keeps this, whether it fills the stripe buffer,
completes a stripe begun earlier or goes over several stripes; the bytes behind the waiting ones may
be anything.
-/

namespace ContentAddress.Xxh64

open Bytes

theorem stripeSize_pos : 0 < stripeSize := by decide

namespace Stream

/-- There is always room for one more byte. -/
structure Sound (stream : Stream) : Prop where
  length_stripe : stream.stripe.length = stripeSize
  fill_lt : stream.fill < stripeSize

theorem Sound.length_waiting {stream : Stream} (h : stream.Sound) :
    stream.waiting.length = stream.fill := by
  have hlt := h.fill_lt
  rw [waiting, List.length_take, h.length_stripe]
  omega

/-! ## The parts of an update -/

theorem total_keep (stream : Stream) (data : Bytes) : (stream.keep data).total = stream.total := rfl

theorem total_flush (stream : Stream) : stream.flush.total = stream.total := by
  obtain ⟨lanes, stripe, fill, total⟩ := stream
  rfl

theorem waiting_keep {stream : Stream} {data : Bytes} (h : stream.Sound) :
    (stream.keep data).waiting = stream.waiting ++ data := by
  have hfront : (stream.waiting ++ data).length = stream.fill + data.length := by
    rw [List.length_append, h.length_waiting]
  change (stream.waiting ++ data ++ _).take (stream.fill + data.length) = _
  rw [← hfront, List.take_left]

theorem length_stripe_keep {stream : Stream} {data : Bytes} (h : stream.Sound)
    (hroom : stream.fill + data.length ≤ stripeSize) :
    (stream.keep data).stripe.length = stripeSize := by
  have hroom' : stream.fill + data.length ≤ stream.stripe.length := by rwa [h.length_stripe]
  exact (length_overwrite hroom').trans h.length_stripe

theorem sound_keep {stream : Stream} {data : Bytes} (h : stream.Sound)
    (hroom : stream.fill + data.length < stripeSize) : (stream.keep data).Sound :=
  ⟨length_stripe_keep h (Nat.le_of_lt hroom), hroom⟩

/-- When the stripe buffer is full, nothing stale is left in it. -/
theorem stripe_keep {stream : Stream} {data : Bytes} (h : stream.Sound)
    (hfull : stream.fill + data.length = stripeSize) :
    (stream.keep data).stripe = stream.waiting ++ data := by
  have hlen := length_stripe_keep h (Nat.le_of_eq hfull)
  have htake : (stream.keep data).waiting = (stream.keep data).stripe := by
    change (stream.keep data).stripe.take (stream.fill + data.length) = _
    rw [hfull, ← hlen, List.take_length]
  rw [← htake, waiting_keep h]

/-- A stripe begun earlier is completed and consumed, and no byte waits any more. -/
theorem complete_spec {stream : Stream} {data : Bytes} (h : stream.Sound)
    (henough : stripeSize ≤ stream.fill + data.length) :
    (stream.complete data).1.Sound ∧ (stream.complete data).1.fill = 0 ∧
      (stream.complete data).1.total = stream.total ∧
      foldWhole Lanes.absorb stripeSize (stream.complete data).1.lanes (stream.complete data).2 =
        foldWhole Lanes.absorb stripeSize stream.lanes (stream.waiting ++ data) := by
  have hlt := h.fill_lt
  have hwaiting := h.length_waiting
  by_cases hfill : stream.fill = 0
  · have hcomplete : stream.complete data = (stream, data) := if_pos hfill
    have hnil : stream.waiting = [] := List.eq_nil_of_length_eq_zero (hwaiting.trans hfill)
    rw [hcomplete, hnil, List.nil_append]
    exact ⟨h, hfill, rfl, rfl⟩
  · generalize hmissing : stripeSize - stream.fill = missing
    have hcomplete : stream.complete data =
        ((stream.keep (data.take missing)).flush, data.drop missing) := by
      rw [← hmissing]
      exact if_neg hfill
    have hfull : stream.fill + (data.take missing).length = stripeSize := by
      rw [List.length_take]
      omega
    have hstripe := stripe_keep h hfull
    -- The first stripe of the waiting bytes and `data` together is what fills the buffer.
    have hlong : stripeSize ≤ (stream.waiting ++ data).length := by
      rw [List.length_append, hwaiting]
      exact henough
    have htake : (stream.waiting ++ data).take stripeSize = stream.waiting ++ data.take missing := by
      rw [List.take_append, hwaiting, hmissing, List.take_of_length_le (by omega)]
    have hdrop : (stream.waiting ++ data).drop stripeSize = data.drop missing := by
      rw [List.drop_append, hwaiting, hmissing, List.drop_eq_nil_of_le (by omega), List.nil_append]
    have hlanes : (stream.keep (data.take missing)).flush.lanes =
        stream.lanes.absorb (stream.waiting ++ data.take missing) := by
      rw [← hstripe]
      rfl
    rw [hcomplete, foldWhole_of_le Lanes.absorb stripeSize_pos hlong, htake, hdrop, ← hlanes]
    exact ⟨⟨length_stripe_keep h (Nat.le_of_eq hfull), stripeSize_pos⟩, rfl,
      (total_flush _).trans (total_keep _ _), rfl⟩

/-- Whole stripes go to the lanes directly, and what is left waits. -/
theorem absorbStripes_spec {stream : Stream} (h : stream.Sound) (hfill : stream.fill = 0)
    (data : Bytes) :
    (stream.absorbStripes data).Sound ∧ (stream.absorbStripes data).total = stream.total ∧
      ((stream.absorbStripes data).lanes, (stream.absorbStripes data).waiting) =
        foldWhole Lanes.absorb stripeSize stream.lanes data := by
  have hlen := length_foldWhole Lanes.absorb stripeSize_pos stream.lanes data
  have hmod := Nat.mod_lt data.length stripeSize_pos
  generalize hfold : foldWhole Lanes.absorb stripeSize stream.lanes data = folded at hlen
  obtain ⟨lanes, rest⟩ := folded
  have habsorb : stream.absorbStripes data = { stream with lanes }.keep rest := by
    rw [foldWhole] at hfold
    simp only [absorbStripes, hfold]
  have hsound : Sound { stream with lanes } := ⟨h.length_stripe, h.fill_lt⟩
  have hnil : waiting { stream with lanes } = [] := by
    rw [waiting, hfill, List.take_zero]
  -- Nothing waited before, so the rest of `data` is all that waits now.
  rw [habsorb, waiting_keep hsound, hnil, List.nil_append]
  refine ⟨sound_keep hsound ?_, rfl, rfl⟩
  change rest.length = _ at hlen
  change stream.fill + rest.length < stripeSize
  omega

/-- An update is the same as consuming the waiting bytes and the new ones together. -/
theorem update_spec {stream : Stream} (h : stream.Sound) (data : Bytes) :
    (stream.update data).Sound ∧
      (stream.update data).total = stream.total + UInt64.ofNat data.length ∧
      foldWhole Lanes.absorb stripeSize stream.lanes (stream.waiting ++ data) =
        ((stream.update data).lanes, (stream.update data).waiting) := by
  -- Counting the bytes touches neither the lanes nor the buffer.
  generalize hcounted : { stream with total := stream.total + UInt64.ofNat data.length } = counted
  have hsound : counted.Sound := by
    subst hcounted
    exact ⟨h.length_stripe, h.fill_lt⟩
  have hlanes : counted.lanes = stream.lanes := by rw [← hcounted]
  have hwaiting : counted.waiting = stream.waiting := by
    subst hcounted
    rfl
  have hfill : counted.fill = stream.fill := by rw [← hcounted]
  have htotal : counted.total = stream.total + UInt64.ofNat data.length := by rw [← hcounted]
  rw [← hlanes, ← hwaiting, ← htotal]
  by_cases hroom : stream.fill + data.length < stripeSize
  · have hupdate : stream.update data = counted.keep data := by
      rw [← hcounted]
      exact if_pos hroom
    have hshort : (counted.waiting ++ data).length < stripeSize := by
      rw [List.length_append, hsound.length_waiting, hfill]
      exact hroom
    rw [hupdate, foldWhole_of_lt Lanes.absorb hshort, waiting_keep hsound]
    exact ⟨sound_keep hsound (by rwa [hfill]), total_keep _ _, rfl⟩
  · have hupdate : stream.update data =
        (counted.complete data).1.absorbStripes (counted.complete data).2 := by
      rw [← hcounted]
      exact if_neg hroom
    have henough : stripeSize ≤ counted.fill + data.length := by
      rw [hfill]
      exact Nat.le_of_not_lt hroom
    obtain ⟨hsound', hfill', htotal', hfold⟩ := complete_spec hsound henough
    obtain ⟨hresult, hcount, hstripes⟩ :=
      absorbStripes_spec hsound' hfill' (counted.complete data).2
    rw [hupdate]
    exact ⟨hresult, hcount.trans htotal', hfold.symm.trans hstripes.symm⟩

/-! ## What a computation has seen -/

/-- The computation has seen this content since it started from this seed. -/
structure Tracks (seed : UInt64) (stream : Stream) (content : Bytes) : Prop where
  sound : stream.Sound
  total : stream.total = UInt64.ofNat content.length
  whole : foldWhole Lanes.absorb stripeSize (Lanes.start seed) content =
    (stream.lanes, stream.waiting)

theorem tracks_of_empty {seed : UInt64} {stream : Stream} (h : stream.Sound)
    (hlanes : stream.lanes = Lanes.start seed) (hfill : stream.fill = 0)
    (htotal : stream.total = 0) : Tracks seed stream [] := by
  refine ⟨h, htotal, ?_⟩
  have hnil : stream.waiting = [] := by
    rw [waiting, hfill, List.take_zero]
  rw [foldWhole_of_lt Lanes.absorb stripeSize_pos, hlanes, hnil]

theorem tracks_start (seed : UInt64) : Tracks seed (start seed) [] :=
  tracks_of_empty ⟨List.length_replicate, stripeSize_pos⟩ rfl rfl rfl

theorem tracks_reset {stream : Stream} (h : stream.Sound) (seed : UInt64) :
    Tracks seed (stream.reset seed) [] := by
  -- The buffer keeps its bytes, but none of them waits.
  obtain ⟨lanes, stripe, fill, total⟩ := stream
  exact tracks_of_empty ⟨h.length_stripe, stripeSize_pos⟩ rfl rfl rfl

theorem Tracks.update {seed : UInt64} {stream : Stream} {content : Bytes}
    (h : Tracks seed stream content) (data : Bytes) :
    Tracks seed (stream.update data) (content ++ data) := by
  obtain ⟨hsound, htotal, hfold⟩ := update_spec h.sound data
  refine ⟨hsound, ?_, ?_⟩
  · rw [htotal, h.total, List.length_append, UInt64.ofNat_add]
  · rw [foldWhole_append Lanes.absorb stripeSize_pos, h.whole, hfold]

theorem hash_eq_finish (seed : UInt64) (content : Bytes) :
    hash seed content =
      finish (if content.length < stripeSize then seed + prime5
        else (foldWhole Lanes.absorb stripeSize (Lanes.start seed) content).1.converge)
        (UInt64.ofNat content.length)
        (foldWhole Lanes.absorb stripeSize (Lanes.start seed) content).2 := by
  generalize hfold : foldWhole Lanes.absorb stripeSize (Lanes.start seed) content = folded
  obtain ⟨lanes, tail⟩ := folded
  rw [foldWhole] at hfold
  rw [hash, hfold]

theorem Tracks.digest_eq {seed : UInt64} {stream : Stream} {content : Bytes}
    (h : Tracks seed stream content) (hlen : content.length < 2 ^ 64) :
    stream.digest = hash seed content := by
  have hsmall : stream.total < UInt64.ofNat stripeSize ↔ content.length < stripeSize := by
    rw [h.total, UInt64.lt_iff_toNat_lt, UInt64.toNat_ofNat_of_lt' hlen,
      UInt64.toNat_ofNat_of_lt' (by decide)]
  rw [hash_eq_finish, h.whole, digest, h.total]
  by_cases hlt : content.length < stripeSize
  · -- No stripe was consumed, so the third lane still holds the seed.
    have hlanes : stream.lanes = Lanes.start seed := by
      have hwhole := h.whole
      rw [foldWhole_of_lt Lanes.absorb hlt] at hwhole
      exact (congrArg Prod.fst hwhole).symm
    rw [if_pos hlt, if_pos (h.total ▸ hsmall.2 hlt), hlanes]
    rfl
  · rw [if_neg hlt, if_neg (h.total ▸ mt hsmall.1 hlt)]

end Stream

end ContentAddress.Xxh64
