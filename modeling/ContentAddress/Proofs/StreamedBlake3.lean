import ContentAddress.Hash.Blake3.Stream
import ContentAddress.Proofs.Pieces
import Mathlib.Algebra.Order.Ring.Nat

/-!
# Incremental BLAKE3 equals BLAKE3 at once

Finished chunks are the leaves of subtrees that each hold a power of two of them, and the stack
holds one subtree for every binary digit one of their number.  A new leaf is a carry in that binary
form: it is merged with the subtree of its size, if there is one, and the result is the new leaf of
the next level.  At the end the last chunk, which is never finished before more content follows, is
the rightmost leaf, and joining the stack onto it from the smallest subtree on cuts the content
where the tree over all of it does.
-/

namespace ContentAddress.Blake3

open Bytes

/-! ## Complete subtrees -/

theorem leftSize_eq {size level : Nat} (hlow : chunkSize * 2 ^ level < size)
    (hhigh : size ≤ chunkSize * 2 ^ (level + 1)) : leftSize size = chunkSize * 2 ^ level := by
  have hpos : 0 < chunkSize := by decide
  have hle : 2 ^ level ≤ (size - 1) / chunkSize := by
    rw [Nat.le_div_iff_mul_le hpos, Nat.mul_comm]
    omega
  have hlt : (size - 1) / chunkSize < 2 ^ (level + 1) := by
    rw [Nat.div_lt_iff_lt_mul hpos, Nat.mul_comm]
    omega
  have hne : (size - 1) / chunkSize ≠ 0 := Nat.ne_of_gt (Nat.lt_of_lt_of_le (Nat.two_pow_pos _) hle)
  rw [leftSize, Nat.shiftLeft_eq, (Nat.log2_eq_iff hne).2 ⟨hle, hlt⟩]

theorem tree_of_le {content : Bytes} (h : content.length ≤ chunkSize) (counter : Nat) :
    tree counter content = leaf counter content := by
  rw [tree, dif_pos h]

/-- A complete subtree goes to the left of whatever is not larger. -/
theorem tree_append {level : Nat} {left right : Bytes} (hleft : left.length = chunkSize * 2 ^ level)
    (hpos : 0 < right.length) (hright : right.length ≤ chunkSize * 2 ^ level) (counter : Nat) :
    tree counter (left ++ right) =
      Node.parent (tree counter left).chainingValue
        (tree (counter + 2 ^ level) right).chainingValue := by
  have hone : chunkSize ≤ chunkSize * 2 ^ level := Nat.le_mul_of_pos_right _ (Nat.two_pow_pos _)
  have hsize : leftSize (left ++ right).length = left.length := by
    rw [hleft]
    apply leftSize_eq
    · rw [List.length_append]
      omega
    · rw [List.length_append, Nat.pow_succ, ← Nat.mul_assoc]
      omega
  have hlarge : ¬ (left ++ right).length ≤ chunkSize := by
    rw [List.length_append]
    omega
  have hcount : left.length / chunkSize = 2 ^ level := by
    rw [hleft, Nat.mul_div_cancel_left _ (by decide)]
  rw [tree, dif_neg hlarge]
  dsimp only
  rw [hsize, List.take_left, List.drop_left, hcount]

/-! ## The stack -/

/-- The stack holds the chaining values for `count` complete subtrees of `2 ^ level` chunks each,
merged as the binary form of `count` says.  The smallest is on top. -/
inductive Covers : Nat → Nat → Bytes → List ChainingValue → Prop
  | zero (level : Nat) : Covers level 0 [] []
  | even {level half : Nat} {content : Bytes} {stack : List ChainingValue}
      (h : Covers (level + 1) half content stack) : Covers level (2 * half) content stack
  | odd {level half : Nat} {content piece : Bytes} {stack : List ChainingValue}
      (h : Covers (level + 1) half content stack) (hpiece : piece.length = chunkSize * 2 ^ level) :
      Covers level (2 * half + 1) (content ++ piece)
        ((tree (2 ^ level * (2 * half)) piece).chainingValue :: stack)

theorem mergeOnto_of_odd (value : ChainingValue) (half : Nat) (stack : List ChainingValue) :
    mergeOnto value (2 * half + 1) stack = value :: stack := by
  cases stack with
  | nil => rfl
  | cons left rest => exact if_neg (by omega)

theorem mergeOnto_of_even (value left : ChainingValue) (half : Nat) (rest : List ChainingValue) :
    mergeOnto value (2 * half + 1 + 1) (left :: rest) =
      mergeOnto (Node.parent left value).chainingValue (half + 1) rest := by
  have hhalf : (2 * half + 1 + 1) / 2 = half + 1 := by omega
  rw [mergeOnto, if_pos (by omega), hhalf]

theorem position_even (level half : Nat) : 2 ^ level * (2 * half) = 2 ^ (level + 1) * half := by
  rw [Nat.pow_succ, Nat.mul_assoc]

theorem position_odd (level half : Nat) :
    2 ^ level * (2 * half + 1) = 2 ^ (level + 1) * half + 2 ^ level := by
  rw [Nat.mul_succ, position_even]

/-- One more subtree is a carry: it is merged as long as there is one of its size before it. -/
theorem Covers.mergeOnto {level count : Nat} {content piece : Bytes} {stack : List ChainingValue}
    (h : Covers level count content stack) (hpiece : piece.length = chunkSize * 2 ^ level) :
    Covers level (count + 1) (content ++ piece)
      (mergeOnto (tree (2 ^ level * count) piece).chainingValue (count + 1) stack) := by
  induction h generalizing piece with
  | zero level => exact .odd (.zero (level + 1)) hpiece
  | @even level half content stack h ih =>
      rw [mergeOnto_of_odd]
      exact .odd h hpiece
  | @odd level half content before stack h hbefore ih =>
      have hpos : 0 < piece.length := by
        rw [hpiece]
        exact Nat.mul_pos (by decide) (Nat.two_pow_pos _)
      have hboth : (before ++ piece).length = chunkSize * 2 ^ (level + 1) := by
        rw [List.length_append, hbefore, hpiece, Nat.pow_succ, ← Nat.mul_assoc, Nat.mul_two]
      have hmerged := ih hboth
      rw [tree_append hbefore hpos (Nat.le_of_eq hpiece)] at hmerged
      rw [mergeOnto_of_even, position_even, position_odd, List.append_assoc]
      exact .even hmerged

theorem Covers.eq_zero {level count : Nat} {content : Bytes} {stack : List ChainingValue}
    (h : Covers level count content stack) (hcontent : content = []) : count = 0 ∧ stack = [] := by
  induction h with
  | zero level => exact ⟨rfl, rfl⟩
  | even h ih =>
      obtain ⟨rfl, rfl⟩ := ih hcontent
      exact ⟨rfl, rfl⟩
  | @odd level half content piece stack h hpiece ih =>
      have hpos : 0 < chunkSize * 2 ^ level := Nat.mul_pos (by decide) (Nat.two_pow_pos _)
      rw [List.append_eq_nil_iff] at hcontent
      rw [hcontent.2, List.length_nil] at hpiece
      omega

/-- Joining the stack onto what follows it gives the tree over everything. -/
theorem Covers.foldl_parent {level count : Nat} {content rest : Bytes}
    {stack : List ChainingValue} (h : Covers level count content stack) (hpos : 0 < rest.length)
    (hrest : rest.length ≤ chunkSize * 2 ^ level) :
    stack.foldl (fun node left => Node.parent left node.chainingValue)
      (tree (2 ^ level * count) rest) = tree 0 (content ++ rest) := by
  have hnext : ∀ level, chunkSize * 2 ^ (level + 1) = chunkSize * 2 ^ level + chunkSize * 2 ^ level := by
    intro level
    rw [Nat.pow_succ, ← Nat.mul_assoc, Nat.mul_two]
  induction h generalizing rest with
  | zero level => rfl
  | @even level half content stack h ih =>
      rw [position_even]
      apply ih hpos
      rw [hnext]
      omega
  | @odd level half content piece stack h hpiece ih =>
      rw [List.foldl_cons, position_even, position_odd, ← tree_append hpiece hpos hrest,
        List.append_assoc]
      apply ih
      · rw [List.length_append]
        omega
      · rw [List.length_append, hnext]
        omega

/-! ## The chunk in progress -/

namespace Chunk

/-- The chunk at position `counter` has this content so far. -/
structure Holds (chunk : Chunk) (counter : Nat) (content : Bytes) : Prop where
  counter_eq : chunk.counter = counter
  folded : foldPieces (Progress.absorb counter) blockSize chunk.progress.blocks ⟨initial, 0⟩ content =
    (chunk.progress, chunk.pending)
  length_eq : content.length = chunk.size
  pending_le : chunk.pending.length ≤ blockSize

theorem holds_start (counter : Nat) : (start counter).Holds counter [] :=
  ⟨rfl, rfl, rfl, Nat.zero_le _⟩

variable {chunk : Chunk} {counter : Nat} {content : Bytes}

theorem Holds.makeRoom (h : chunk.Holds counter content) : chunk.makeRoom.Holds counter content := by
  unfold Chunk.makeRoom
  split
  · next hfull =>
    have hlen : chunk.pending.length = blockSize := Nat.le_antisymm h.pending_le hfull
    have hcounter := h.counter_eq
    refine ⟨hcounter, ?_, ?_, Nat.zero_le _⟩
    · change foldPieces _ _ (chunk.progress.blocks + 1) _ _ = _
      rw [foldPieces_concat, h.folded, List.take_of_length_le (Nat.le_of_eq hlen),
        List.drop_eq_nil_of_le (Nat.le_of_eq hlen), hcounter]
    · rw [h.length_eq, size, hlen]
      rfl
  · exact h

theorem Holds.append (h : chunk.Holds counter content) {data : Bytes}
    (hroom : chunk.pending.length + data.length ≤ blockSize) :
    Holds { chunk with pending := chunk.pending ++ data } counter (content ++ data) := by
  have henough : blockSize * chunk.progress.blocks ≤ content.length := by
    rw [h.length_eq, size]
    exact Nat.le_add_right _ _
  refine ⟨h.counter_eq, ?_, ?_, ?_⟩
  · rw [foldPieces_append _ henough, h.folded]
  · rw [List.length_append, h.length_eq, size, size, List.length_append, Nat.add_assoc]
  · rwa [List.length_append]

theorem absorb_of_ne {data : Bytes} (hdata : data ≠ []) (chunk : Chunk) :
    chunk.absorb data =
      absorb
        { chunk.makeRoom with
          pending := chunk.makeRoom.pending ++ data.take (blockSize - chunk.makeRoom.pending.length) }
        (data.drop (blockSize - chunk.makeRoom.pending.length)) := by
  cases data with
  | nil => exact absurd rfl hdata
  | cons byte rest => rw [absorb]

/-- The chunk takes over all the data, and its last block stays pending. -/
theorem Holds.absorb (h : chunk.Holds counter content) (data : Bytes) :
    (chunk.absorb data).Holds counter (content ++ data) ∧
      (chunk.pending ≠ [] ∨ data ≠ [] → (chunk.absorb data).pending ≠ []) := by
  induction hlen : data.length using Nat.strongRecOn generalizing chunk content data with
  | ind n ih =>
      subst hlen
      by_cases hdata : data = []
      · subst hdata
        rw [Chunk.absorb, List.append_nil]
        exact ⟨h, fun hne => hne.resolve_right (fun hnil => hnil rfl)⟩
      · have hshort := length_pending_makeRoom chunk
        have hpos := List.length_pos_iff.2 hdata
        rw [absorb_of_ne hdata]
        generalize hroom : blockSize - chunk.makeRoom.pending.length = room
        have htake : (data.take room).length ≤ room := List.length_take_le _ _
        have hne : data.take room ≠ [] := by
          apply List.ne_nil_of_length_pos
          rw [List.length_take]
          omega
        have hfits : chunk.makeRoom.pending.length + (data.take room).length ≤ blockSize := by omega
        obtain ⟨hholds, hpending⟩ := ih (data.drop room).length (by rw [List.length_drop]; omega)
          (h.makeRoom.append hfits) (data.drop room) rfl
        rw [List.append_assoc, List.take_append_drop] at hholds
        exact ⟨hholds, fun _ => hpending (Or.inl (List.append_ne_nil_of_right_ne_nil _ hne))⟩

theorem Holds.node_eq (h : chunk.Holds counter content)
    (hpending : chunk.pending = [] → content = []) : chunk.node = leaf counter content := by
  have hlen : content.length = blockSize * chunk.progress.blocks + chunk.pending.length := h.length_eq
  have hle := h.pending_le
  have hblocks : (content.length - 1) / blockSize = chunk.progress.blocks := by
    by_cases hnil : chunk.pending = []
    · rw [hpending hnil, hnil] at hlen
      simp only [blockSize, List.length_nil] at hlen ⊢
      rw [hpending hnil, List.length_nil]
      omega
    · have hpos : 0 < chunk.pending.length := List.length_pos_iff.2 hnil
      simp only [blockSize] at hlen hle ⊢
      omega
  rw [leaf, hblocks, h.folded, node, h.counter_eq]

end Chunk

/-! ## What a computation has seen -/

namespace Stream

/-- The finished chunks make up `front`, and the chunk in progress holds `last`. -/
structure Parts (stream : Stream) (front last : Bytes) : Prop where
  covers : Covers 0 stream.chunk.counter front stream.stack
  holds : stream.chunk.Holds stream.chunk.counter last
  last_le : last.length ≤ chunkSize
  pending : stream.chunk.pending = [] → last = []

theorem parts_start : start.Parts [] [] :=
  ⟨.zero 0, Chunk.holds_start 0, Nat.zero_le _, fun _ => rfl⟩

variable {stream : Stream} {front last : Bytes}

theorem Parts.node_eq (h : stream.Parts front last) :
    stream.chunk.node = tree (2 ^ 0 * stream.chunk.counter) last := by
  rw [h.holds.node_eq h.pending, Nat.pow_zero, Nat.one_mul, tree_of_le h.last_le]

theorem Parts.makeRoom (h : stream.Parts front last) :
    ∃ front' last', front' ++ last' = front ++ last ∧ stream.makeRoom.Parts front' last' := by
  unfold Stream.makeRoom
  split
  · next hfull =>
    have hlen : last.length = chunkSize * 2 ^ 0 := by
      have hle := h.last_le
      have hsize := h.holds.length_eq
      rw [Nat.pow_zero, Nat.mul_one]
      omega
    have hcovers := h.covers.mergeOnto hlen
    rw [← h.node_eq] at hcovers
    refine ⟨front ++ last, [], List.append_nil _, hcovers, ?_, Nat.zero_le _, fun _ => rfl⟩
    exact Chunk.holds_start _
  · exact ⟨front, last, rfl, h⟩

theorem Parts.absorb (h : stream.Parts front last) {data : Bytes} (hdata : data ≠ [])
    (hroom : last.length + data.length ≤ chunkSize) :
    Parts { stream with chunk := stream.chunk.absorb data } front (last ++ data) := by
  obtain ⟨hholds, hpending⟩ := h.holds.absorb data
  have hcounter : (stream.chunk.absorb data).counter = stream.chunk.counter := hholds.counter_eq
  refine ⟨?_, ?_, ?_, ?_⟩
  · change Covers 0 (stream.chunk.absorb data).counter front stream.stack
    rw [hcounter]
    exact h.covers
  · change Chunk.Holds (stream.chunk.absorb data) (stream.chunk.absorb data).counter (last ++ data)
    rw [hcounter]
    exact hholds
  · rwa [List.length_append]
  · exact fun hnil => absurd hnil (hpending (Or.inr hdata))

theorem update_of_ne {data : Bytes} (hdata : data ≠ []) (stream : Stream) :
    stream.update data =
      update
        { stream.makeRoom with
          chunk := stream.makeRoom.chunk.absorb
            (data.take (chunkSize - stream.makeRoom.chunk.size)) }
        (data.drop (chunkSize - stream.makeRoom.chunk.size)) := by
  cases data with
  | nil => exact absurd rfl hdata
  | cons byte rest => rw [update]

theorem Parts.update (h : stream.Parts front last) (data : Bytes) :
    ∃ front' last', front' ++ last' = front ++ last ++ data ∧
      (stream.update data).Parts front' last' ∧ (last ≠ [] ∨ data ≠ [] → last' ≠ []) := by
  induction hlen : data.length using Nat.strongRecOn generalizing stream front last data with
  | ind n ih =>
      subst hlen
      by_cases hdata : data = []
      · subst hdata
        rw [Stream.update, List.append_nil]
        exact ⟨front, last, rfl, h, fun hne => hne.resolve_right (fun hnil => hnil rfl)⟩
      · obtain ⟨front', last', hcontent, hparts⟩ := h.makeRoom
        have hshort := size_chunk_makeRoom stream
        have hpos := List.length_pos_iff.2 hdata
        have hsize := hparts.holds.length_eq
        rw [update_of_ne hdata]
        generalize hroom : chunkSize - stream.makeRoom.chunk.size = room
        have htake : (data.take room).length ≤ room := List.length_take_le _ _
        have hne : data.take room ≠ [] := by
          apply List.ne_nil_of_length_pos
          rw [List.length_take]
          omega
        obtain ⟨front'', last'', hcontent', hparts', hlast⟩ :=
          ih (data.drop room).length (by rw [List.length_drop]; omega)
            (hparts.absorb hne (by omega)) (data.drop room) rfl
        refine ⟨front'', last'', ?_, hparts', fun _ => hlast (Or.inl ?_)⟩
        · rw [hcontent', ← List.append_assoc, hcontent, List.append_assoc, List.take_append_drop]
        · exact List.append_ne_nil_of_right_ne_nil _ hne

/-- The last chunk is not finished, so it becomes the rightmost leaf. -/
theorem Parts.digest_eq (h : stream.Parts front last) (hlast : last = [] → front = []) :
    stream.digest = Blake3.digest (front ++ last) := by
  have hle : last.length ≤ chunkSize * 2 ^ 0 := by
    rw [Nat.pow_zero, Nat.mul_one]
    exact h.last_le
  rw [digest, h.node_eq, Blake3.digest]
  by_cases hnil : last = []
  · subst hnil
    obtain rfl := hlast rfl
    obtain ⟨hcount, hstack⟩ := h.covers.eq_zero rfl
    rw [hcount, hstack]
    rfl
  · rw [h.covers.foldl_parent (List.length_pos_iff.2 hnil) hle]

/-- The computation has seen this content since it started.  Only without content is there nothing
in the chunk in progress. -/
def Tracks (stream : Stream) (content : Bytes) : Prop :=
  ∃ front last, front ++ last = content ∧ stream.Parts front last ∧ (last = [] → front = [])

theorem tracks_start : start.Tracks [] := ⟨[], [], rfl, parts_start, fun _ => rfl⟩

theorem Tracks.update {content : Bytes} (h : stream.Tracks content) (data : Bytes) :
    (stream.update data).Tracks (content ++ data) := by
  obtain ⟨front, last, rfl, hparts, hlast⟩ := h
  obtain ⟨front', last', hcontent, hparts', hlast'⟩ := hparts.update data
  refine ⟨front', last', hcontent, hparts', ?_⟩
  rintro rfl
  -- The chunk in progress is empty after the update only if it was before and nothing came.
  have hnone : ¬ (last ≠ [] ∨ data ≠ []) := fun hne => hlast' hne rfl
  rw [not_or, Classical.not_not, Classical.not_not] at hnone
  obtain ⟨rfl, rfl⟩ := hnone
  rw [hlast rfl, List.append_nil] at hcontent
  exact hcontent

theorem Tracks.digest_eq {content : Bytes} (h : stream.Tracks content) :
    stream.digest = Blake3.digest content := by
  obtain ⟨front, last, rfl, hparts, hlast⟩ := h
  exact hparts.digest_eq hlast

end Stream

end ContentAddress.Blake3
