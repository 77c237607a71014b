import ContentAddress.Proofs.ExactlyOnce
import Mathlib.Algebra.Order.Ring.Nat

/-!
# The history of a list of chunks

Any number of lists stand beside one another, each with a record of what was added to it and of what
was pulled from it since it was last rewound; a copy begins with the record of its original.
However pushes, pulls, puts and rewinds follow on each other, the cursor stands right behind the
chunks that were pulled.  So a put, which pulls all chunks behind the cursor, replays everything
after a rewind and finds nothing after another put.
-/

namespace ContentAddress

open Source

namespace ChunkList

variable {list : ChunkList} {waiting : List Bytes}

theorem Awaits.extend (h : list.Awaits waiting) (chunks : List Bytes) :
    (list.extend chunks).Awaits (waiting ++ chunks.filter fun chunk => !chunk.isEmpty) := by
  induction chunks generalizing list waiting with
  | nil => simpa [ChunkList.extend] using h
  | cons chunk chunks ih =>
      by_cases hchunk : chunk = []
      · subst hchunk
        exact ih h
      · have hrest := ih (h.push hchunk)
        rw [List.append_assoc] at hrest
        rw [List.filter_cons_of_pos (by simpa using hchunk)]
        exact hrest

theorem Awaits.remaining_eq (h : list.Awaits waiting) : list.remaining = waiting.length := by
  rw [← h.pending_eq, pending, List.length_drop, Array.length_toList]
  rfl

theorem foldl_words (chunks : List Bytes) (total : USize) :
    chunks.foldl (fun total chunk => total + USize.ofNat chunk.length) total =
      total + USize.ofNat (chunks.map List.length).sum := by
  induction chunks generalizing total with
  | nil => exact (USize.add_zero total).symm
  | cons chunk chunks ih =>
      rw [List.foldl_cons, ih, List.map_cons, List.sum_cons, USize.ofNat_add, USize.add_assoc]

theorem totalLength_eq (list : ChunkList) :
    list.totalLength = (list.chunks.toList.map List.length).sum % USize.size := by
  rw [totalLength, ← Array.foldl_toList, foldl_words, USize.zero_add]
  exact USize.toNat_ofNat'

/-- Later additions are put as well, however they are grouped. -/
theorem Awaits.id_put_add (h : list.Awaits waiting) (additions : List Addition) (client : Client)
    {pool : Pool} (hpool : pool.Reachable) (ends : Ends (additions.foldl add list)) :
    (client.put pool (additions.foldl add list) ends).id =
      BlobId.ofContent client.config
        (waiting ++ additions.flatMap Addition.chunks).flatten := by
  have hadded : (additions.foldl add list).Awaits _ :=
    foldl_add additions list ▸ h.extend (additions.flatMap Addition.chunks)
  rw [(hadded.put client hpool ends).1, List.flatten_append, List.flatten_append,
    List.flatten_filter_not_isEmpty, Client.putBytes]

end ChunkList

/-- A list with all chunks that were added to it, and those pulled from it since it was last
rewound, empty ones among both. -/
structure Chronicle where
  list : ChunkList
  added : List Bytes := []
  pulled : List Bytes := []

namespace Chronicle

inductive Use
  | add (addition : Addition)
  | next
  | put (client : Client) (pool : Pool)
  | rewind

def act (chronicle : Chronicle) : Use → Chronicle
  | .add addition =>
      { chronicle with
        list := chronicle.list.add addition
        added := chronicle.added ++ addition.chunks }
  | .next =>
      { chronicle with
        list := (Source.next chronicle.list).source
        pulled := chronicle.pulled ++ [(Source.next chronicle.list).chunk] }
  | .put client pool =>
      let observed := Observed.mk chronicle.list chronicle.pulled
      let receipt := client.put pool observed (Observed.forwards.ends (Finite.ends chronicle.list))
      { chronicle with list := receipt.source.source, pulled := receipt.source.pulled }
  | .rewind => { chronicle with list := chronicle.list.rewind, pulled := [] }

/-- A list is made, is a copy of one made before, or is used. -/
inductive Step
  | create
  | collect (chunks : List Bytes)
  | copy (index : Nat)
  | use (index : Nat) (use : Use)

def step (shelf : List Chronicle) : Step → List Chronicle
  | .create => shelf ++ [{ list := .empty }]
  | .collect chunks => shelf ++ [{ list := .ofList chunks, added := chunks }]
  | .copy index => shelf ++ shelf[index]?.toList
  | .use index use => shelf.modify index fun chronicle => chronicle.act use

def run (steps : List Step) : List Chronicle := steps.foldl step []

/-- The record fits the list, and the cursor stands behind what was pulled. -/
structure Sound (chronicle : Chronicle) : Prop where
  position_le : chronicle.list.position ≤ chronicle.list.chunks.size
  held_eq : chronicle.list.chunks.toList = chronicle.added.filter fun chunk => !chunk.isEmpty
  pulled_eq : (chronicle.pulled.filter fun chunk => !chunk.isEmpty) =
    chronicle.list.chunks.toList.take chronicle.list.position

variable {chronicle : Chronicle}

theorem Sound.filled (h : chronicle.Sound) :
    ∀ chunk ∈ chronicle.list.chunks.toList, chunk ≠ [] := by
  intro chunk hmem
  rw [h.held_eq] at hmem
  simpa using (List.mem_filter.1 hmem).2

theorem Sound.filled_pending (h : chronicle.Sound) :
    ∀ chunk ∈ chronicle.list.pending, chunk ≠ [] := fun chunk hmem =>
  h.filled chunk (List.mem_of_mem_drop hmem)

theorem Sound.awaits (h : chronicle.Sound) : chronicle.list.Awaits chronicle.list.pending :=
  ⟨h.position_le, rfl, h.filled_pending⟩

theorem Sound.awaits_rewind (h : chronicle.Sound) :
    chronicle.list.rewind.Awaits chronicle.list.chunks.toList :=
  ⟨Nat.zero_le _, rfl, h.filled⟩

theorem sound_collect (chunks : List Bytes) :
    Sound { list := .ofList chunks, added := chunks } := by
  have hlist : ChunkList.ofList chunks = _ := ChunkList.extend_eq .empty chunks
  constructor
  · simp [hlist, ChunkList.empty]
  · simp [hlist, ChunkList.empty]
  · simp [hlist, ChunkList.empty]

theorem Sound.add (h : chronicle.Sound) (addition : Addition) :
    (chronicle.act (.add addition)).Sound := by
  have hlist := chronicle.list.extend_eq addition.chunks
  rw [← ChunkList.add_eq_extend] at hlist
  have hposition := h.position_le
  constructor
  · simp only [act, hlist, Array.size_append]
    omega
  · simp only [act, hlist, Array.toList_append, List.filter_append, h.held_eq]
  · -- The cursor is not behind the old chunks, so new ones do not come before it.
    simp only [act, hlist, Array.toList_append]
    rw [List.take_append_of_le_length (by simpa using hposition)]
    exact h.pulled_eq

theorem Sound.next (h : chronicle.Sound) : (chronicle.act .next).Sound := by
  cases hpending : chronicle.list.pending with
  | nil =>
      have hnext := ChunkList.next_of_pending_nil hpending
      constructor
      · simpa only [act, hnext] using h.position_le
      · simpa only [act, hnext] using h.held_eq
      · simpa [act, hnext] using h.pulled_eq
  | cons chunk rest =>
      obtain ⟨hnext, -⟩ := ChunkList.next_of_pending_cons hpending
      have hchunk : chunk ≠ [] := h.filled_pending chunk (by simp [hpending])
      have hget : chronicle.list.chunks.toList[chronicle.list.position]? = some chunk := by
        rw [← List.head?_drop]
        exact congrArg List.head? hpending
      obtain ⟨hlt, -⟩ := List.getElem?_eq_some_iff.1 hget
      constructor
      · simp only [act, hnext]
        simpa [Nat.succ_le_iff] using hlt
      · simpa only [act, hnext] using h.held_eq
      · simp only [act, hnext, List.filter_append, h.pulled_eq, List.take_add_one, hget]
        simpa using hchunk

theorem Sound.drains (h : chronicle.Sound) :
    Drains chronicle.list chronicle.list.pending
      { chronicle.list with position := chronicle.list.chunks.size } := by
  have hrun := ChunkList.drains h.filled_pending
  have hlength : chronicle.list.pending.length = _ := h.awaits.remaining_eq.symm
  have hend : chronicle.list.position + chronicle.list.pending.length =
      chronicle.list.chunks.size := by
    rw [hlength]
    exact Nat.add_sub_cancel' h.position_le
  rwa [hend] at hrun

theorem Sound.act_put (h : chronicle.Sound) (client : Client) (pool : Pool) :
    chronicle.act (.put client pool) =
      { chronicle with
        list := { chronicle.list with position := chronicle.list.chunks.size }
        pulled := chronicle.pulled ++ (chronicle.list.pending ++ [[]]) } := by
  have hsource := (Observed.drains h.drains chronicle.pulled).source_put client pool
    (Observed.forwards.ends (Finite.ends chronicle.list))
  simp only [act, hsource]

theorem Sound.put (h : chronicle.Sound) (client : Client) (pool : Pool) :
    (chronicle.act (.put client pool)).Sound := by
  rw [h.act_put]
  constructor
  · exact Nat.le_refl _
  · exact h.held_eq
  · have hpending : (chronicle.list.pending.filter fun chunk => !chunk.isEmpty) =
        chronicle.list.pending :=
      List.filter_eq_self.2 fun chunk hmem => by simpa using h.filled_pending chunk hmem
    have hall : chronicle.list.chunks.toList.take chronicle.list.chunks.size =
        chronicle.list.chunks.toList := List.take_of_length_le (by simp)
    simp only [List.filter_append, h.pulled_eq, hpending, hall]
    simp [ChunkList.pending]

theorem Sound.rewind (h : chronicle.Sound) : (chronicle.act .rewind).Sound :=
  ⟨Nat.zero_le _, h.held_eq, rfl⟩

theorem Sound.act (h : chronicle.Sound) (use : Use) : (chronicle.act use).Sound := by
  cases use with
  | add addition => exact h.add addition
  | next => exact h.next
  | put client pool => exact h.put client pool
  | rewind => exact h.rewind

theorem sound_step {shelf : List Chronicle} (h : ∀ chronicle ∈ shelf, chronicle.Sound)
    (step : Step) : ∀ chronicle ∈ Chronicle.step shelf step, chronicle.Sound := by
  cases step with
  | create => exact List.forall_mem_append.2 ⟨h, List.forall_mem_singleton.2 (sound_collect [])⟩
  | collect chunks =>
      exact List.forall_mem_append.2 ⟨h, List.forall_mem_singleton.2 (sound_collect chunks)⟩
  | copy index =>
      refine List.forall_mem_append.2 ⟨h, ?_⟩
      intro chronicle hmem
      exact h chronicle (List.mem_of_getElem? (Option.mem_toList.1 hmem))
  | use index use =>
      intro chronicle hmem
      obtain ⟨place, hget⟩ := List.mem_iff_getElem?.1 hmem
      rw [Chronicle.step, List.getElem?_modify] at hget
      obtain ⟨before, hbefore, rfl⟩ := Option.map_eq_some_iff.1 hget
      have hsound := h before (List.mem_of_getElem? hbefore)
      split
      · exact hsound.act use
      · exact hsound

theorem sound_run (steps : List Step) : ∀ chronicle ∈ run steps, chronicle.Sound := by
  induction steps using List.reverseRecOn with
  | nil => simp [run]
  | append_singleton steps step ih =>
      rw [run, List.foldl_append]
      exact sound_step ih step

/-- In every list of a shelf the cursor is within the list and stands behind as many chunks as were
pulled since the last rewind.  The list holds every chunk that was added to it or to its original
and is not empty, and their total length is told as far as a word of the machine goes.  Only at the
end nothing is pulled.  A put identifies the chunks behind the
cursor and moves the cursor to the end: what is put afterwards is empty, or everything after a
rewind, or what was added in the meantime. -/
theorem cursor_behind_pulled {steps : List Step} {chronicle : Chronicle}
    (h : chronicle ∈ run steps) :
    let list := chronicle.list
    let held := list.chunks.toList
    (list.position ≤ list.size ∧ list.position + list.remaining = list.size) ∧
    (∀ chunk ∈ held, chunk ≠ []) ∧
    held = chronicle.added.filter (fun chunk => !chunk.isEmpty) ∧
    list.totalLength = (held.map List.length).sum % USize.size ∧
    ((held.map List.length).sum < USize.size →
      list.totalLength = (held.map List.length).sum) ∧
    chronicle.pulled.filter (fun chunk => !chunk.isEmpty) = held.take list.position ∧
    ((Source.next list).chunk = [] ↔ list.remaining = 0) ∧
    (list.remaining = 0 → (Source.next list).source = list) ∧
    ∀ (client : Client) (pool : Pool), pool.Reachable →
      let receipt := client.put pool list (Finite.ends list)
      receipt.id = BlobId.ofContent client.config (held.drop list.position).flatten ∧
      receipt.source = (chronicle.act (.put client pool)).list ∧
      receipt.source.remaining = 0 ∧ receipt.source.chunks = list.chunks ∧
      ∀ (other : Client) (pool' : Pool), pool'.Reachable → ∀ additions : List Addition,
        let added := (additions.flatMap Addition.chunks).flatten
        (other.put pool' receipt.source (Finite.ends _)).id =
          BlobId.ofContent other.config [] ∧
        (other.put pool' receipt.source.rewind (Finite.ends _)).id =
          BlobId.ofContent other.config held.flatten ∧
        (other.put pool' (additions.foldl ChunkList.add receipt.source) (Finite.ends _)).id =
          BlobId.ofContent other.config added ∧
        (list.remaining = 0 →
          (other.put pool' (additions.foldl ChunkList.add list) (Finite.ends _)).id =
            BlobId.ofContent other.config added) := by
  intro list held
  have hsound : chronicle.Sound := sound_run steps chronicle h
  have hawaits : list.Awaits list.pending := hsound.awaits
  have hremaining := hawaits.remaining_eq
  have hdrained : list.remaining = 0 → list.pending = [] := fun hzero =>
    List.length_eq_zero_iff.1 (hremaining.symm.trans hzero)
  refine ⟨⟨hsound.position_le, Nat.add_sub_cancel' hsound.position_le⟩, hsound.filled,
    hsound.held_eq, list.totalLength_eq,
    fun hsum => list.totalLength_eq.trans (Nat.mod_eq_of_lt hsum), hsound.pulled_eq, ?_, ?_, ?_⟩
  · cases hpending : list.pending with
    | nil =>
        rw [ChunkList.next_of_pending_nil hpending]
        exact iff_of_true rfl (by rw [hremaining, hpending]; rfl)
    | cons chunk rest =>
        have hchunk : chunk ≠ [] := hsound.filled_pending chunk (hpending ▸ List.mem_cons_self)
        rw [(ChunkList.next_of_pending_cons hpending).1]
        exact iff_of_false hchunk (by rw [hremaining, hpending]; exact Nat.succ_ne_zero _)
  · intro hzero
    rw [ChunkList.next_of_pending_nil (hdrained hzero)]
  · intro client pool hpool receipt
    have hsource : receipt.source = { list with position := list.chunks.size } :=
      hsound.drains.source_put client pool (Finite.ends list)
    obtain ⟨hid, hafter⟩ := hawaits.put client hpool (Finite.ends list)
    refine ⟨hid, ?_, hafter.remaining_eq, by rw [hsource], ?_⟩
    · rw [hsource, hsound.act_put]
    · intro other pool' hpool' additions added
      have hrewound : receipt.source.rewind.Awaits held := by
        rw [hsource]
        exact hsound.awaits_rewind
      refine ⟨(hafter.put other hpool' _).1, (hrewound.put other hpool' _).1, ?_, ?_⟩
      · exact hafter.id_put_add additions other hpool' _
      · intro hzero
        have hempty : list.Awaits [] := hdrained hzero ▸ hawaits
        exact hempty.id_put_add additions other hpool' _

/-- A copy is made of a list that was pulled from once, and is added to after its original was
rewound. -/
theorem cursor_behind_pulled_copied :
    let steps : List Step := [.collect [[97], [], [98]], .use 0 .next, .copy 0, .use 0 .rewind,
      .use 1 (.add (.push [99]))]
    let copied : Chronicle :=
      { list := { chunks := #[[97], [98], [99]], position := 1 }
        added := [[97], [], [98], [99]]
        pulled := [[97]] }
    let receipt := Client.default.put .empty copied.list (Finite.ends copied.list)
    copied ∈ run steps ∧ receipt.id = BlobId.ofContent {} [98, 99] ∧
      receipt.source.remaining = 0 ∧
      (Client.default.put .empty receipt.source.rewind (Finite.ends _)).id =
        BlobId.ofContent {} [97, 98, 99] := by
  intro steps copied receipt
  have hmem : copied ∈ run steps := List.mem_cons_of_mem _ List.mem_cons_self
  obtain ⟨-, -, -, -, -, -, -, -, hput⟩ := cursor_behind_pulled hmem
  obtain ⟨hid, -, hremaining, -, hafter⟩ := hput Client.default .empty Pool.reachable_empty
  obtain ⟨-, hrewound, -⟩ := hafter Client.default .empty Pool.reachable_empty []
  exact ⟨hmem, hid, hremaining, hrewound⟩

end Chronicle

end ContentAddress
