import ContentAddress.Proofs.FeedRuns
import ContentAddress.Proofs.HeldChunks
import ContentAddress.Proofs.ReadVerdict
import Mathlib.Data.List.TakeWhile

/-!
# Identifiers do not depend on the chunking

The same content can arrive as a byte string, as a list of chunks however it was built, through a
feed, or through a reader that is interrupted and whose blocks are cut again by the read buffer.
Each source drops the empty chunks in its own way and yields the others in order, so all of them
lead to one identifier, in which the read size does not occur.
-/

namespace ContentAddress

universe u

open Source

/-! ## Readers that are only interrupted -/

/-- Whether the answer is an interruption, by its kind. -/
def ScriptStep.interrupts : ScriptStep → Bool
  | interrupt => true
  | fail error => error.kind = .interrupted
  | _ => false

theorem ScriptStep.passes_of_interrupts {step : ScriptStep} (h : step.interrupts = true) :
    step.passes = true := by
  cases step with
  | interrupt => rfl
  | fail error => exact h
  | data bytes => cases h
  | zero => cases h
  | stale count => cases h

theorem ScriptStep.content_of_interrupts {step : ScriptStep} (h : step.interrupts = true) :
    step.content = [] := by
  cases step with
  | data bytes => cases h
  | _ => rfl

namespace Script

/-- But for interruptions, the answers are the chunks that are not empty, in order. -/
def HandsOut (steps : List ScriptStep) (chunks : List Bytes) : Prop :=
  steps.filter (fun step => !step.interrupts) =
    (chunks.filter fun chunk => !chunk.isEmpty).map ScriptStep.data

variable {steps : List ScriptStep} {chunks : List Bytes}

theorem HandsOut.interrupts_or_data (h : HandsOut steps chunks) {step : ScriptStep}
    (hmem : step ∈ steps) :
    step.interrupts = true ∨ ∃ bytes, bytes ≠ [] ∧ step = .data bytes := by
  by_cases hint : step.interrupts = true
  · exact Or.inl hint
  · have hfilter : step ∈ steps.filter fun step => !step.interrupts :=
      List.mem_filter.2 ⟨hmem, by simp [hint]⟩
    rw [h] at hfilter
    obtain ⟨bytes, hbytes, rfl⟩ := List.mem_map.1 hfilter
    obtain ⟨-, hne⟩ := List.mem_filter.1 hbytes
    exact Or.inr ⟨bytes, by simpa using hne, rfl⟩

theorem HandsOut.passes (h : HandsOut steps chunks) : ∀ step ∈ steps, step.passes = true := by
  intro step hmem
  rcases h.interrupts_or_data hmem with hint | ⟨bytes, hne, rfl⟩
  · exact ScriptStep.passes_of_interrupts hint
  · simpa [ScriptStep.passes] using hne

theorem HandsOut.plain (h : HandsOut steps chunks) : Plain steps := by
  intro count hmem
  have hpasses := h.passes _ hmem
  cases hpasses

theorem HandsOut.failure?_eq (h : HandsOut steps chunks) : failure? steps = none := by
  have hending : ending steps = [] := List.dropWhile_eq_nil_iff.2 h.passes
  rw [failure?, hending]

theorem flatMap_content_filter (steps : List ScriptStep) :
    (steps.filter fun step => !step.interrupts).flatMap ScriptStep.content =
      steps.flatMap ScriptStep.content := by
  induction steps with
  | nil => rfl
  | cons step steps ih =>
      by_cases hint : step.interrupts = true
      · rw [List.filter_cons_of_neg (by simp [hint]), ih, List.flatMap_cons,
          ScriptStep.content_of_interrupts hint, List.nil_append]
      · rw [List.filter_cons_of_pos (by simp [hint]), List.flatMap_cons, ih, List.flatMap_cons]

theorem HandsOut.passed_eq (h : HandsOut steps chunks) : passed steps = chunks.flatten := by
  have htake : steps.takeWhile ScriptStep.passes = steps := List.takeWhile_eq_self_iff.2 h.passes
  calc passed steps = steps.flatMap ScriptStep.content := by rw [passed, htake]
    _ = ((chunks.filter fun chunk => !chunk.isEmpty).map ScriptStep.data).flatMap
          ScriptStep.content := by rw [← flatMap_content_filter, h]
    _ = (chunks.filter fun chunk => !chunk.isEmpty).flatten := by
          rw [List.flatMap_map, List.flatMap_def]
          exact congrArg List.flatten (List.map_id _)
    _ = chunks.flatten := List.flatten_filter_not_isEmpty

end Script

/-! ## One identifier for all entry points -/

section EntryPoints

variable (client : Client) {pool : Pool} (hpool : pool.Reachable) (chunks : List Bytes)

include hpool

theorem id_put_ofList :
    (client.put pool (ChunkList.ofList chunks) (Finite.ends _)).id =
      client.putBytes chunks.flatten := by
  have hne : ∀ chunk ∈ (ChunkList.ofList chunks).pending, chunk ≠ [] := by
    intro chunk hmem
    rw [ChunkList.pending_ofList] at hmem
    simpa using (List.mem_filter.1 hmem).2
  have hid := (ChunkList.drains hne).id_put client hpool (Finite.ends _)
  rwa [ChunkList.pending_ofList, List.flatten_filter_not_isEmpty] at hid

variable {chunks}

theorem id_put_feed {ι : Type u} [Feed ι] {feed after : ι}
    (hgives : Feed.Gives feed chunks after) :
    ∃ ends : Ends ({ feed } : FeedSource ι),
      (client.put pool ({ feed } : FeedSource ι) ends).id = client.putBytes chunks.flatten := by
  have run : Drains ({ feed } : FeedSource ι) _ _ := FeedSource.drains rfl hgives
  have hid := run.id_put client hpool run.ends
  rw [List.flatten_filter_not_isEmpty] at hid
  exact ⟨run.ends, hid⟩

theorem id_put_readSource {script : Script} (hscript : Script.HandsOut script.steps chunks)
    (requested : Nat) :
    (client.put (ReadSource.start pool script requested).2
      (ReadSource.start pool script requested).1 (Finite.ends _)).id =
      client.putBytes chunks.flatten := by
  obtain ⟨pulled, after, run⟩ := (Finite.ends (ReadSource.start pool script requested).1).drains
  have hdrains := ReadSource.drains_script run rfl rfl (ReadSource.clampReadSize_pos requested)
    hscript.plain
  have hflatten : pulled.flatten = chunks.flatten := hdrains.1.trans hscript.passed_eq
  have hopened : (ReadSource.start pool script requested).2.Reachable := hpool.take
  rw [run.id_put client hopened, hflatten]
  rfl

theorem result_putReader_handsOut {script : Script}
    (hscript : Script.HandsOut script.steps chunks) :
    (client.putReader pool script (Finite.ends _)).result =
      .ok (client.putBytes chunks.flatten) := by
  obtain ⟨hresult, -⟩ := putReader_script client hpool script hscript.plain
  rw [hresult, hscript.failure?_eq, hscript.passed_eq]
  rfl

end EntryPoints

/-- However some content is cut into chunks and whichever way it is put, the identifier is that of
the content as one byte string.  It is given here under the default read size: the one in use does
not matter. -/
theorem put_eq_of_flatten (algorithm : Algorithm) (seed : UInt64) (readSize : Nat)
    (hvalid : Config.Valid { algorithm, seed, readSize }) {pool : Pool} (hpool : pool.Reachable)
    (chunks : List Bytes) :
    let client : Client := ⟨{ algorithm, seed, readSize }, hvalid⟩
    let id := BlobId.ofContent { algorithm, seed } chunks.flatten
    client.putBytes chunks.flatten = id ∧
      (client.put pool (ChunkList.ofList chunks) (Finite.ends _)).id = id ∧
      (∀ additions : List Addition, additions.flatMap Addition.chunks = chunks →
        (client.put pool (additions.foldl ChunkList.add .empty) (Finite.ends _)).id = id) ∧
      (∀ (ι : Type u) [Feed ι] (feed after : ι),
        Feed.Gives feed chunks after → ∃ ends : Ends ({ feed } : FeedSource ι),
          (client.put pool ({ feed } : FeedSource ι) ends).id = id) ∧
      ∀ script : Script, Script.HandsOut script.steps chunks →
        (client.putReader pool script (Finite.ends _)).result = .ok id ∧
        ∀ requested : Nat,
          (client.put (ReadSource.start pool script requested).2
            (ReadSource.start pool script requested).1 (Finite.ends _)).id = id := by
  intro client id
  have hbytes : client.putBytes chunks.flatten = id :=
    BlobId.ofContent_congr rfl rfl chunks.flatten
  rw [← hbytes]
  refine ⟨rfl, id_put_ofList client hpool chunks, ?_, ?_, ?_⟩
  · intro additions hadditions
    have hlist : additions.foldl ChunkList.add .empty = ChunkList.ofList chunks := by
      rw [ChunkList.foldl_add, hadditions]
      rfl
    rw [hlist]
    exact id_put_ofList client hpool chunks
  · intro ι _ feed after hgives
    exact id_put_feed client hpool hgives
  · intro script hscript
    exact ⟨result_putReader_handsOut client hpool hscript,
      id_put_readSource client hpool hscript⟩

/-- An interrupted reader whose second block is cut by the read size, beside an interrupted feed of
the same chunks, one of them empty. -/
theorem put_eq_of_flatten_interrupted :
    let chunks : List Bytes := [[97], [], [98, 99, 100]]
    let client : Client := ⟨{ algorithm := .xxh64, seed := 7, readSize := 2 }, by decide⟩
    let script : Script :=
      { steps := [.interrupt, .data [97], .fail { kind := .interrupted, message? := some "again" },
          .data [98, 99, 100], .interrupt] }
    let feed : Items := { left := chunks.map some }
    let used := (client.put .empty (ChunkList.ofList [[120]]) (Finite.ends _)).pool
    used.Reachable ∧ Script.HandsOut script.steps chunks ∧
      (client.putReader used script (Finite.ends _)).result = .ok (client.putBytes chunks.flatten) ∧
      ∃ ends : Ends ({ feed } : FeedSource Items),
        (client.put used ({ feed } : FeedSource Items) ends).id =
          client.putBytes chunks.flatten := by
  intro chunks client script feed used
  have hused : used.Reachable := Pool.reachable_empty.put client (ChunkList.ofList [[120]]) _
  have hscript : Script.HandsOut script.steps chunks := by
    unfold Script.HandsOut
    decide
  obtain ⟨hbytes, -, -, hfeed, hreader⟩ :=
    put_eq_of_flatten.{0} .xxh64 7 2 (by decide) hused chunks
  rw [← hbytes] at hfeed hreader
  exact ⟨hused, hscript, (hreader script hscript).1, hfeed Items feed _ (Items.gives chunks 0)⟩

end ContentAddress
