import ContentAddress.Proofs.Draining
import ContentAddress.Source.Playback

/-!
# Putting through references and boxes

References and boxes can be put around a source in any order and to any depth.  Whatever the
nesting, a put consumes the source itself: up to its first empty chunk, with one pull for each chunk
and one for the end.
-/

namespace ContentAddress

universe u

open Source

instance {σ : Type u} [Source σ] : Source (ULift.{u + 1} σ) where
  Answers outer := Answers outer.down
  pull outer answers := (Source.pull outer.down answers).map ULift.up

theorem forwards_down {σ : Type u} [Source σ] : Forwards (ULift.down : ULift.{u + 1} σ → σ) :=
  ⟨fun _ => Iff.rfl, fun _ _ _ => rfl⟩

/-- The sources that stand for one of type `σ`: the source itself, and whatever a reference, a box
or a box of hidden type is put around.  A hidden type needs a universe above its own, which is where
`direct` takes the source. -/
inductive Nesting (σ : Type u) [Source σ] : (ω : Type (u + 1)) → [Source ω] → (ω → σ) → Prop
  | direct : Nesting σ (ULift.{u + 1} σ) ULift.down
  | borrowed {ω : Type (u + 1)} [Source ω] {view : ω → σ} (inner : Nesting σ ω view) :
      Nesting σ (Borrowed ω) (view ∘ Borrowed.target)
  | boxed {ω : Type (u + 1)} [Source ω] {view : ω → σ} (inner : Nesting σ ω view) :
      Nesting σ (Boxed ω) (view ∘ Boxed.content)
  | erased {ω : Type (u + 1)} [Source ω] {view : ω → σ} (inner : Nesting σ ω view) :
      Nesting σ (Erased.{u + 1, u} ω) (view ∘ Erased.target)

theorem Nesting.forwards {σ : Type u} [Source σ] {ω : Type (u + 1)} [Source ω] {view : ω → σ}
    (nesting : Nesting σ ω view) : Forwards view := by
  induction nesting with
  | direct => exact forwards_down
  | borrowed inner ih => exact ih.comp Borrowed.forwards
  | boxed inner ih => exact ih.comp Boxed.forwards
  | erased inner ih => exact ih.comp Erased.forwards_target

/-- A put pulls the chunks of its source and the empty chunk behind them, nothing more, and
identifies the chunks put together.  Neither the buffer that the pool hands out nor the nesting
through which the source is reached makes a difference. -/
theorem put_of_drains {σ : Type u} [Source σ] (client : Client) {pool : Pool}
    (hpool : pool.Reachable) {source after : σ} {chunks : List Bytes}
    (run : Drains source chunks after) :
    (client.put pool source run.ends).id = BlobId.ofContent client.config chunks.flatten ∧
      (client.put pool source run.ends).source = after ∧
      after = advance^[chunks.length + 1] source ∧
      (client.put pool (Observed.mk source []) (Observed.drains run []).ends).source =
        ⟨after, chunks ++ [[]]⟩ ∧
      ∀ (ω : Type (u + 1)) [Source ω] (view : ω → σ), Nesting σ ω view →
        ∀ outer : ω, view outer = source → ∃ ends : Ends outer,
          (client.put pool outer ends).id = BlobId.ofContent client.config chunks.flatten ∧
          view (client.put pool outer ends).source = after := by
  refine ⟨run.id_put client hpool run.ends, run.source_put client pool run.ends, run.eq_iterate,
    ?_, ?_⟩
  · exact (Observed.drains run []).source_put client pool _
  · intro ω _ view nesting outer houter
    subst houter
    have hends : Ends outer := nesting.forwards.ends run.ends
    have hput := nesting.forwards.put client pool hends run.ends
    refine ⟨hends, ?_, ?_⟩
    · have hid := congrArg Receipt.id hput
      exact hid.symm.trans (run.id_put client hpool run.ends)
    · have hsource := congrArg Receipt.source hput
      exact hsource.symm.trans (run.source_put client pool run.ends)

/-- The source would go on behind its empty chunk, and the buffer was used before. -/
theorem put_of_drains_playback :
    let earlier : Playback := { left := [[120, 121]] }
    let source : Playback := { left := [[97, 98], [99], [], [100]] }
    let used := (Client.default.put .empty earlier (Source.Finite.ends earlier)).pool
    let outer : Boxed (Erased.{1, 0} (Borrowed (ULift.{1} Playback))) :=
      ⟨⟨Playback, inferInstance, source, fun state => ⟨⟨state⟩⟩,
        ⟨fun _ => Iff.rfl, fun _ _ _ => rfl⟩⟩⟩
    used.Reachable ∧ ∃ (run : Drains source [[97, 98], [99]] ⟨[[100]], 3⟩) (ends : Ends outer),
      (Client.default.put used source run.ends).source = ⟨[[100]], 3⟩ ∧
      (Client.default.put used outer ends).id =
        BlobId.ofContent Client.default.config [97, 98, 99] := by
  intro earlier source used outer
  have hused : used.Reachable := Pool.reachable_empty.put Client.default earlier _
  have run : Drains source [[97, 98], [99]] ⟨[[100]], 3⟩ :=
    .more trivial (by decide) (.more trivial (by decide) (.stop trivial rfl))
  obtain ⟨-, hsource, -, -, hnested⟩ := put_of_drains Client.default hused run
  obtain ⟨ends, hid, -⟩ :=
    hnested _ _ (Nesting.boxed (.erased (.borrowed .direct))) outer rfl
  exact ⟨hused, run, ends, hsource, hid⟩

end ContentAddress
