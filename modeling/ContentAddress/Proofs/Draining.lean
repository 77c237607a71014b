import ContentAddress.Proofs.PoolTraffic
import ContentAddress.Source.Access
import Mathlib.Logic.Function.Iterate

/-!
# Draining a source

A source is an arbitrary state machine, so all that can be said of a drain is in terms of what the
source yields from its current state.  The relation below records that, and the loop is proved to
follow it: it pulls up to and including the first empty chunk, and its buffer gains exactly the
chunks.  Looking at a source through a forwarding view commutes with all of this.
-/

namespace ContentAddress

universe u v

namespace Source

variable {σ : Type u} [Source σ]

open Classical in
/-- What a pull from the state comes to.  Where it does not come to an end there is nothing to say,
and the state is left as it is. -/
noncomputable def outcome (source : σ) : Pull σ :=
  if answers : Answers source then pull source answers else { chunk := [], source }

theorem outcome_eq {source : σ} (answers : Answers source) : outcome source = pull source answers :=
  dif_pos answers

noncomputable def advance (source : σ) : σ := (outcome source).source

theorem advance_eq {source : σ} (answers : Answers source) :
    advance source = (pull source answers).source :=
  congrArg Pull.source (outcome_eq answers)

/-- Pulled one after the other from `source`, the listed chunks are not empty and the one behind
them is; that last pull leads to `after`. -/
inductive Drains : σ → List Bytes → σ → Prop
  | stop {source : σ} (answers : Answers source) (hchunk : (pull source answers).chunk = []) :
      Drains source [] (pull source answers).source
  | more {source after : σ} {chunks : List Bytes} (answers : Answers source)
      (hchunk : (pull source answers).chunk ≠ [])
      (rest : Drains (pull source answers).source chunks after) :
      Drains source ((pull source answers).chunk :: chunks) after

namespace Drains

variable {source after : σ} {chunks : List Bytes}

theorem eq_iterate (run : Drains source chunks after) :
    after = advance^[chunks.length + 1] source := by
  induction run with
  | stop answers _ => exact (advance_eq answers).symm
  | more answers hchunk rest ih =>
      rw [List.length_cons, Function.iterate_succ_apply, advance_eq answers]
      exact ih

theorem ends (run : Drains source chunks after) : Ends source := by
  induction run with
  | stop answers hchunk => exact Ends.intro answers fun hne => absurd hchunk hne
  | more answers hchunk rest ih => exact Ends.intro answers fun _ => ih

theorem of_pull_empty {answers : Answers source} {events : List Event}
    (hpull : pull source answers = ⟨[], after, events⟩) : Drains source [] after := by
  have hstop := Drains.stop answers (congrArg Pull.chunk hpull)
  rwa [hpull] at hstop

theorem of_pull {answers : Answers source} {middle : σ} {chunk : Bytes} {events : List Event}
    (hpull : pull source answers = ⟨chunk, middle, events⟩) (hne : chunk ≠ [])
    (rest : Drains middle chunks after) : Drains source (chunk :: chunks) after := by
  have hchunk : (pull source answers).chunk ≠ [] := by rwa [hpull]
  have hmore : Drains source ((pull source answers).chunk :: chunks) after :=
    .more answers hchunk (by rwa [hpull])
  rwa [hpull] at hmore

/-- Only the first pull depends on the source that the drain starts from. -/
theorem congr_pull {other : σ} (run : Drains source chunks after) {answers' : Answers other}
    (hpull : ∀ answers, pull source answers = pull other answers') : Drains other chunks after := by
  cases run with
  | stop answers hchunk =>
      rw [hpull answers] at hchunk ⊢
      exact .stop answers' hchunk
  | more answers hchunk rest =>
      rw [hpull answers] at hchunk rest ⊢
      exact .more answers' hchunk rest

end Drains

theorem Ends.drains {source : σ} (ends : Ends source) :
    ∃ chunks after, Drains source chunks after := by
  induction ends with
  | intro answers _ ih =>
      by_cases hchunk : (pull _ answers).chunk = []
      · exact ⟨[], _, .stop answers hchunk⟩
      · obtain ⟨chunks, after, run⟩ := ih hchunk
        exact ⟨_ :: chunks, after, .more answers hchunk run⟩

end Source

open Source

section Loop

variable {σ : Type u} [Source σ]

theorem drain_stop {source : σ} (ends : Ends source)
    (hchunk : (pull source ends.answers).chunk = []) (contents : Buffer) (count : Nat)
    (events : Array Event) :
    drain source ends contents count events =
      ⟨(pull source ends.answers).source, contents, count,
        events ++ (pull source ends.answers).events⟩ := by
  rw [drain]
  split
  · next after happened hpull => simp [hpull]
  · next byte rest after happened hpull => simp [hpull] at hchunk

theorem drain_more {source : σ} (ends : Ends source)
    (hchunk : (pull source ends.answers).chunk ≠ []) (contents : Buffer) (count : Nat)
    (events : Array Event) :
    drain source ends contents count events =
      drain (pull source ends.answers).source (ends.follows ⟨ends.answers, hchunk, rfl⟩)
        (contents.append (pull source ends.answers).chunk) (count + 1)
        ((events ++ (pull source ends.answers).events).push
          (.appending count (pull source ends.answers).chunk.length)) := by
  rw [drain]
  split
  · next after happened hpull => simp [hpull] at hchunk
  · next byte rest after happened hpull => simp [hpull]

theorem Source.Drains.drain_eq {source after : σ} {chunks : List Bytes}
    (run : Drains source chunks after) (ends : Ends source) (contents : Buffer) (count : Nat)
    (events : Array Event) :
    ∃ happened, drain source ends contents count events =
      ⟨after, chunks.foldl Buffer.append contents, count + chunks.length, happened⟩ := by
  induction run generalizing contents count events with
  | stop answers hchunk => exact ⟨_, drain_stop ends hchunk contents count events⟩
  | more answers hchunk rest ih =>
      rw [drain_more ends hchunk]
      obtain ⟨happened, hrest⟩ :=
        ih (ends.follows ⟨answers, hchunk, rfl⟩) (contents.append _) (count + 1) _
      refine ⟨happened, hrest.trans ?_⟩
      rw [List.foldl_cons, List.length_cons, Nat.add_right_comm, Nat.add_assoc]

theorem Buffer.bytes_foldl_append (chunks : List Bytes) (buffer : Buffer) :
    (chunks.foldl Buffer.append buffer).bytes = buffer.bytes ++ chunks.flatten := by
  induction chunks generalizing buffer with
  | nil => simp
  | cons chunk chunks ih =>
      rw [List.foldl_cons, ih, bytes_append, List.flatten_cons, List.append_assoc]

end Loop

/-! ## Putting -/

section Put

variable {σ : Type u} [Source σ] (client : Client) {source after : σ} {chunks : List Bytes}

theorem Source.Drains.put_eq (run : Drains source chunks after) (pool : Pool)
    (ends : Ends source) :
    ∃ happened, client.put pool source ends =
      { id := BlobId.ofContent client.config (pool.take.1.bytes ++ chunks.flatten)
        source := after
        pool := pool.take.2.give (chunks.foldl Buffer.append pool.take.1)
        events := happened } := by
  obtain ⟨happened, hdrain⟩ := run.drain_eq ends pool.take.1 0 #[]
  simp only [Client.put, hdrain, Buffer.bytes_foldl_append]
  exact ⟨_, rfl⟩

theorem Source.Drains.source_put (run : Drains source chunks after) (pool : Pool)
    (ends : Ends source) : (client.put pool source ends).source = after := by
  obtain ⟨happened, hput⟩ := run.put_eq client pool ends
  rw [hput]

theorem Source.Drains.pool_put (run : Drains source chunks after) (pool : Pool)
    (ends : Ends source) :
    (client.put pool source ends).pool =
      pool.take.2.give (chunks.foldl Buffer.append pool.take.1) := by
  obtain ⟨happened, hput⟩ := run.put_eq client pool ends
  rw [hput]

/-- The content starts from an empty buffer, whichever buffer the pool hands out. -/
theorem Source.Drains.id_put (run : Drains source chunks after) {pool : Pool}
    (hpool : pool.Reachable) (ends : Ends source) :
    (client.put pool source ends).id = BlobId.ofContent client.config chunks.flatten := by
  obtain ⟨happened, hput⟩ := run.put_eq client pool ends
  rw [hput, hpool.bytes_take, List.nil_append]

end Put

namespace Pool

theorem Traffic.use_head {pool : Pool} {before after : Buffer} {held : List Buffer}
    (h : Traffic pool (before :: held)) (huse : Buffer.Use before after) :
    Traffic pool (after :: held) :=
  @Traffic.use pool [] held before after h huse

theorem Traffic.give_head {pool : Pool} {buffer : Buffer} {held : List Buffer}
    (h : Traffic pool (buffer :: held)) : Traffic (pool.give buffer) held :=
  @Traffic.give pool [] held buffer h

theorem Traffic.foldl_append {pool : Pool} {buffer : Buffer} {held : List Buffer}
    (h : Traffic pool (buffer :: held)) (chunks : List Bytes) :
    Traffic pool (chunks.foldl Buffer.append buffer :: held) := by
  induction chunks generalizing buffer with
  | nil => exact h
  | cons chunk chunks ih => exact ih (h.use_head (.append buffer chunk))

/-- A put is traffic: it takes a buffer, appends to it and gives it back. -/
theorem Traffic.put {σ : Type u} [Source σ] {pool : Pool} {held : List Buffer}
    (h : Traffic pool held) (client : Client) (source : σ) (ends : Ends source) :
    Traffic (client.put pool source ends).pool held := by
  obtain ⟨chunks, after, run⟩ := ends.drains
  rw [run.pool_put client pool ends]
  exact (h.take.foldl_append chunks).give_head

theorem Reachable.put {σ : Type u} [Source σ] {pool : Pool} (h : pool.Reachable)
    (client : Client) (source : σ) (ends : Ends source) :
    (client.put pool source ends).pool.Reachable := by
  obtain ⟨held, h⟩ := h
  exact ⟨held, h.put client source ends⟩

end Pool

/-! ## Two drains side by side -/

/-- Related states, if they answer, yield the same chunk and the same events, and lead to related
states. -/
structure Lockstep {σ : Type u} {τ : Type v} [Source σ] [Source τ] (Related : σ → τ → Prop) :
    Prop where
  chunk_eq : ∀ {source other}, Related source other → ∀ answers answers',
    (pull source answers).chunk = (pull other answers').chunk
  events_eq : ∀ {source other}, Related source other → ∀ answers answers',
    (pull source answers).events = (pull other answers').events
  source_pull : ∀ {source other}, Related source other → ∀ answers answers',
    Related (pull source answers).source (pull other answers').source

/-- Whatever relation between the two buffers survives appending holds of them in the end. -/
theorem Lockstep.drain {σ : Type u} {τ : Type v} [Source σ] [Source τ] {Related : σ → τ → Prop}
    (h : Lockstep Related) {Same : Buffer → Buffer → Prop}
    (happend : ∀ buffer other chunk, Same buffer other →
      Same (buffer.append chunk) (other.append chunk))
    {source : σ} {other : τ} (ends : Ends source) (ends' : Ends other)
    (hrelated : Related source other) {contents contents' : Buffer}
    (hsame : Same contents contents') (count : Nat) (events : Array Event) :
    let drained := ContentAddress.drain source ends contents count events
    let drained' := ContentAddress.drain other ends' contents' count events
    Related drained.source drained'.source ∧ Same drained.contents drained'.contents ∧
      drained.chunks = drained'.chunks ∧ drained.events = drained'.events := by
  dsimp only
  induction ends generalizing other contents contents' count events with
  | @intro source answers rest ih =>
      have ends : Ends source := .intro answers rest
      have hchunk := h.chunk_eq hrelated answers ends'.answers
      have hevents := h.events_eq hrelated answers ends'.answers
      have hafter := h.source_pull hrelated answers ends'.answers
      by_cases hne : (pull source answers).chunk = []
      · rw [drain_stop ends hne, drain_stop ends' (hchunk ▸ hne), hevents]
        exact ⟨hafter, hsame, rfl, rfl⟩
      · -- Both loops append the same chunk and report it under the same number.
        rw [drain_more ends hne, drain_more ends' (hchunk ▸ hne)]
        simp only [← hchunk, ← hevents]
        apply ih hne _ hafter
        exact happend contents contents' _ hsame

/-! ## Views -/

namespace Forwards

variable {ω : Type v} {σ : Type u} [Source ω] [Source σ] {view : ω → σ}

theorem lockstep (h : Forwards view) : Lockstep fun outer inner => view outer = inner where
  chunk_eq := by
    rintro outer _ rfl answers answers'
    exact h.chunk_pull answers answers'
  events_eq := by
    rintro outer _ rfl answers answers'
    exact h.events_pull answers answers'
  source_pull := by
    rintro outer _ rfl answers answers'
    exact h.view_pull answers answers'

theorem drain (h : Forwards view) {outer : ω} (houter : Ends outer) (hinner : Ends (view outer))
    (contents : Buffer) (count : Nat) (events : Array Event) :
    drain (view outer) hinner contents count events =
      let drained := ContentAddress.drain outer houter contents count events
      ⟨view drained.source, drained.contents, drained.chunks, drained.events⟩ := by
  have happend : ∀ (buffer other : Buffer) (chunk : Bytes), buffer = other →
      buffer.append chunk = other.append chunk := fun _ _ chunk hsame =>
    congrArg (Buffer.append · chunk) hsame
  obtain ⟨hsource, hcontents, hchunks, hevents⟩ :=
    h.lockstep.drain happend houter hinner rfl (Eq.refl contents) count events
  simp only [hsource, hcontents, hchunks, hevents]

theorem drains (h : Forwards view) {outer after : ω} {chunks : List Bytes}
    (run : Drains outer chunks after) : Drains (view outer) chunks (view after) := by
  induction run with
  | @stop outer answers hchunk =>
      have answers' := (h.answers_iff outer).1 answers
      rw [h.view_pull answers answers']
      exact .stop answers' (h.chunk_pull answers answers' ▸ hchunk)
  | @more outer after chunks answers hchunk rest ih =>
      have answers' := (h.answers_iff outer).1 answers
      rw [h.view_pull answers answers'] at ih
      rw [h.chunk_pull answers answers'] at hchunk ⊢
      exact .more answers' hchunk ih

/-- A put sees no difference between a forwarding source and what that stands for. -/
theorem put (h : Forwards view) (client : Client) (pool : Pool) {outer : ω} (houter : Ends outer)
    (hinner : Ends (view outer)) :
    client.put pool (view outer) hinner = (client.put pool outer houter).map view := by
  have hdrain := h.drain houter hinner pool.take.1 0 #[]
  simp only [Client.put, hdrain, Receipt.map]

end Forwards

/-! ## Counting pulls -/

/-- A source with a list of all chunks that were pulled from it, the empty ones too. -/
structure Observed (σ : Type u) where
  source : σ
  pulled : List Bytes := []

namespace Observed

variable {σ : Type u} [Source σ]

instance : Source (Observed σ) where
  Answers observed := Answers observed.source
  pull observed answers :=
    (pull observed.source answers).map fun source =>
      ⟨source, observed.pulled ++ [(pull observed.source answers).chunk]⟩

theorem forwards : Forwards (source (σ := σ)) := ⟨fun _ => Iff.rfl, fun _ _ _ => rfl⟩

theorem drains {source after : σ} {chunks : List Bytes} (run : Drains source chunks after)
    (pulled : List Bytes) :
    Drains (Observed.mk source pulled) chunks ⟨after, pulled ++ (chunks ++ [[]])⟩ := by
  induction run generalizing pulled with
  | @stop source answers hchunk =>
      have hempty : pull (Observed.mk source pulled) answers =
          ⟨[], ⟨(pull source answers).source, pulled ++ [[]]⟩, (pull source answers).events⟩ := by
        rw [← hchunk]
        rfl
      exact .of_pull_empty hempty
  | @more source after chunks answers hchunk rest ih =>
      have hrest := ih (pulled ++ [(pull source answers).chunk])
      rw [List.append_assoc] at hrest
      exact @Drains.of_pull _ _ (Observed.mk source pulled) _ _ answers _ _ _ rfl hchunk hrest

end Observed

end ContentAddress
