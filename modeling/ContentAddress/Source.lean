import ContentAddress.Bytes
import ContentAddress.Event

/-!
# Sources of chunks

A source is a state from which chunks are pulled one at a time; an empty chunk marks the end.  Any
type can be a source.  A pull need not come to an end; a state *answers* if it does.  Draining makes
sense only for a source that ends: a state *ends* if it answers, and if after finitely many chunks
that are not empty it yields the empty one.
-/

namespace ContentAddress

universe u v

structure Pull (σ : Type u) where
  /-- The next chunk, empty at the end. -/
  chunk : Bytes
  source : σ
  events : List Event := []

def Pull.map {σ : Type u} {τ : Type v} (view : σ → τ) (pull : Pull σ) : Pull τ :=
  { pull with source := view pull.source }

class Source (σ : Type u) where
  /-- A pull from this state comes to an end. -/
  Answers : σ → Prop
  pull : (source : σ) → Answers source → Pull σ

namespace Source

variable {σ : Type u} [Source σ]

variable (σ) in
/-- A type is prompt if all its states answer. -/
class Prompt : Prop where
  answers : ∀ source : σ, Answers source

def next [Prompt σ] (source : σ) : Pull σ := pull source (Prompt.answers source)

/-- The state `after` is what pulling a non-empty chunk from `before` leads to. -/
def Follows (after before : σ) : Prop :=
  ∃ answers : Answers before,
    (pull before answers).chunk ≠ [] ∧ (pull before answers).source = after

/-- Only finitely many non-empty chunks can be pulled from the source in a row, and every state on
the way answers. -/
inductive Ends : σ → Prop
  | intro {source : σ} (answers : Answers source)
      (rest : (pull source answers).chunk ≠ [] → Ends (pull source answers).source) : Ends source

theorem Ends.answers {source : σ} (ends : Ends source) : Answers source := by
  cases ends with
  | intro answers _ => exact answers

theorem Ends.follows {after before : σ} (ends : Ends before) (h : Follows after before) :
    Ends after := by
  obtain ⟨answers, hchunk, rfl⟩ := h
  cases ends with
  | intro _ rest => exact rest hchunk

theorem Ends.acc {source : σ} (ends : Ends source) : Acc Follows source := by
  induction ends with
  | intro answers rest ih =>
    refine Acc.intro _ fun after follows => ?_
    obtain ⟨answers', hchunk, rfl⟩ := follows
    exact ih hchunk

variable (σ) in
/-- A type is finite if all its states end. -/
class Finite : Prop where
  ends : ∀ source : σ, Ends source

/-- A type is finite if every non-empty pull makes some number smaller. -/
theorem Finite.of_measure [Prompt σ] (measure : σ → Nat)
    (h : ∀ source : σ, (next source).chunk ≠ [] →
      measure (next source).source < measure source) : Finite σ where
  ends source := by
    induction hm : measure source using Nat.strongRecOn generalizing source with
    | ind m ih =>
      exact Ends.intro (Prompt.answers source) fun hne => ih _ (hm ▸ h source hne) _ rfl

end Source

end ContentAddress
