import ContentAddress.Source

/-!
# Ways to reach a source

A source may be reached through a reference, through a box, or through a box that hides its type.
Each of these is a source again and only passes the request on.  What that means is said once, by
`Forwards`; forwarding composes, so it covers every nesting.
-/

namespace ContentAddress

universe u v w

/-- `outer` answers if what it stands for does, and pulling from it is the same. -/
structure Forwards {ω : Type v} {σ : Type u} [Source ω] [Source σ] (view : ω → σ) : Prop where
  answers_iff : ∀ outer : ω, Source.Answers outer ↔ Source.Answers (view outer)
  pull_eq : ∀ (outer : ω) (answers : Source.Answers outer) (answers' : Source.Answers (view outer)),
    (Source.pull outer answers).map view = Source.pull (view outer) answers'

namespace Forwards

variable {ω : Type v} {σ : Type u} {τ : Type w} [Source ω] [Source σ] [Source τ]

theorem refl : Forwards (fun source : σ => source) := ⟨fun _ => Iff.rfl, fun _ _ _ => rfl⟩

theorem comp {inner : σ → τ} {outer : ω → σ} (hinner : Forwards inner) (houter : Forwards outer) :
    Forwards (inner ∘ outer) where
  answers_iff source := (houter.answers_iff source).trans (hinner.answers_iff (outer source))
  pull_eq source answers answers' := by
    have hmiddle := (houter.answers_iff source).1 answers
    have h := congrArg (Pull.map inner) (houter.pull_eq source answers hmiddle)
    rw [hinner.pull_eq _ hmiddle answers'] at h
    exact h

section Pulls

variable {view : ω → σ} (h : Forwards view) {outer : ω} (answers : Source.Answers outer)
  (answers' : Source.Answers (view outer))

include h

theorem chunk_pull :
    (Source.pull outer answers).chunk = (Source.pull (view outer) answers').chunk :=
  congrArg Pull.chunk (h.pull_eq outer answers answers')

theorem view_pull :
    view (Source.pull outer answers).source = (Source.pull (view outer) answers').source :=
  congrArg Pull.source (h.pull_eq outer answers answers')

theorem events_pull :
    (Source.pull outer answers).events = (Source.pull (view outer) answers').events :=
  congrArg Pull.events (h.pull_eq outer answers answers')

end Pulls

theorem ends {view : ω → σ} (h : Forwards view) {outer : ω} (hends : Source.Ends (view outer)) :
    Source.Ends outer := by
  generalize hinner : view outer = inner at hends
  induction hends generalizing outer with
  | intro answers' _ ih =>
    subst hinner
    have answers := (h.answers_iff outer).2 answers'
    refine Source.Ends.intro answers fun hne => ?_
    exact ih (h.chunk_pull answers answers' ▸ hne) (h.view_pull answers answers')

/-- What a forwarding source stands for ends where that source does. -/
theorem ends_view {view : ω → σ} (h : Forwards view) {outer : ω} (hends : Source.Ends outer) :
    Source.Ends (view outer) := by
  induction hends with
  | @intro outer answers _ ih =>
    have answers' := (h.answers_iff outer).1 answers
    refine Source.Ends.intro answers' fun hne => ?_
    rw [← h.chunk_pull answers answers'] at hne
    exact h.view_pull answers answers' ▸ ih hne

theorem prompt {view : ω → σ} (h : Forwards view) [Source.Prompt σ] : Source.Prompt ω :=
  ⟨fun outer => (h.answers_iff outer).2 (Source.Prompt.answers (view outer))⟩

end Forwards

structure Borrowed (σ : Type u) where
  target : σ

structure Boxed (σ : Type u) where
  content : σ

/-- A source whose type is hidden; only what it stands for is known. -/
structure Erased (σ : Type u) [Source σ] where
  State : Type v
  isSource : Source State
  state : State
  view : State → σ
  forwards : Forwards view

attribute [instance] Erased.isSource

section Instances

variable {σ : Type u} [Source σ]

instance : Source (Borrowed σ) where
  Answers outer := Source.Answers outer.target
  pull outer answers := (Source.pull outer.target answers).map Borrowed.mk

instance : Source (Boxed σ) where
  Answers outer := Source.Answers outer.content
  pull outer answers := (Source.pull outer.content answers).map Boxed.mk

namespace Erased

def Answers (outer : Erased.{u, v} σ) : Prop := outer.isSource.Answers outer.state

def pull (outer : Erased.{u, v} σ) (answers : outer.Answers) : Pull (Erased.{u, v} σ) :=
  match outer, answers with
  | ⟨State, isSource, state, view, forwards⟩, answers =>
      (isSource.pull state answers).map fun state => ⟨State, isSource, state, view, forwards⟩

instance : Source (Erased.{u, v} σ) := ⟨Answers, pull⟩

def target (outer : Erased.{u, v} σ) : σ := outer.view outer.state

def of (source : σ) : Erased.{u, u} σ := ⟨σ, inferInstance, source, id, .refl⟩

end Erased

theorem Borrowed.forwards : Forwards (Borrowed.target (σ := σ)) :=
  ⟨fun _ => Iff.rfl, fun _ _ _ => rfl⟩

theorem Boxed.forwards : Forwards (Boxed.content (σ := σ)) :=
  ⟨fun _ => Iff.rfl, fun _ _ _ => rfl⟩

theorem Erased.forwards_target : Forwards (Erased.target (σ := σ)) where
  answers_iff outer := outer.forwards.answers_iff outer.state
  pull_eq outer answers answers' := outer.forwards.pull_eq outer.state answers answers'

instance [Source.Prompt σ] : Source.Prompt (Borrowed σ) := Borrowed.forwards.prompt

instance [Source.Prompt σ] : Source.Prompt (Boxed σ) := Boxed.forwards.prompt

instance [Source.Prompt σ] : Source.Prompt (Erased.{u, v} σ) := Erased.forwards_target.prompt

instance [Source.Finite σ] : Source.Finite (Borrowed σ) :=
  ⟨fun outer => Borrowed.forwards.ends (Source.Finite.ends outer.target)⟩

instance [Source.Finite σ] : Source.Finite (Boxed σ) :=
  ⟨fun outer => Boxed.forwards.ends (Source.Finite.ends outer.content)⟩

instance [Source.Finite σ] : Source.Finite (Erased.{u, v} σ) :=
  ⟨fun outer => Erased.forwards_target.ends (Source.Finite.ends outer.target)⟩

end Instances

end ContentAddress
