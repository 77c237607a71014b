import ContentAddress.Client
import ContentAddress.Source.Access
import ContentAddress.Source.ChunkList
import ContentAddress.Source.Feed
import ContentAddress.Source.Playback

/-!
# The sources of a session

A session keeps sources of four kinds under one type, and reaches them by several routes.  Neither
the common type nor the route changes what a source does.
-/

namespace ContentAddress

universe u

inductive AnySource
  | chunks (list : ChunkList)
  | feed (source : FeedSource Items)
  | reader (source : ReadSource Script)
  | playback (source : Playback)

namespace AnySource

def Answers : AnySource → Prop
  | chunks list => Source.Answers list
  | feed source => Source.Answers source
  | reader source => Source.Answers source
  | playback source => Source.Answers source

def pull : (source : AnySource) → source.Answers → Pull AnySource
  | chunks list, answers => (Source.pull list answers).map chunks
  | feed source, answers => (Source.pull source answers).map feed
  | reader source, answers => (Source.pull source answers).map reader
  | playback source, answers => (Source.pull source answers).map playback

instance : Source AnySource := ⟨Answers, pull⟩

theorem forwards_chunks : Forwards chunks := ⟨fun _ => Iff.rfl, fun _ _ _ => rfl⟩

theorem forwards_feed : Forwards feed := ⟨fun _ => Iff.rfl, fun _ _ _ => rfl⟩

theorem forwards_reader : Forwards reader := ⟨fun _ => Iff.rfl, fun _ _ _ => rfl⟩

theorem forwards_playback : Forwards playback := ⟨fun _ => Iff.rfl, fun _ _ _ => rfl⟩

instance : Source.Prompt AnySource where
  answers
    | chunks list => Source.Prompt.answers list
    | feed source => Source.Prompt.answers source
    | reader source => Source.Prompt.answers source
    | playback source => Source.Prompt.answers source

instance : Source.Finite AnySource where
  ends
    | chunks list => forwards_chunks.ends_view (Source.Finite.ends list)
    | feed source => forwards_feed.ends_view (Source.Finite.ends source)
    | reader source => forwards_reader.ends_view (Source.Finite.ends source)
    | playback source => forwards_playback.ends_view (Source.Finite.ends source)

/-- Gives the source up; a source over a reader returns its buffer to the pool. -/
def release (source : AnySource) (pool : Pool) : Pool :=
  match source with
  | reader source => (source.close pool).2
  | _ => pool

end AnySource

inductive Route
  | direct
  | borrowed
  | boxed
  | erased
deriving DecidableEq, Repr

namespace Route

variable {σ : Type u} [Source σ]

def next [Source.Prompt σ] (route : Route) (source : σ) : Pull σ :=
  match route with
  | direct => Source.next source
  | borrowed => (Source.next (Borrowed.mk source)).map Borrowed.target
  | boxed => (Source.next (Boxed.mk (Borrowed.mk source))).map fun box => box.content.target
  | erased =>
      (Source.next (Boxed.mk (Erased.of (Borrowed.mk source)))).map fun box =>
        box.content.target.target

def put [Source.Finite σ] (route : Route) (client : Client) (pool : Pool) (source : σ) : Receipt σ :=
  match route with
  | direct => client.put pool source (Source.Finite.ends source)
  | borrowed =>
      (client.put pool (Borrowed.mk source) (Source.Finite.ends _)).map Borrowed.target
  | boxed =>
      (client.put pool (Boxed.mk (Borrowed.mk source)) (Source.Finite.ends _)).map fun box =>
        box.content.target
  | erased =>
      (client.put pool (Boxed.mk (Erased.of (Borrowed.mk source))) (Source.Finite.ends _)).map
        fun box => box.content.target.target

end Route

end ContentAddress
