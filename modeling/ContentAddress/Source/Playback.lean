import ContentAddress.Source

/-!
# Playing given chunks

The simplest source: it yields given chunks one by one, empty ones too, and then the empty chunk.
-/

namespace ContentAddress

structure Playback where
  left : List Bytes
  pulls : Nat := 0
deriving DecidableEq, Repr

namespace Playback

def next (source : Playback) : Pull Playback :=
  match source.left with
  | [] => { chunk := [], source := { source with pulls := source.pulls + 1 } }
  | chunk :: left => { chunk, source := { left, pulls := source.pulls + 1 } }

instance : Source Playback := ⟨fun _ => True, fun source _ => source.next⟩

instance : Source.Prompt Playback := ⟨fun _ => trivial⟩

instance : Source.Finite Playback :=
  .of_measure (fun source => source.left.length) fun source h => by
    simp only [Source.next, Source.pull, next] at h ⊢
    split at h
    · exact absurd rfl h
    · next hleft => simp [hleft]

end Playback

end ContentAddress
