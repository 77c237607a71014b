import ContentAddress.Source
import ContentAddress.Text.Quoted

/-!
# Sources over feeds

A feed hands out items one at a time when it is polled, and says `none` when it has no item.  It may
go on with more items afterwards; a source over it does not ask again.  The source leaves out empty
items, polls no further than the item it yields, and stops at the first `none`.  A feed that goes on
with empty items for ever keeps a pull from coming to an end, but only a pull that polls it then.
-/

namespace ContentAddress

universe u

open Text (Layout)

class Feed (ι : Type u) where
  poll : ι → Option Bytes × ι

namespace Feed

variable {ι : Type u} [Feed ι]

/-- The state `after` is what polling an empty item from `before` leads to. -/
def Skips (after before : ι) : Prop := (poll before).1 = some [] ∧ (poll before).2 = after

/-- The first item that is not empty, or `none` if the feed says so before. -/
def nextItem (feed : ι) (settles : Acc Skips feed) : Option Bytes × ι :=
  match h : poll feed with
  | (none, feed') => (none, feed')
  | (some [], feed') => nextItem feed' (settles.inv (by simp [Skips, h]))
  | (some (byte :: rest), feed') => (some (byte :: rest), feed')
termination_by (⟨feed, settles⟩ : { feed : ι // Acc Skips feed })
decreasing_by exact ⟨by simp [h], by simp [h]⟩

/-- A feed settles if every empty item makes some number smaller. -/
theorem settles_of_measure (measure : ι → Nat)
    (h : ∀ feed : ι, (poll feed).1 = some [] → measure (poll feed).2 < measure feed) (feed : ι) :
    Acc Skips feed := by
  induction hm : measure feed using Nat.strongRecOn generalizing feed with
  | ind m ih =>
    exact Acc.intro feed fun after skips => ih _ (hm ▸ skips.2 ▸ h feed skips.1) _ rfl

theorem nextItem_ne_empty (feed : ι) (settles : Acc Skips feed) :
    (nextItem feed settles).1 ≠ some [] := by
  induction settles with
  | intro feed _ ih =>
    rw [nextItem]
    split
    · simp
    · next after h => exact ih after (by simp [Skips, h])
    · simp

end Feed

structure FeedSource (ι : Type u) where
  feed : ι
  current : Bytes := []
  finished : Bool := false
deriving DecidableEq

namespace FeedSource

variable {ι : Type u} [Feed ι]

/-- A source that has ended does not poll; otherwise its feed must settle. -/
def Answers (source : FeedSource ι) : Prop :=
  source.finished = false → Acc Feed.Skips source.feed

def pull (source : FeedSource ι) (answers : source.Answers) : Pull (FeedSource ι) :=
  if hfinished : source.finished then { chunk := [], source := { source with current := [] } }
  else
    match Feed.nextItem source.feed (answers (eq_false_of_ne_true hfinished)) with
    | (some chunk, feed) => { chunk, source := { feed, current := chunk } }
    | (none, feed) => { chunk := [], source := { feed, finished := true } }

instance : Source (FeedSource ι) := ⟨Answers, pull⟩

/-- The source in descriptions; `feed` describes its feed. -/
def layout (source : FeedSource ι) (feed : Layout) : Layout :=
  .record "IterSource"
    [("iter", feed), ("current", .atom (Text.quoteBytes source.current)),
      ("finished", .truth source.finished)]

end FeedSource

/-- A feed that plays a list of answers, and says `none` after the last one. -/
structure Items where
  left : List (Option Bytes)
  polls : Nat := 0
deriving DecidableEq, Repr

namespace Items

def poll (items : Items) : Option Bytes × Items :=
  match items.left with
  | [] => (none, { items with polls := items.polls + 1 })
  | answer :: left => (answer, { left, polls := items.polls + 1 })

instance : Feed Items := ⟨poll⟩

theorem length_left_poll {items : Items} (h : (Feed.poll items).1 ≠ none) :
    (Feed.poll items).2.left.length < items.left.length := by
  simp only [Feed.poll, poll] at h ⊢
  split at h
  · exact absurd rfl h
  · next hleft => simp [hleft]

theorem settles (items : Items) : Acc Feed.Skips items :=
  Feed.settles_of_measure (fun items => items.left.length)
    (fun items h => items.length_left_poll (by simp [h])) items

instance : Source.Prompt (FeedSource Items) := ⟨fun source _ => source.feed.settles⟩

/-- Looking for an item shortens the list, if one is found. -/
theorem length_left_nextItem {items : Items} (settles : Acc Feed.Skips items)
    (h : (Feed.nextItem items settles).1 ≠ none) :
    (Feed.nextItem items settles).2.left.length < items.left.length := by
  induction settles with
  | intro items acc ih =>
    have hlt := items.length_left_poll
    rw [Feed.nextItem] at h ⊢
    split at h
    · exact absurd rfl h
    · next after hpoll =>
      have hrec := ih after (by simp [Feed.Skips, hpoll]) h
      simp only [hpoll] at hlt ⊢
      exact Nat.lt_trans hrec (hlt (by simp))
    · next byte rest after hpoll =>
      simp only [hpoll] at hlt ⊢
      exact hlt (by simp)

instance : Source.Finite (FeedSource Items) :=
  .of_measure (fun source => source.feed.left.length) fun source h => by
    simp only [Source.next, Source.pull, FeedSource.pull] at h ⊢
    split at h
    · exact absurd rfl h
    · next hfinished =>
      have hlt := Items.length_left_nextItem source.feed.settles
      split at h
      · next chunk feed hitem =>
        simp only [hitem] at hlt ⊢
        simpa [hfinished] using hlt (by simp)
      · exact absurd rfl h

def layout : Layout := .atom "Items"

end Items

end ContentAddress
