import ContentAddress.Proofs.Draining
import ContentAddress.Source.Feed

/-!
# Draining a source over a feed

A feed is described by the items it hands out before it first says that it has none.  Empty items
are passed over inside a single pull, so the source yields the others, in order.
-/

namespace ContentAddress

universe u

open Source

namespace Feed

variable {ι : Type u} [Feed ι]

/-- Polled one after the other, the feed hands out the listed items and then says that it has none,
which leads to `after`. -/
inductive Gives : ι → List Bytes → ι → Prop
  | done {feed : ι} (hpoll : (poll feed).1 = none) : Gives feed [] (poll feed).2
  | item {feed after : ι} {item : Bytes} {items : List Bytes} (hpoll : (poll feed).1 = some item)
      (rest : Gives (poll feed).2 items after) : Gives feed (item :: items) after

theorem settles_of_poll {feed : ι}
    (h : (poll feed).1 = some [] → Acc Skips (poll feed).2) : Acc Skips feed :=
  Acc.intro feed fun _ skips => skips.2 ▸ h skips.1

theorem nextItem_of_none {feed : ι} (settles : Acc Skips feed) (hpoll : (poll feed).1 = none) :
    nextItem feed settles = (none, (poll feed).2) := by
  rw [nextItem]
  split <;> simp_all

theorem nextItem_of_empty {feed : ι} (settles : Acc Skips feed) (hpoll : (poll feed).1 = some []) :
    nextItem feed settles = nextItem (poll feed).2 (settles.inv ⟨hpoll, rfl⟩) := by
  rw [nextItem]
  split
  · next h => simp [h] at hpoll
  · next h => simp only [h]
  · next h => simp [h] at hpoll

theorem nextItem_of_ne {feed : ι} {item : Bytes} (settles : Acc Skips feed)
    (hpoll : (poll feed).1 = some item) (hne : item ≠ []) :
    nextItem feed settles = (some item, (poll feed).2) := by
  rw [nextItem]
  split <;> simp_all

end Feed

namespace FeedSource

variable {ι : Type u} [Feed ι] {source : FeedSource ι} (answers : Source.Answers source)

theorem pull_of_none (hfinished : source.finished = false)
    (hpoll : (Feed.poll source.feed).1 = none) :
    Source.pull source answers =
      { chunk := [], source := { feed := (Feed.poll source.feed).2, finished := true } } := by
  simp [Source.pull, pull, hfinished, Feed.nextItem_of_none _ hpoll]

theorem pull_of_empty (hfinished : source.finished = false)
    (hpoll : (Feed.poll source.feed).1 = some [])
    (answers' : Source.Answers { source with feed := (Feed.poll source.feed).2 }) :
    Source.pull source answers =
      Source.pull { source with feed := (Feed.poll source.feed).2 } answers' := by
  simp [Source.pull, pull, hfinished, Feed.nextItem_of_empty _ hpoll]

theorem pull_of_ne {item : Bytes} (hfinished : source.finished = false)
    (hpoll : (Feed.poll source.feed).1 = some item) (hne : item ≠ []) :
    Source.pull source answers =
      { chunk := item, source := { feed := (Feed.poll source.feed).2, current := item } } := by
  simp [Source.pull, pull, hfinished, Feed.nextItem_of_ne _ hpoll hne]

omit answers in
/-- Only the items in front of the first `none` are asked for, so nothing is said of the feed behind
it. -/
theorem drains {after : ι} {items : List Bytes} (hfinished : source.finished = false)
    (hgives : Feed.Gives source.feed items after) :
    Drains source (items.filter fun item => !item.isEmpty) { feed := after, finished := true } := by
  generalize hfeed : source.feed = feed at hgives
  induction hgives generalizing source with
  | done hpoll =>
      subst hfeed
      have answers : Source.Answers source := fun _ => Feed.settles_of_poll (by simp [hpoll])
      exact .of_pull_empty (pull_of_none answers hfinished hpoll)
  | @item feed after item items hpoll rest ih =>
      subst hfeed
      by_cases hne : item = []
      · subst hne
        have hrest := @ih { source with feed := (Feed.poll source.feed).2 } hfinished rfl
        have answers : Source.Answers source := fun _ =>
          Feed.settles_of_poll fun _ => hrest.ends.answers hfinished
        exact hrest.congr_pull fun answers' =>
          (pull_of_empty answers hfinished hpoll answers').symm
      · have answers : Source.Answers source := fun _ =>
          Feed.settles_of_poll (by simp [hpoll, hne])
        rw [List.filter_cons_of_pos (by simpa using hne)]
        exact .of_pull (pull_of_ne answers hfinished hpoll hne) hne (ih rfl rfl)

end FeedSource

theorem Items.gives (chunks : List Bytes) (polls : Nat) :
    Feed.Gives ({ left := chunks.map some, polls } : Items) chunks
      { left := [], polls := polls + chunks.length + 1 } := by
  induction chunks generalizing polls with
  | nil =>
      have hpoll : (Feed.poll (⟨[], polls⟩ : Items)).1 = none := rfl
      exact .done hpoll
  | cons chunk chunks ih =>
      have hrest := ih (polls + 1)
      rw [Nat.add_assoc polls, Nat.add_comm 1] at hrest
      have hpoll : (Feed.poll (⟨some chunk :: chunks.map some, polls⟩ : Items)).1 = some chunk := rfl
      exact .item hpoll hrest

end ContentAddress
