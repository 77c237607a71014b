import ContentAddress.Proofs.FeedRuns
import Mathlib.Data.List.Induction

/-!
# How far a feed is polled

A feed may go on with items after it has said that it has none, so it matters how often a source
polls it.  Here a feed keeps a list of its answers, which makes no difference to them.  A pull looks
past the empty items up to the first answer that is something else, and no further; therefore the
answers given so far end with the item that was yielded last, or with the first `none`, whichever
pulls and puts were made.  What the feed would answer to later polls, or whether it would go on with
empty items for ever, is not asked.
-/

namespace ContentAddress

universe u v

open Source

/-! ## Pulls and puts in any order -/

namespace Source

inductive Demand
  | next
  | put (client : Client) (pool : Pool)

/-- By these demands the source `start` has become another one and has yielded these chunks, the
empty ones and those pulled by a put included.  A pull is there only if it comes to an end, and a
put only if the source ends. -/
inductive Played {σ : Type u} [Source σ] (start : σ) : List Demand → σ → List Bytes → Prop
  | nil : Played start [] start []
  | next {demands : List Demand} {source : σ} {yielded : List Bytes}
      (h : Played start demands source yielded) (answers : Answers source) :
      Played start (demands ++ [.next]) (pull source answers).source
        (yielded ++ [(pull source answers).chunk])
  | put {demands : List Demand} {source : σ} {yielded : List Bytes}
      (h : Played start demands source yielded) (client : Client) (pool : Pool)
      (ends : Ends source) :
      Played start (demands ++ [.put client pool]) (client.put pool source ends).source
        (client.put pool (Observed.mk source yielded) (Observed.forwards.ends ends)).source.pulled

namespace Played

variable {σ : Type u} [Source σ] {start source : σ} {demands : List Demand} {yielded : List Bytes}

theorem put_drained (h : Played start demands source yielded) (client : Client) (pool : Pool)
    {after : σ} {chunks : List Bytes} (run : Drains source chunks after) :
    Played start (demands ++ [.put client pool]) after (yielded ++ (chunks ++ [[]])) := by
  have hput := h.put client pool run.ends
  rwa [run.source_put, (Observed.drains run yielded).source_put] at hput

/-- What every pull keeps is kept by pulls and puts in any order. -/
theorem keeps {Kept : σ → List Bytes → Prop} (h : Played start demands source yielded)
    (hstart : Kept start [])
    (hpull : ∀ source yielded, Kept source yielded → ∀ answers : Answers source,
      Kept (pull source answers).source (yielded ++ [(pull source answers).chunk])) :
    Kept source yielded := by
  -- A put is a run of pulls that ends with an empty chunk.
  have hdrains : ∀ {source after : σ} {chunks : List Bytes}, Drains source chunks after →
      ∀ yielded, Kept source yielded → Kept after (yielded ++ (chunks ++ [[]])) := by
    intro source after chunks run
    induction run with
    | @stop source answers hchunk =>
        intro yielded hkept
        have hnext := hpull source yielded hkept answers
        rwa [hchunk] at hnext
    | @more source after chunks answers hchunk rest ih =>
        intro yielded hkept
        have hrest := ih _ (hpull source yielded hkept answers)
        rwa [List.append_assoc] at hrest
  induction h with
  | nil => exact hstart
  | next _ answers ih => exact hpull _ _ ih answers
  | put _ client pool ends ih =>
      obtain ⟨chunks, after, run⟩ := ends.drains
      rw [run.source_put, (Observed.drains run _).source_put]
      exact hdrains run _ ih

end Played

end Source

namespace Forwards

theorem exists_played {ω : Type v} {σ : Type u} [Source ω] [Source σ] {view : ω → σ}
    (h : Forwards view) {start : ω} {demands : List Demand} {inner : σ} {yielded : List Bytes}
    (hplayed : Played (view start) demands inner yielded) :
    ∃ outer, view outer = inner ∧ Played start demands outer yielded := by
  induction hplayed with
  | nil => exact ⟨start, rfl, .nil⟩
  | next _ answers' ih =>
      obtain ⟨outer, rfl, houter⟩ := ih
      have answers := (h.answers_iff outer).2 answers'
      have hnext := houter.next answers
      rw [h.chunk_pull answers answers'] at hnext
      exact ⟨_, h.view_pull answers answers', hnext⟩
  | put _ client pool ends ih =>
      obtain ⟨outer, rfl, houter⟩ := ih
      obtain ⟨chunks, after, run⟩ := (h.ends ends).drains
      have hrun := h.drains run
      rw [hrun.source_put, (Observed.drains hrun _).source_put]
      exact ⟨after, rfl, houter.put_drained client pool run⟩

end Forwards

/-! ## The answers of a feed -/

namespace Feed

variable {ι : Type u} [Feed ι]

/-- Polled one after the other, the feed gives these answers, which leave it as `after`. -/
inductive Polls : ι → List (Option Bytes) → ι → Prop
  | nil (feed : ι) : Polls feed [] feed
  | cons {feed after : ι} {answers : List (Option Bytes)} (rest : Polls (poll feed).2 answers after) :
      Polls feed ((poll feed).1 :: answers) after

theorem Polls.append {feed middle after : ι} {answers more : List (Option Bytes)}
    (h : Polls feed answers middle) (h' : Polls middle more after) :
    Polls feed (answers ++ more) after := by
  induction h with
  | nil => exact h'
  | cons _ ih => exact .cons (ih h')

theorem Polls.of_cons {feed after : ι} {answer : Option Bytes} {answers : List (Option Bytes)}
    (h : Polls feed (answer :: answers) after) :
    (poll feed).1 = answer ∧ Polls (poll feed).2 answers after := by
  generalize hlist : answer :: answers = list at h
  cases h with
  | nil => cases hlist
  | cons rest =>
      obtain ⟨hanswer, rfl⟩ := List.cons.inj hlist
      exact ⟨hanswer.symm, rest⟩

def items (answers : List (Option Bytes)) : List Bytes :=
  answers.filterMap fun answer => answer.filter fun item => !item.isEmpty

theorem items_append (answers more : List (Option Bytes)) :
    items (answers ++ more) = items answers ++ items more :=
  List.filterMap_append

theorem items_skipped (skipped : Nat) : items (List.replicate skipped (some [])) = [] := by
  simp [items]

theorem items_singleton {item : Bytes} (h : item ≠ []) : items [some item] = [item] :=
  List.filterMap_cons_some (by simp [Option.filter, h])

theorem filled_items (answers : List (Option Bytes)) : [] ∉ items answers := by
  simp [items, Option.filter_eq_some_iff]

/-- Empty items are polled away until something else is answered, and nothing behind that. -/
theorem exists_polls_nextItem (feed : ι) (settles : Acc Skips feed) :
    ∃ skipped : Nat, Polls feed (List.replicate skipped (some []) ++ [(nextItem feed settles).1])
      (nextItem feed settles).2 := by
  induction settles with
  | intro feed acc ih =>
      have hlast : Polls feed [(poll feed).1] (poll feed).2 := .cons (.nil _)
      cases hpoll : (poll feed).1 with
      | none =>
          rw [nextItem_of_none _ hpoll, ← hpoll]
          exact ⟨0, hlast⟩
      | some item =>
          by_cases hitem : item = []
          · subst hitem
            rw [nextItem_of_empty _ hpoll]
            obtain ⟨skipped, hpolls⟩ := ih _ ⟨hpoll, rfl⟩
            generalize nextItem (poll feed).2 _ = found at hpolls ⊢
            have hcons := Polls.cons hpolls
            rw [hpoll] at hcons
            exact ⟨skipped + 1, hcons⟩
          · rw [nextItem_of_ne _ hpoll hitem, ← hpoll]
            exact ⟨0, hlast⟩

/-- A feed settles if and only if something other than an empty item is answered at some time. -/
theorem settles_iff {feed : ι} :
    Acc Skips feed ↔ ∃ (skipped : Nat) (last : Option Bytes) (after : ι), last ≠ some [] ∧
      Polls feed (List.replicate skipped (some []) ++ [last]) after := by
  constructor
  · intro settles
    obtain ⟨skipped, hpolls⟩ := exists_polls_nextItem feed settles
    exact ⟨skipped, _, _, nextItem_ne_empty feed settles, hpolls⟩
  · rintro ⟨skipped, last, after, hne, hpolls⟩
    induction skipped generalizing feed with
    | zero =>
        obtain ⟨hpoll, -⟩ := hpolls.of_cons
        exact settles_of_poll fun hempty => absurd (hpoll.symm.trans hempty) hne
    | succ skipped ih =>
        obtain ⟨-, hrest⟩ := hpolls.of_cons
        exact settles_of_poll fun _ => ih hrest

end Feed

/-- A feed that has an answer for every poll, without end. -/
structure Endless where
  answer : Nat → Option Bytes
  polls : Nat := 0

instance : Feed Endless where
  poll feed := (feed.answer feed.polls, { feed with polls := feed.polls + 1 })

/-- A feed with a list of all answers that it gave. -/
structure Polled (ι : Type u) where
  feed : ι
  answers : List (Option Bytes) := []

namespace Polled

variable {ι : Type u} [Feed ι]

instance : Feed (Polled ι) where
  poll polled :=
    ((Feed.poll polled.feed).1,
      ⟨(Feed.poll polled.feed).2, polled.answers ++ [(Feed.poll polled.feed).1]⟩)

theorem settles_iff {polled : Polled ι} : Acc Feed.Skips polled ↔ Acc Feed.Skips polled.feed := by
  constructor
  · intro settles
    induction settles with
    | intro polled _ ih => exact Feed.settles_of_poll fun hpoll => ih _ ⟨hpoll, rfl⟩
  · intro settles
    generalize hfeed : polled.feed = feed at settles
    induction settles generalizing polled with
    | intro feed _ ih =>
        subst hfeed
        exact Feed.settles_of_poll fun hpoll => ih _ ⟨hpoll, rfl⟩ rfl

theorem polls {polled after : Polled ι} {answers : List (Option Bytes)}
    (h : Feed.Polls polled answers after) :
    Feed.Polls polled.feed answers after.feed ∧ after.answers = polled.answers ++ answers := by
  induction h with
  | nil => exact ⟨.nil _, (List.append_nil _).symm⟩
  | cons _ ih =>
      obtain ⟨hpolls, hanswers⟩ := ih
      refine ⟨.cons hpolls, hanswers.trans ?_⟩
      exact List.append_assoc _ _ _

theorem nextItem_feed (polled : Polled ι) (h : Acc Feed.Skips polled)
    (h' : Acc Feed.Skips polled.feed) :
    Feed.nextItem polled.feed h' =
      ((Feed.nextItem polled h).1, (Feed.nextItem polled h).2.feed) := by
  induction h with
  | intro polled acc ih =>
      cases hpoll : (Feed.poll polled).1 with
      | none =>
          rw [Feed.nextItem_of_none _ hpoll]
          exact Feed.nextItem_of_none h' hpoll
      | some item =>
          by_cases hitem : item = []
          · subst hitem
            rw [Feed.nextItem_of_empty _ hpoll]
            exact (Feed.nextItem_of_empty h' hpoll).trans (ih _ ⟨hpoll, rfl⟩ _)
          · rw [Feed.nextItem_of_ne _ hpoll hitem]
            exact Feed.nextItem_of_ne h' hpoll hitem

end Polled

namespace FeedSource

variable {ι : Type u} [Feed ι]

def unpolled (source : FeedSource (Polled ι)) : FeedSource ι :=
  { feed := source.feed.feed, current := source.current, finished := source.finished }

theorem pull_of_finished {source : FeedSource ι} (answers : Source.Answers source)
    (h : source.finished = true) :
    Source.pull source answers = { chunk := [], source := { source with current := [] } } :=
  dif_pos h

theorem answers_iff {source : FeedSource ι} :
    Source.Answers source ↔ source.finished = true ∨
      ∃ (skipped : Nat) (last : Option Bytes) (after : ι), last ≠ some [] ∧
        Feed.Polls source.feed (List.replicate skipped (some []) ++ [last]) after := by
  rw [← Feed.settles_iff]
  change (source.finished = false → _) ↔ _
  cases source.finished <;> simp

theorem forwards_unpolled : Forwards (unpolled (ι := ι)) where
  answers_iff source := forall_congr' fun _ => Polled.settles_iff
  pull_eq source answers answers' := by
    obtain ⟨polled, current, finished⟩ := source
    cases finished with
    | true => rfl
    | false =>
        have settles : Acc Feed.Skips polled := answers rfl
        have hitem := polled.nextItem_feed settles (answers' rfl)
        simp only [Source.pull, pull, unpolled, hitem, Bool.false_eq_true, ↓reduceDIte]
        rcases Feed.nextItem polled settles with ⟨_ | chunk, after⟩ <;> rfl

/-- A pull polls empty items away, and yields the answer behind them if that is an item. -/
theorem exists_polls_pull {source : FeedSource ι} (answers : Source.Answers source)
    (h : source.finished = false) :
    ∃ (skipped : Nat) (last : Option Bytes) (after : ι), last ≠ some [] ∧
      Feed.Polls source.feed (List.replicate skipped (some []) ++ [last]) after ∧
      Source.pull source answers =
        { chunk := last.getD []
          source := { feed := after, current := last.getD [], finished := last.isNone } } := by
  have settles : Acc Feed.Skips source.feed := answers h
  obtain ⟨skipped, hpolls⟩ := Feed.exists_polls_nextItem source.feed settles
  refine ⟨skipped, _, _, Feed.nextItem_ne_empty source.feed settles, hpolls, ?_⟩
  simp only [Source.pull, pull, h, Bool.false_eq_true, ↓reduceDIte]
  rcases Feed.nextItem source.feed settles with ⟨_ | chunk, after⟩ <;> rfl

/-- What holds between the answers that the feed has given and the chunks that were yielded. -/
structure Tells (feed : ι) (source : FeedSource (Polled ι)) (yielded : List Bytes) : Prop where
  polls : Feed.Polls feed source.feed.answers source.feed.feed
  ongoing : source.finished = false → none ∉ source.feed.answers ∧
    source.feed.answers.getLast? ≠ some (some []) ∧ yielded = Feed.items source.feed.answers
  ended : source.finished = true → ∃ before pulls, source.feed.answers = before ++ [none] ∧
    none ∉ before ∧ yielded = Feed.items before ++ List.replicate (pulls + 1) []
  current_eq : source.current = yielded.getLastD []

variable {feed : ι} {source : FeedSource (Polled ι)} {yielded : List Bytes}

theorem tells_start (feed : ι) : Tells feed { feed := Polled.mk feed [] } [] := by
  constructor
  · exact .nil feed
  · simp [Feed.items]
  · simp
  · rfl

theorem Tells.pull (h : Tells feed source yielded) (answers : Source.Answers source) :
    Tells feed (Source.pull source answers).source
      (yielded ++ [(Source.pull source answers).chunk]) := by
  cases hfinished : source.finished with
  | true =>
      obtain ⟨before, pulls, hanswers, hbefore, hyielded⟩ := h.ended hfinished
      rw [pull_of_finished answers hfinished]
      refine ⟨h.polls, by simp [hfinished], fun _ => ?_, by simp⟩
      refine ⟨before, pulls + 1, hanswers, hbefore, ?_⟩
      rw [hyielded, List.append_assoc, ← List.replicate_succ']
  | false =>
      obtain ⟨hnone, -, hyielded⟩ := h.ongoing hfinished
      obtain ⟨skipped, last, after, hne, hpolls, hpull⟩ := exists_polls_pull answers hfinished
      obtain ⟨hpolled, hanswers⟩ := Polled.polls hpolls
      have hall : Feed.Polls feed after.answers after.feed := hanswers ▸ h.polls.append hpolled
      rw [hpull]
      cases last with
      | none =>
          have hbefore : none ∉ source.feed.answers ++ List.replicate skipped (some []) := by
            simp [hnone]
          refine ⟨hall, by simp, fun _ => ?_, by simp⟩
          refine ⟨_, 0, hanswers.trans (List.append_assoc _ _ _).symm, hbefore, ?_⟩
          rw [Feed.items_append, Feed.items_skipped, List.append_nil, hyielded]
          rfl
      | some chunk =>
          have hchunk : chunk ≠ [] := fun hnil => hne (congrArg some hnil)
          refine ⟨hall, fun _ => ⟨?_, ?_, ?_⟩, by simp, by simp⟩
          · simp [hanswers, hnone]
          · simp [hanswers, hchunk]
          · rw [hanswers, Feed.items_append, Feed.items_append, Feed.items_skipped,
              Feed.items_singleton hchunk, hyielded]
            rfl

theorem Tells.finished_iff (h : Tells feed source yielded) :
    source.finished = true ↔ [] ∈ yielded := by
  cases hfinished : source.finished with
  | true =>
      obtain ⟨before, pulls, -, -, hyielded⟩ := h.ended hfinished
      exact iff_of_true rfl (by simp [hyielded])
  | false =>
      obtain ⟨-, -, hyielded⟩ := h.ongoing hfinished
      exact iff_of_false Bool.false_ne_true (hyielded ▸ Feed.filled_items _)

/-! ## Sources that end -/

/-- What is left of a source that ends, ends, also behind its end. -/
theorem ends_pull {source : FeedSource ι} (h : Ends source) (answers : Source.Answers source) :
    Ends (Source.pull source answers).source := by
  have hover : ∀ other : FeedSource ι, other.finished = true → Ends other := by
    intro other hfinished
    have answers : Source.Answers other := answers_iff.2 (.inl hfinished)
    refine Ends.intro answers fun hne => absurd ?_ hne
    rw [pull_of_finished answers hfinished]
  by_cases hchunk : (Source.pull source answers).chunk = []
  · apply hover
    cases hfinished : source.finished with
    | true =>
        rw [pull_of_finished answers hfinished]
        exact hfinished
    | false =>
        obtain ⟨skipped, last, after, hne, -, hpull⟩ := exists_polls_pull answers hfinished
        rw [hpull]
        rw [hpull] at hchunk
        cases last with
        | none => rfl
        | some chunk => exact absurd (congrArg some hchunk) hne
  · exact h.follows ⟨answers, hchunk, rfl⟩

theorem exists_played {start : FeedSource ι} (h : Ends start) (demands : List Demand) :
    ∃ source yielded, Played start demands source yielded ∧ Ends source := by
  induction demands using List.reverseRecOn with
  | nil => exact ⟨start, [], .nil, h⟩
  | append_singleton demands demand ih =>
      obtain ⟨source, yielded, hplayed, hends⟩ := ih
      cases demand with
      | next => exact ⟨_, _, hplayed.next hends.answers, ends_pull hends hends.answers⟩
      | put client pool =>
          obtain ⟨chunks, after, run⟩ := hends.drains
          refine ⟨_, _, hplayed.put_drained client pool run, ?_⟩
          clear hplayed
          induction run with
          | stop answers => exact ends_pull hends answers
          | more answers _ _ ih => exact ih (ends_pull hends answers)

/-- Whichever pulls and puts were made, the feed was polled once for each of these answers and is
where they leave it.  Before the end they are the answers up to the item that was yielded last, and
the chunks are the items among them.  At the end they are the answers up to the first `none`; the
items before it were yielded, then only empty chunks, and the feed is not polled again.  The next
pull comes to an end unless the feed goes on with empty items for ever, and all demands are answered
if the feed says `none` at some time, whatever it would answer behind that. -/
theorem polls_no_further (feed : ι) (demands : List Demand) :
    (∀ (source : FeedSource ι) (yielded : List Bytes),
      Played ({ feed } : FeedSource ι) demands source yielded →
      ∃ answers : List (Option Bytes),
        Played ({ feed := Polled.mk feed [] } : FeedSource (Polled ι)) demands
          { feed := ⟨source.feed, answers⟩, current := source.current, finished := source.finished }
          yielded ∧
        Feed.Polls feed answers source.feed ∧
        (source.finished = true ↔ [] ∈ yielded) ∧
        (source.finished = false →
          none ∉ answers ∧ answers.getLast? ≠ some (some []) ∧ yielded = Feed.items answers) ∧
        (source.finished = true →
          (∃ before pulls, answers = before ++ [none] ∧ none ∉ before ∧
            yielded = Feed.items before ++ List.replicate (pulls + 1) []) ∧
          ∃ answers : Source.Answers source, Source.pull source answers =
            { chunk := [], source := { source with current := [] } }) ∧
        source.current = yielded.getLastD [] ∧
        (Source.Answers source ↔ source.finished = true ∨
          ∃ (skipped : Nat) (last : Option Bytes) (after : ι), last ≠ some [] ∧
            Feed.Polls source.feed (List.replicate skipped (some []) ++ [last]) after)) ∧
    ((∃ items after, Feed.Gives feed items after) →
      ∃ source yielded, Played ({ feed } : FeedSource ι) demands source yielded) := by
  constructor
  · intro source yielded h
    have hview : Played (unpolled { feed := Polled.mk feed [] }) demands source yielded := h
    obtain ⟨polled, rfl, hplayed⟩ := forwards_unpolled.exists_played hview
    have htells : Tells feed polled yielded :=
      hplayed.keeps (tells_start feed) fun _ _ => Tells.pull
    refine ⟨polled.feed.answers, hplayed, htells.polls, htells.finished_iff, htells.ongoing, ?_,
      htells.current_eq, answers_iff⟩
    intro hfinished
    have answers : Source.Answers polled.unpolled := answers_iff.2 (.inl hfinished)
    exact ⟨htells.ended hfinished, answers, pull_of_finished answers hfinished⟩
  · rintro ⟨items, after, hgives⟩
    have hends : Ends ({ feed } : FeedSource ι) := (drains rfl hgives).ends
    obtain ⟨source, yielded, hplayed, -⟩ := exists_played hends demands
    exact ⟨source, yielded, hplayed⟩

/-- An item behind the first `none`, and the empty items that follow it without end, are left to the
feed, although a put and a pull follow. -/
theorem polls_no_further_resuming :
    let answer (poll : Nat) : Option Bytes :=
      [some [], some [97], none, some [98]].getD poll (some [])
    let feed : Endless := { answer }
    let left : Endless := { answer, polls := 3 }
    let source : FeedSource Endless := { feed := left, finished := true }
    Played ({ feed } : FeedSource Endless) [.next, .put .default .empty, .next] source
        [[97], [], []] ∧
      ∃ before pulls, Feed.Polls feed (before ++ [none]) left ∧ none ∉ before ∧
        [[97], [], []] = Feed.items before ++ List.replicate (pulls + 1) [] := by
  intro answer feed left source
  let middle : FeedSource Endless := { feed := { answer, polls := 2 }, current := [97] }
  have hlast : Feed.Gives middle.feed [] left := .done rfl
  have hitem : Feed.Gives ({ answer, polls := 1 } : Endless) [[97]] left := .item rfl hlast
  have hall : Feed.Gives feed [[], [97]] left := .item rfl hitem
  have hends : Ends ({ feed } : FeedSource Endless) := (drains rfl hall).ends
  have hstop : Drains middle [] source := drains rfl hlast
  have hplayed : Played ({ feed } : FeedSource Endless) [.next, .put .default .empty, .next] source
      [[97], [], []] := by
    have answers := hends.answers
    have hpull : Source.pull { feed } answers = { chunk := [97], source := middle } :=
      (pull_of_empty answers rfl rfl (drains rfl hitem).ends.answers).trans
        (pull_of_ne _ rfl rfl (List.cons_ne_nil _ _))
    have hnext := (@Played.nil _ _ ({ feed } : FeedSource Endless)).next answers
    rw [hpull] at hnext
    have hover : Source.Answers source := answers_iff.2 (.inl rfl)
    have hput := (hnext.put_drained .default .empty hstop).next hover
    rwa [pull_of_finished hover rfl] at hput
  obtain ⟨answers, -, hpolls, -, -, hover, -⟩ := (polls_no_further feed _).1 source _ hplayed
  obtain ⟨⟨before, pulls, rfl, hbefore, hyielded⟩, -⟩ := hover rfl
  exact ⟨hplayed, before, pulls, hpolls, hbefore, hyielded⟩

end FeedSource

end ContentAddress
