import ContentAddress.Proofs.Confinement
import Mathlib

/-!
# Sources that share a pool

Buffers wander from one source to another through the pool, so that what is done to one source
changes the capacity of the buffer that another one gets.  It changes nothing else.  Two sessions
are compared, one in which all steps are taken and one, from an empty pool, in which only those on a
single source are: a step on that source keeps them alike, and so does any other step, which only
the first of them takes.
-/

namespace ContentAddress

open Source

namespace Session

/-- All that is seen of an action, capacities apart. -/
def observe (session : Session) (action : Action) : Option Report :=
  (session.perform action).map fun done => done.2.withoutCapacity

/-! ## Two sessions that look alike -/

/-- The clients are the same, no buffer that waits holds bytes, and the named source, if there is
one, looks the same in both sessions. -/
structure Alike (name? : Option String) (session other : Session) : Prop where
  limit_eq : session.limit = other.limit
  clients_eq : session.clients = other.clients
  source_eq : ∀ name, name? = some name →
    session.sources[name]?.map AnySource.withoutCapacity =
      other.sources[name]?.map AnySource.withoutCapacity
  clean : session.pool.Clean
  other_clean : other.pool.Clean

/-- What an action with a result lets be seen, and what becomes of the named source. -/
def shown (name : String) (done : Session × Report) : Report × Option AnySource :=
  (done.2.withoutCapacity, done.1.sources[name]?.map AnySource.withoutCapacity)

variable {session other : Session} {name : String}

theorem observe_eq_of_shown {action : Action}
    (hshown : (session.perform action).map (shown name) =
      (other.perform action).map (shown name)) :
    session.observe action = other.observe action := by
  have hreport := congrArg (Option.map Prod.fst) hshown
  rwa [Option.map_map, Option.map_map] at hreport

theorem shown_restore (hlimit : session.limit = other.limit) {source source' : AnySource}
    (hsource : source.withoutCapacity = source'.withoutCapacity) (answer : Answer)
    (events : List Event) :
    shown name (session.restore name source,
        session.report answer (some (.source source)) events) =
      shown name (other.restore name source',
        other.report answer (some (.source source')) events) := by
  simp [shown, restore, report, Report.withoutCapacity, Snapshot.withoutCapacity, hlimit, hsource]

theorem shown_made (hlimit : session.limit = other.limit) {source source' : AnySource}
    (hsource : source.withoutCapacity = source'.withoutCapacity) :
    shown name (session.made name source) = shown name (other.made name source') :=
  shown_restore hlimit hsource .done []

theorem pull_congr (route : Route) (times : Nat) {source source' : AnySource}
    (hsource : source.withoutCapacity = source'.withoutCapacity) (chunks : Array Bytes)
    (events : Array Event) :
    (pull route times source chunks events).1 = (pull route times source' chunks events).1 ∧
      (pull route times source chunks events).2.1.withoutCapacity =
        (pull route times source' chunks events).2.1.withoutCapacity ∧
      (pull route times source chunks events).2.2 =
        (pull route times source' chunks events).2.2 := by
  have hpulls := AnySource.respects_withoutCapacity.lockstep
  induction times generalizing source source' chunks events with
  | zero => exact ⟨rfl, hsource, rfl⟩
  | succ times ih =>
      have hchunk : (Source.next source).chunk = (Source.next source').chunk :=
        hpulls.chunk_eq hsource _ _
      have hevents : (Source.next source).events = (Source.next source').events :=
        hpulls.events_eq hsource _ _
      simp only [pull, route.next_eq, hchunk, hevents]
      exact ih (hpulls.source_pull hsource _ _) _ _

theorem perform_ne_none (session : Session) {action : Action} (hmakes : action.makes? = some name) :
    session.perform action ≠ none := by
  cases action with
  | makeChunks | makeFeed | makeReader | makePlayback => exact Option.some_ne_none _
  | _ => cases hmakes

namespace Alike

theorem forget {name? : Option String} (h : Alike name? session other) :
    Alike none session other :=
  { h with source_eq := nofun }

theorem lookup (h : Alike (some name) session other) :
    (session.sources[name]? = none ∧ other.sources[name]? = none) ∨
      ∃ source source' : AnySource, session.sources[name]? = some source ∧
        other.sources[name]? = some source' ∧
        source.withoutCapacity = source'.withoutCapacity := by
  have hsource := h.source_eq name rfl
  cases hfound : session.sources[name]? with
  | none =>
      rw [hfound] at hsource
      exact .inl ⟨rfl, Option.map_eq_none_iff.1 hsource.symm⟩
  | some source =>
      rw [hfound] at hsource
      obtain ⟨source', hfound', hview⟩ := Option.map_eq_some_iff.1 hsource.symm
      exact .inr ⟨source, source', rfl, hfound', hview.symm⟩

theorem client?_eq {name? : Option String} (h : Alike name? session other) (name : Option String) :
    session.client? name = other.client? name := by
  cases name with
  | none => rfl
  | some name => simp only [client?, h.clients_eq]

theorem chunkList?_eq (h : Alike (some name) session other) :
    session.chunkList? name = other.chunkList? name := by
  unfold chunkList?
  rcases h.lookup with ⟨hnone, hnone'⟩ | ⟨source, source', hsome, hsome', hsource⟩
  · rw [hnone, hnone']
  · rw [hsome, hsome']
    rcases AnySource.withoutCapacity_eq_cases hsource with rfl | ⟨_, _, rfl, rfl, -⟩ <;> rfl

theorem shown_changeList (h : Alike (some name) session other) (change : ChunkList → ChunkList) :
    (session.changeList name change).map (shown name) =
      (other.changeList name change).map (shown name) := by
  unfold changeList
  rw [h.chunkList?_eq]
  cases other.chunkList? name with
  | none => rfl
  | some list => exact congrArg some (shown_restore h.limit_eq rfl .done [])

theorem shown_make (h : Alike none session other) {action : Action}
    (hmakes : action.makes? = some name) :
    (session.perform action).map (shown name) = (other.perform action).map (shown name) := by
  cases action with
  | makeChunks made chunks =>
      cases hmakes
      exact congrArg some (shown_made h.limit_eq rfl)
  | makeFeed made items =>
      cases hmakes
      exact congrArg some (shown_made h.limit_eq rfl)
  | makePlayback made chunks =>
      cases hmakes
      exact congrArg some (shown_made h.limit_eq rfl)
  | makeReader made script readSize =>
      cases hmakes
      have hstart := ReadSource.withoutCapacity_start h.clean h.other_clean
        (Script.ofSteps script) readSize
      refine congrArg some (shown_made ?_ (congrArg AnySource.reader hstart))
      exact h.limit_eq
  | _ => cases hmakes

/-- Most actions take the named source out of the session, and go on with what they find. -/
theorem shown_remove? (h : Alike (some name) session other)
    (proceed : AnySource × Session → Option (Session × Report))
    (hproceed : ∀ source source' rest rest',
      source.withoutCapacity = source'.withoutCapacity → Alike (some name) rest rest' →
        (proceed (source, rest)).map (shown name) = (proceed (source', rest')).map (shown name)) :
    ((session.remove? name).bind proceed).map (shown name) =
      ((other.remove? name).bind proceed).map (shown name) := by
  unfold remove?
  rcases h.lookup with ⟨hnone, hnone'⟩ | ⟨source, source', hsome, hsome', hsource⟩
  · rw [hnone, hnone']
    rfl
  · rw [hsome, hsome']
    refine hproceed _ _ _ _ hsource ⟨h.limit_eq, h.clients_eq, ?_, h.clean, h.other_clean⟩
    rintro - ⟨⟩
    simp only [Std.HashMap.getElem?_erase_self]

theorem shown_next (h : Alike (some name) session other) (times : Nat) (route : Route) :
    (session.perform (.next name times route)).map (shown name) =
      (other.perform (.next name times route)).map (shown name) := by
  apply h.shown_remove?
  intro source source' rest rest' hsource hrest
  obtain ⟨hchunks, hafter, hevents⟩ := pull_congr route times hsource #[] #[]
  simp only [hchunks, hevents]
  exact congrArg some (shown_restore hrest.limit_eq hafter _ _)

theorem shown_put (h : Alike (some name) session other) (client? : Option String) (route : Route) :
    (session.perform (.put name client? route)).map (shown name) =
      (other.perform (.put name client? route)).map (shown name) := by
  simp only [perform, h.client?_eq, Option.bind_eq_bind]
  cases other.client? client? with
  | none => rfl
  | some client =>
      apply h.shown_remove?
      intro source source' rest rest' hsource hrest
      have hdata := hrest.clean.data_take.trans hrest.other_clean.data_take.symm
      obtain ⟨hid, hafter, hevents⟩ := AnySource.respects_withoutCapacity.put client hdata
        (Finite.ends source) (Finite.ends source') hsource
      simp only [route.put_eq, hid, hevents]
      exact congrArg some (shown_restore hrest.limit_eq hafter _ _)

theorem shown_list (h : Alike (some name) session other) :
    (session.perform (.list name)).map (shown name) =
      (other.perform (.list name)).map (shown name) := by
  simp only [perform, h.chunkList?_eq, Option.bind_eq_bind]
  cases other.chunkList? name with
  | none => rfl
  | some list => simp [shown, report, h.limit_eq, h.source_eq name rfl]

theorem shown_describe (h : Alike (some name) session other) :
    (session.perform (.describe name)).map (shown name) =
      (other.perform (.describe name)).map (shown name) := by
  rcases h.lookup with ⟨hnone, hnone'⟩ | ⟨source, source', hsome, hsome', hsource⟩
  · simp [perform, hnone, hnone']
  · have hlayout := describe_congr hsource
    simp only [perform, hsome, hsome', Option.bind_eq_bind, Option.bind_some]
    cases hdescribe : describe source with
    | none =>
        rw [hdescribe] at hlayout
        rw [Option.map_eq_none_iff.1 hlayout.symm]
        rfl
    | some layout =>
        rw [hdescribe] at hlayout
        obtain ⟨layout', hdescribe', hview⟩ := Option.map_eq_some_iff.1 hlayout.symm
        simp [hdescribe', shown, report, Report.withoutCapacity, Answer.withoutCapacity,
          Snapshot.withoutCapacity, h.limit_eq, h.source_eq name rfl, hview, hsource]

theorem shown_takeError (h : Alike (some name) session other) :
    (session.perform (.takeError name)).map (shown name) =
      (other.perform (.takeError name)).map (shown name) := by
  apply h.shown_remove?
  intro source source' rest rest' hsource hrest
  rcases AnySource.withoutCapacity_eq_cases hsource with rfl | ⟨inner, inner', rfl, rfl, hinner⟩
  · cases source with
    | reader source => exact congrArg some (shown_restore hrest.limit_eq rfl _ _)
    | _ => rfl
  · obtain ⟨herror, hafter⟩ := ReadSource.takeError_congr hinner
    have hview : (AnySource.reader inner.takeError.2).withoutCapacity =
        (AnySource.reader inner'.takeError.2).withoutCapacity := congrArg AnySource.reader hafter
    simp only [herror]
    exact congrArg some (shown_restore hrest.limit_eq hview _ _)

theorem shown_unwrap (h : Alike (some name) session other) :
    (session.perform (.unwrap name)).map (shown name) =
      (other.perform (.unwrap name)).map (shown name) := by
  apply h.shown_remove?
  intro source source' rest rest' hsource hrest
  have hsame := hrest.source_eq name rfl
  rcases AnySource.withoutCapacity_eq_cases hsource with rfl | ⟨inner, inner', rfl, rfl, hinner⟩
  · cases source with
    | feed source => simp [shown, report, hrest.limit_eq, hsame]
    | reader source => simp [shown, report, hrest.limit_eq, hsame, ReadSource.close]
    | _ => rfl
  · have hreader := ReadSource.reader_congr hinner
    simp [shown, report, hrest.limit_eq, hsame, ReadSource.close, hreader]

theorem shown_drop (h : Alike (some name) session other) :
    (session.perform (.drop name)).map (shown name) =
      (other.perform (.drop name)).map (shown name) := by
  apply h.shown_remove?
  intro source source' rest rest' hsource hrest
  simp [shown, report, hrest.limit_eq, hrest.source_eq name rfl]

theorem shown_use (h : Alike (some name) session other) {action : Action}
    (habout : action.about? = some name) (hmakes : action.makes? ≠ some name)
    (hsingle : action.single = true) :
    (session.perform action).map (shown name) = (other.perform action).map (shown name) := by
  cases action with
  | next used times route =>
      cases habout
      exact h.shown_next times route
  | put used client? route =>
      cases habout
      exact h.shown_put client? route
  | push used chunk =>
      cases habout
      exact h.shown_changeList _
  | extend used chunks =>
      cases habout
      exact h.shown_changeList _
  | rewind used =>
      cases habout
      exact h.shown_changeList _
  | list used =>
      cases habout
      exact h.shown_list
  | describe used =>
      cases habout
      exact h.shown_describe
  | takeError used =>
      cases habout
      exact h.shown_takeError
  | unwrap used =>
      cases habout
      exact h.shown_unwrap
  | drop used =>
      cases habout
      exact h.shown_drop
  | copy source used => cases hsingle
  | compare used second => cases hsingle
  | makeChunks used chunks => exact absurd habout hmakes
  | makeFeed used items => exact absurd habout hmakes
  | makePlayback used chunks => exact absurd habout hmakes
  | makeReader used script readSize => exact absurd habout hmakes
  | _ => cases habout

theorem observe_other (h : Alike none session other) {action : Action}
    (habout : action.about? = none) (hclient : action.makesClient = false) :
    session.observe action = other.observe action := by
  cases action with
  | putBytes client? content =>
      simp only [observe, perform, h.client?_eq, Option.bind_eq_bind]
      cases other.client? client? with
      | none => rfl
      | some client => simp [report, h.limit_eq]
  | putReader client? script =>
      simp only [observe, perform, h.client?_eq, Option.bind_eq_bind]
      cases other.client? client? with
      | none => rfl
      | some client =>
          obtain ⟨hresult, hreader, hevents⟩ := putReader_congr client h.clean h.other_clean
            (Script.ofSteps script) (Finite.ends _) (Finite.ends _)
          simp [report, h.limit_eq, hresult, hreader, hevents]
  | makeClient made config => cases hclient
  | _ => cases habout

theorem makeClient {name? : Option String} (h : Alike name? session other) {action : Action}
    (hclient : action.makesClient = true) :
    session.observe action = other.observe action ∧
      Alike name? (session.act action) (other.act action) := by
  cases action with
  | makeClient made config =>
      simp only [observe, act, perform]
      cases Client.ofConfig config with
      | error fault =>
          simp only [report, h.limit_eq]
          exact ⟨rfl, h⟩
      | ok client =>
          refine ⟨?_, h.limit_eq, ?_, h.source_eq, h.clean, h.other_clean⟩
          · simp only [report, h.limit_eq, Option.map_some]
          · simp only [h.clients_eq]
  | _ => cases hclient

/-- A step on another source changes nothing that the named one depends on. -/
theorem act_left {name? : Option String} (h : Alike name? session other) {action : Action}
    (hclient : action.makesClient = false) (hsingle : action.single = true)
    (habout : ∀ name, name? = some name → action.about? ≠ some name) :
    Alike name? (session.act action) other := by
  have hconfined := session.confined_act hclient hsingle
  refine ⟨hconfined.limit_eq.trans h.limit_eq, hconfined.clients_eq.trans h.clients_eq, ?_,
    hconfined.clean h.clean, h.other_clean⟩
  intro name hname
  rw [hconfined.sources_eq name (habout name hname)]
  exact h.source_eq name hname

/-- A step on the named source that shows the same in both sessions leaves them alike. -/
theorem act_both {name? : Option String} (h : Alike name? session other) {action : Action}
    (hclient : action.makesClient = false) (hsingle : action.single = true)
    (hshown : (session.perform action).map (shown name) = (other.perform action).map (shown name))
    (hnone : session.perform action = none → Alike (some name) session other) :
    Alike (some name) (session.act action) (other.act action) := by
  have hconfined := session.confined_act hclient hsingle
  have hconfined' := other.confined_act hclient hsingle
  refine ⟨?_, ?_, ?_, hconfined.clean h.clean, hconfined'.clean h.other_clean⟩
  · rw [hconfined.limit_eq, hconfined'.limit_eq, h.limit_eq]
  · rw [hconfined.clients_eq, hconfined'.clients_eq, h.clients_eq]
  · intro shownName hname
    cases hname
    unfold act
    cases hperform : session.perform action with
    | none =>
        rw [hperform] at hshown
        rw [Option.map_eq_none_iff.1 hshown.symm]
        exact (hnone hperform).source_eq name rfl
    | some done =>
        rw [hperform] at hshown
        obtain ⟨done', hperform', hdone⟩ := Option.map_eq_some_iff.1 hshown.symm
        rw [hperform']
        exact (congrArg Prod.snd hdone).symm

end Alike

/-! ## Whole runs -/

theorem run_concat (session : Session) (actions : List Action) (action : Action) :
    session.run (actions ++ [action]) = (session.run actions).act action := by
  simp [run]

/-- One more action joins those that are kept if it makes a client or is about the named source.  If
it makes the source anew, nothing is kept of the one that had the name before. -/
def keep (name : String) (kept : List Action) (action : Action) : List Action :=
  if action.makes? = some name then kept.filter Action.makesClient ++ [action]
  else if action.makesClient ∨ action.about? = some name then kept ++ [action]
  else kept

/-- The actions on the source that has the name in the end, and those that made clients. -/
def lifeOf (name : String) (actions : List Action) : List Action := actions.foldl (keep name) []

theorem lifeOf_concat (name : String) (actions : List Action) (action : Action) :
    lifeOf name (actions ++ [action]) = keep name (lifeOf name actions) action := by
  simp [lifeOf]

theorem filter_keep (name : String) (kept : List Action) (action : Action) :
    (keep name kept action).filter Action.makesClient =
      (kept ++ [action]).filter Action.makesClient := by
  unfold keep
  split
  · simp
  · split
    · rfl
    · next hother =>
      have hclient : action.makesClient = false := by
        rw [not_or] at hother
        simpa using hother.1
      simp [hclient]

theorem filter_lifeOf (name : String) (actions : List Action) :
    (lifeOf name actions).filter Action.makesClient = actions.filter Action.makesClient := by
  induction actions using List.reverseRecOn with
  | nil => rfl
  | append_singleton actions action ih =>
      rw [lifeOf_concat, filter_keep, List.filter_append, ih, List.filter_append]

section Runs

variable {start start' : Session}

theorem alike_clients (h : Alike none start start') (actions : List Action)
    (hsingle : ∀ action ∈ actions, action.single = true) :
    Alike none (start.run actions) (start'.run (actions.filter Action.makesClient)) := by
  induction actions using List.reverseRecOn with
  | nil => exact h
  | append_singleton actions action ih =>
      obtain ⟨hactions, haction⟩ := List.forall_mem_append.1 hsingle
      have halike := ih hactions
      rw [run_concat, List.filter_append]
      cases hclient : action.makesClient with
      | false =>
          have hfilter : [action].filter Action.makesClient = [] := by simp [hclient]
          rw [hfilter, List.append_nil]
          exact halike.act_left hclient (haction action List.mem_cons_self) nofun
      | true =>
          have hfilter : [action].filter Action.makesClient = [action] := by simp [hclient]
          rw [hfilter, run_concat]
          exact (halike.makeClient hclient).2

theorem alike_lifeOf (h : Alike (some name) start start') (actions : List Action)
    (hsingle : ∀ action ∈ actions, action.single = true) :
    Alike (some name) (start.run actions) (start'.run (lifeOf name actions)) := by
  induction actions using List.reverseRecOn with
  | nil => exact h
  | append_singleton actions action ih =>
      obtain ⟨hactions, haction⟩ := List.forall_mem_append.1 hsingle
      have halike := ih hactions
      have haction : action.single = true := haction action List.mem_cons_self
      rw [run_concat, lifeOf_concat, keep]
      split
      · next hmakes =>
        -- Nothing is left of the source that had the name before.
        rw [run_concat, filter_lifeOf]
        have hclients := alike_clients h.forget actions hactions
        refine hclients.act_both (Action.makesClient_of_makes hmakes) haction
          (hclients.shown_make hmakes) ?_
        intro hnone
        exact absurd hnone (perform_ne_none _ hmakes)
      · next hmakes =>
        split
        · next hown =>
          rw [run_concat]
          cases hclient : action.makesClient with
          | true => exact (halike.makeClient hclient).2
          | false =>
              have habout : action.about? = some name := by simpa [hclient] using hown
              exact halike.act_both hclient haction (halike.shown_use habout hmakes haction)
                fun _ => halike
        · next hother =>
          obtain ⟨hclient, habout⟩ := not_or.1 hother
          refine halike.act_left (by simpa using hclient) haction ?_
          rintro _ ⟨⟩
          exact habout

/-- The actions before a given one that belong to its source: those on that source since it was
made, and those that made clients.  A put of a reader or of bytes has a source of its own, on which
there are no earlier actions. -/
def own (earlier : List Action) (action : Action) : List Action :=
  match action.about? with
  | some name =>
      if action.makes? = some name then earlier.filter Action.makesClient
      else lifeOf name earlier
  | none => earlier.filter Action.makesClient

/-- An action in a session with any sources and a pool in any state shows exactly what it shows if,
from an empty pool, only the actions on its own source have come before it. -/
theorem observe_alone (limit : Option Level) (clients : Std.HashMap String Client) {pool : Pool}
    (hpool : pool.Reachable) (earlier : List Action) (action : Action)
    (hearlier : ∀ step ∈ earlier, step.single = true) (haction : action.single = true) :
    (run { limit, clients, pool } earlier).observe action =
      (run { limit, clients } (own earlier action)).observe action := by
  have hstart : ∀ name?, Alike name? { limit, clients, pool } { limit, clients } := fun name? =>
    ⟨rfl, rfl, fun _ _ => rfl, hpool.clean, Pool.reachable_empty.clean⟩
  have hclients := alike_clients (hstart none) earlier hearlier
  unfold own
  cases habout : action.about? with
  | none =>
      cases hclient : action.makesClient with
      | true => exact (hclients.makeClient hclient).1
      | false => exact hclients.observe_other habout hclient
  | some name =>
      dsimp only
      split
      · next hmakes => exact observe_eq_of_shown (hclients.shown_make hmakes)
      · next hmakes =>
        have halike := alike_lifeOf (hstart (some name)) earlier hearlier
        exact observe_eq_of_shown (halike.shown_use habout hmakes haction)

/-- A reader reports bytes that it has not written.  Between two pulls from it, another one is put
and dropped, and one that fails is read to the end. -/
theorem observe_alone_stale :
    let earlier : List Action :=
      [.makeReader "b" [.data [120, 121, 122]] 3, .makeReader "a" [.data [97, 98], .stale 2] 2,
        .next "a" 1 .direct, .put "b" none .boxed, .drop "b",
        .putReader none [.data [99], .fail { kind := .brokenPipe }]]
    let alone : List Action :=
      [.makeReader "a" [.data [97, 98], .stale 2] 2, .next "a" 1 .direct]
    let used := (Client.default.put .empty (Playback.mk [[100]] 0) (Finite.ends _)).pool
    let report := (run { limit := some .trace, pool := used } earlier).observe (.next "a" 1 .erased)
    used.Reachable ∧ (∀ step ∈ earlier, step.single = true) ∧
      report = (run { limit := some .trace } alone).observe (.next "a" 1 .erased) ∧
      report.map Report.answer = some (.chunks [[97, 98]]) := by
  intro earlier alone used report
  have hused : used.Reachable := Pool.reachable_empty.put Client.default _ _
  have hearlier : ∀ step ∈ earlier, step.single = true := by decide
  have halone : report = (run { limit := some .trace } alone).observe (.next "a" 1 .erased) :=
    observe_alone (some .trace) ∅ hused earlier _ hearlier rfl
  refine ⟨hused, hearlier, halone, ?_⟩
  rw [halone]
  cbv

end Runs

end Session

end ContentAddress
