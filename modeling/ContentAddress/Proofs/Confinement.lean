import ContentAddress.Proofs.HiddenCapacity

/-!
# What a step touches

Each step of a session is about a source, about a client or about neither.  A step that makes no
client and relates no two sources changes the source that it is about, if there is one, and takes
buffers from the pool and returns them; it leaves everything else alone.
-/

namespace ContentAddress

namespace Action

def makes? : Action → Option String
  | makeChunks name _ | makeFeed name _ | makeReader name _ _ | makePlayback name _ => some name
  | _ => none

/-- The source that is made or used, if there is one. -/
def about? : Action → Option String
  | makeChunks name _ | makeFeed name _ | makeReader name _ _ | makePlayback name _ | copy _ name
  | next name _ _ | put name _ _ | push name _ | extend name _ | rewind name | list name
  | compare name _ | describe name | takeError name | unwrap name | drop name => some name
  | makeClient _ _ | putBytes _ _ | putReader _ _ => none

def makesClient : Action → Bool
  | makeClient _ _ => true
  | _ => false

/-- Whether at most one source takes part; copying and comparing relate two. -/
def single : Action → Bool
  | copy _ _ | compare _ _ => false
  | _ => true

theorem makesClient_of_makes {action : Action} {name : String}
    (hmakes : action.makes? = some name) : action.makesClient = false := by
  cases action with
  | makeClient _ _ => cases hmakes
  | _ => rfl

end Action

namespace Session

/-- The session after an action; one that has no result changes nothing. -/
def act (session : Session) (action : Action) : Session :=
  match session.perform action with
  | some (session, _) => session
  | none => session

def run (session : Session) (actions : List Action) : Session := actions.foldl act session

/-- The step from `before` to `after` touches at most the named source and the pool. -/
structure Confined (name? : Option String) (before after : Session) : Prop where
  limit_eq : after.limit = before.limit
  clients_eq : after.clients = before.clients
  sources_eq : ∀ name, name? ≠ some name → after.sources[name]? = before.sources[name]?
  clean : before.pool.Clean → after.pool.Clean

namespace Confined

variable {session before after : Session} {name : String}

theorem refl (name? : Option String) (session : Session) : Confined name? session session :=
  ⟨rfl, rfl, fun _ _ => rfl, id⟩

theorem trans {name? : Option String} {first middle last : Session}
    (h : Confined name? first middle) (h' : Confined name? middle last) :
    Confined name? first last where
  limit_eq := h'.limit_eq.trans h.limit_eq
  clients_eq := h'.clients_eq.trans h.clients_eq
  sources_eq other hother := (h'.sources_eq other hother).trans (h.sources_eq other hother)
  clean := h'.clean ∘ h.clean

theorem pool {pool : Pool} (name? : Option String) (hpool : session.pool.Clean → pool.Clean) :
    Confined name? session { session with pool } :=
  ⟨rfl, rfl, fun _ _ => rfl, hpool⟩

theorem restore (session : Session) (name : String) (source : AnySource) :
    Confined (some name) session (session.restore name source) := by
  refine ⟨rfl, rfl, ?_, id⟩
  intro other hother
  have hne : name ≠ other := fun h => hother (h ▸ rfl)
  simp [Session.restore, Std.HashMap.getElem?_insert, hne]

theorem remove {source : AnySource} (h : before.remove? name = some (source, after)) :
    Confined (some name) before after := by
  obtain ⟨found, -, hafter⟩ := Option.map_eq_some_iff.1 h
  cases hafter
  refine ⟨rfl, rfl, ?_, id⟩
  intro other hother
  have hne : name ≠ other := fun h => hother (h ▸ rfl)
  simp [Std.HashMap.getElem?_erase, hne]

theorem store (session : Session) (name : String) (source : AnySource) :
    Confined (some name) session (session.store name source) := by
  apply (restore session name source).trans
  -- The source that had the name before is given up, which may return its buffer.
  apply pool
  intro hclean
  cases session.sources[name]? with
  | none => exact hclean
  | some old => exact Pool.Clean.release hclean old

theorem changeList {report : Report} {change : ChunkList → ChunkList}
    (h : before.changeList name change = some (after, report)) :
    Confined (some name) before after := by
  obtain ⟨list, -, hafter⟩ := Option.bind_eq_some_iff.1 h
  cases hafter
  exact restore before name _

end Confined

theorem confined_perform {session after : Session} {action : Action} {report : Report}
    (hperform : session.perform action = some (after, report))
    (hclient : action.makesClient = false) (hsingle : action.single = true) :
    Confined action.about? session after := by
  cases action with
  | makeChunks name chunks =>
      cases hperform
      exact .store session name _
  | makeFeed name items =>
      cases hperform
      exact .store session name _
  | makePlayback name chunks =>
      cases hperform
      exact .store session name _
  | makeReader name script readSize =>
      cases hperform
      exact (Confined.pool _ Pool.Clean.take).trans (.store _ name _)
  | copy source name => cases hsingle
  | compare source other => cases hsingle
  | makeClient name config => cases hclient
  | next name times route =>
      obtain ⟨⟨source, rest⟩, hremove, hafter⟩ := Option.bind_eq_some_iff.1 hperform
      cases hafter
      exact (Confined.remove hremove).trans (.restore rest name _)
  | put name client? route =>
      obtain ⟨client, -, hrest⟩ := Option.bind_eq_some_iff.1 hperform
      obtain ⟨⟨source, rest⟩, hremove, hafter⟩ := Option.bind_eq_some_iff.1 hrest
      cases hafter
      refine (Confined.remove hremove).trans (.trans (.pool _ ?_) (.restore _ name _))
      intro hclean
      rw [route.put_eq]
      exact hclean.put client source _
  | putBytes client? content =>
      obtain ⟨client, -, hafter⟩ := Option.bind_eq_some_iff.1 hperform
      cases hafter
      exact .refl _ session
  | putReader client? script =>
      obtain ⟨client, -, hafter⟩ := Option.bind_eq_some_iff.1 hperform
      cases hafter
      exact .pool _ fun hclean => hclean.putReader client _ _
  | push name chunk => exact .changeList hperform
  | extend name chunks => exact .changeList hperform
  | rewind name => exact .changeList hperform
  | list name =>
      obtain ⟨list, -, hafter⟩ := Option.bind_eq_some_iff.1 hperform
      cases hafter
      exact .refl _ session
  | describe name =>
      obtain ⟨source, -, hrest⟩ := Option.bind_eq_some_iff.1 hperform
      obtain ⟨layout, -, hafter⟩ := Option.bind_eq_some_iff.1 hrest
      cases hafter
      exact .refl _ session
  | takeError name =>
      obtain ⟨⟨source, rest⟩, hremove, hafter⟩ := Option.bind_eq_some_iff.1 hperform
      cases source with
      | reader source =>
          cases hafter
          exact (Confined.remove hremove).trans (.restore rest name _)
      | _ => cases hafter
  | unwrap name =>
      obtain ⟨⟨source, rest⟩, hremove, hafter⟩ := Option.bind_eq_some_iff.1 hperform
      cases source with
      | feed source =>
          cases hafter
          exact .remove hremove
      | reader source =>
          cases hafter
          exact (Confined.remove hremove).trans (.pool _ fun hclean => hclean.give source.buffer)
      | _ => cases hafter
  | drop name =>
      obtain ⟨⟨source, rest⟩, hremove, hafter⟩ := Option.bind_eq_some_iff.1 hperform
      cases hafter
      exact (Confined.remove hremove).trans (.pool _ fun hclean => hclean.release source)

theorem confined_act (session : Session) {action : Action} (hclient : action.makesClient = false)
    (hsingle : action.single = true) : Confined action.about? session (session.act action) := by
  unfold act
  split
  · next after report hperform => exact confined_perform hperform hclient hsingle
  · exact .refl _ session

end Session

end ContentAddress
