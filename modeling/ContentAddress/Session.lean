import ContentAddress.Source.AnySource
import Std.Data.HashMap

/-!
# Sessions

A session keeps clients and sources under names, and one pool of buffers that all of them share.  It
is driven by actions, each of which is answered by a report.
-/

namespace ContentAddress

open Text (Layout)

inductive Action
  | makeChunks (name : String) (chunks : List Bytes)
  | makeFeed (name : String) (items : List (Option Bytes))
  | makeReader (name : String) (script : List ScriptStep) (readSize : Nat)
  | makePlayback (name : String) (chunks : List Bytes)
  | copy (source : String) (name : String)
  | makeClient (name : String) (config : Config)
  | next (source : String) (times : Nat) (route : Route)
  | put (source : String) (client : Option String) (route : Route)
  | putBytes (client : Option String) (content : Bytes)
  | putReader (client : Option String) (script : List ScriptStep)
  | push (source : String) (chunk : Bytes)
  | extend (source : String) (chunks : List Bytes)
  | rewind (source : String)
  | list (source : String)
  /-- Compares two lists, cursors included. -/
  | compare (source other : String)
  | describe (source : String)
  | takeError (source : String)
  /-- Gives up a source and looks at what it was made from. -/
  | unwrap (source : String)
  | drop (source : String)

inductive Answer
  | done
  | client (client : Client)
  | fault (fault : Fault)
  | id (id : BlobId)
  | chunks (chunks : List Bytes)
  | items (items : List (Option Bytes))
  | read (outcome : Except IoError Bytes)
  | equal (verdict : Bool)
  | description (layout : Layout)
  | error (error : Option IoError)

inductive Snapshot
  | source (source : AnySource)
  | items (items : Items)
  | script (script : Script)

structure Report where
  answer : Answer
  snapshot : Option Snapshot := none
  events : Option (List Event) := none

structure Session where
  limit : Option Level := none
  clients : Std.HashMap String Client := ∅
  sources : Std.HashMap String AnySource := ∅
  pool : Pool := .empty

namespace Session

def client? (session : Session) : Option String → Option Client
  | none => some .default
  | some name => session.clients[name]?

/-- Puts a source under a name.  A source that had the name is given up afterwards. -/
def store (session : Session) (name : String) (source : AnySource) : Session :=
  { session with
    sources := session.sources.insert name source
    pool := match session.sources[name]? with
      | some old => old.release session.pool
      | none => session.pool }

def remove? (session : Session) (name : String) : Option (AnySource × Session) :=
  session.sources[name]?.map fun source =>
    (source, { session with sources := session.sources.erase name })

/-- Puts a source back under its name, which is free. -/
def restore (session : Session) (name : String) (source : AnySource) : Session :=
  { session with sources := session.sources.insert name source }

def chunkList? (session : Session) (name : String) : Option ChunkList :=
  match session.sources[name]? with
  | some (.chunks list) => some list
  | _ => none

/-- A report in this session: the listener hears some of the events. -/
def report (session : Session) (answer : Answer) (snapshot : Option Snapshot)
    (events : List Event := []) : Report where
  answer
  snapshot
  events := session.limit.map fun limit => Event.heard limit events

def made (session : Session) (name : String) (source : AnySource) : Session × Report :=
  (session.store name source, session.report .done (some (.source source)))

def changeList (session : Session) (name : String) (change : ChunkList → ChunkList) :
    Option (Session × Report) := do
  let list ← session.chunkList? name
  let source := AnySource.chunks (change list)
  return (session.restore name source, session.report .done (some (.source source)))

/-- Pulls `times` chunks; the chunks and events are added to those given. -/
def pull (route : Route) : Nat → AnySource → Array Bytes → Array Event →
    Array Bytes × AnySource × Array Event
  | 0, source, chunks, events => (chunks, source, events)
  | times + 1, source, chunks, events =>
      match route.next source with
      | ⟨chunk, source, happened⟩ =>
          pull route times source (chunks.push chunk) (events ++ happened)

def describe : AnySource → Option Layout
  | .chunks list => some list.layout
  | .feed source => some (source.layout Items.layout)
  | .reader source => some (source.layout Script.layout)
  | .playback _ => none

def readOnce (script : Script) : Except IoError Bytes :=
  match Reader.read script (Buffer.pushZeros 4 .empty) with
  | ⟨outcome, buffer, _⟩ => outcome.map fun count => ReadSource.front buffer count

/-- Does one action.  There is no result if the action names something that is not there, or asks of
a source what its kind does not have. -/
def perform (session : Session) : Action → Option (Session × Report)
  | .makeChunks name chunks => some (session.made name (.chunks (.ofList chunks)))
  | .makeFeed name items => some (session.made name (.feed { feed := { left := items } }))
  | .makePlayback name chunks => some (session.made name (.playback { left := chunks }))
  | .makeReader name script readSize =>
      let (source, pool) := ReadSource.start session.pool (Script.ofSteps script) readSize
      some ({ session with pool }.made name (.reader source))
  | .copy source name => do
      let list ← session.chunkList? source
      return session.made name (.chunks list)
  | .makeClient name config =>
      match Client.ofConfig config with
      | .error fault => some (session, session.report (.fault (.invalidConfig fault)) none)
      | .ok client =>
          some ({ session with clients := session.clients.insert name client },
            session.report (.client client) none)
  | .next name times route => do
      let (source, session) ← session.remove? name
      let (chunks, source, events) := pull route times source #[] #[]
      return (session.restore name source,
        session.report (.chunks chunks.toList) (some (.source source)) events.toList)
  | .put name client route => do
      let client ← session.client? client
      let (source, session) ← session.remove? name
      let receipt := route.put client session.pool source
      return ({ session with pool := receipt.pool }.restore name receipt.source,
        session.report (.id receipt.id) (some (.source receipt.source)) receipt.events)
  | .putBytes client content => do
      let client ← session.client? client
      return (session, session.report (.id (client.putBytes content)) none)
  | .putReader client script => do
      let client ← session.client? client
      let receipt :=
        client.putReader session.pool (Script.ofSteps script) (Source.Finite.ends _)
      let answer := match receipt.result with
        | .ok id => .id id
        | .error fault => .fault fault
      return ({ session with pool := receipt.pool },
        session.report answer (some (.script receipt.reader)) receipt.events)
  | .push name chunk => session.changeList name (·.push chunk)
  | .extend name chunks => session.changeList name (·.extend chunks)
  | .rewind name => session.changeList name (·.rewind)
  | .list name => do
      let list ← session.chunkList? name
      return (session, session.report (.chunks list.chunks.toList) (some (.source (.chunks list))))
  | .compare name other => do
      let list ← session.chunkList? name
      let other ← session.chunkList? other
      return (session, session.report (.equal (list = other)) none)
  | .describe name => do
      let source ← session.sources[name]?
      let layout ← describe source
      return (session, session.report (.description layout) (some (.source source)))
  | .takeError name => do
      match ← session.remove? name with
      | (.reader source, session) =>
          let (error, source) := source.takeError
          return (session.restore name (.reader source),
            session.report (.error error) (some (.source (.reader source))))
      | _ => none
  | .unwrap name => do
      match ← session.remove? name with
      | (.feed source, session) =>
          return (session,
            session.report (.items source.feed.left) (some (.items source.feed)))
      | (.reader source, session) =>
          let (script, pool) := source.close session.pool
          return ({ session with pool },
            session.report (.read (readOnce script)) (some (.script script)))
      | _ => none
  | .drop name => do
      let (source, session) ← session.remove? name
      return ({ session with pool := source.release session.pool }, session.report .done none)

end Session

end ContentAddress
