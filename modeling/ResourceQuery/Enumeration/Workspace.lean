import ResourceQuery.Enumeration.Client

namespace ResourceQuery.Enumeration

inductive Session
  | onDemand (decoder : Decoder String String) (session : OnDemand String)
  | paged (decoder : Decoder String String) (session : Paged String)
  | streaming (decoder : Decoder String String) (token : Token) (total : Option Nat)
      (session : Stream String String)

-- One client of one service. Workers settle between its commands.
structure Workspace where
  config : Config
  service : Service String
  board : Switchboard := {}
  sessions : List (String × Session) := []
  contexts : List (String × String) := []
  tokens : List (String × Token) := []

namespace Workspace

inductive Mode
  | onDemand
  | paged
  | streaming
  deriving DecidableEq, Repr

inductive Command
  | enumerate (search : Search.Draft) (save : String)
  | pull (slot : String) (pageSize : Int) (save : Option String)
  | release (slot : String)
  | count (search : Search.Draft)
  | config
  | search (mode : Mode) (id : String) (search : Search.Draft) (decoder : Decoder String String)
  | state (id : String)
  | drop (id : String)
  | next (id : String) (times : Nat)
  | nextPage (id : String) (times : Nat)
  | take (id : String) (times : Nat)
  | collect (id : String)
  | cancel (id : String)
  | keepToken (id : String) (name : String)
  | wait (id : String)
  | cancelToken (name : String)
  | tokenState (name : String)

inductive Reply
  | answer (answer : Answer String)
  | failed (error : EnumerationError)
  | refused (error : FilterError)
  | released
  | count (total : Nat)
  | config (config : Config)
  | opened
  | nothing
  | dropped
  | records (results : List (Option (Outcome String)))
  | pages (results : List (Option (Outcome (Page String))))
  | cancelled
  | saved
  | joined
  | panicked
  | truth (value : Bool)
  | ended

-- What a session shows of itself.
inductive View
  | onDemand (buffered : Nat) (finished : Bool) (total : Option Nat)
  | paged (hasMore : Bool) (pages : Nat) (total : Option Nat)
  | streaming (buffered : Nat) (cancelled : Bool) (exited : Bool) (total : Option Nat)

-- The reply to a command, with the calls and notes it brought about and the view of the session it
-- was about, if that still exists.
structure Entry where
  reply : Reply
  calls : List Call
  notes : List Note
  view : Option View

-- Puts a value under a name, in place of an earlier one.
def put {α : Type} (entries : List (String × α)) (name : String) (value : α) : List (String × α) :=
  entries.filter (·.1 != name) ++ [(name, value)]

def remove {α : Type} (entries : List (String × α)) (name : String) : List (String × α) :=
  entries.filter (·.1 != name)

def view (w : Workspace) : Session → View
  | .onDemand _ o => .onDemand o.buffer.length o.isFinished o.cursor.total
  | .paged _ p => .paged p.hasMore p.pagesReturned p.cursor.total
  | .streaming _ token total s =>
    .streaming s.queue.length (w.board.isCancelled token) s.worker.hasExited total

-- A stream with what its worker shares.
def flow (w : Workspace) (token : Token) (s : Stream String String) : Flow String String where
  service := w.service
  switch := w.board.state token
  stream := s

-- The workspace after a stream has moved.
def after (w : Workspace) (token : Token) (f : Flow String String) : Workspace :=
  { w with service := f.service, board := w.board.put token f.switch }

def putSession (w : Workspace) (id : String) (session : Session) : Workspace :=
  { w with sessions := put w.sessions id session }

def removeSession (w : Workspace) (id : String) : Workspace :=
  { w with sessions := remove w.sessions id }

-- Lets the workers of all streams make use of what has changed.
def settle (w : Workspace) : Workspace :=
  w.sessions.foldl
    (fun w (id, session) =>
      match session with
      | .streaming d token total s =>
        let f := (w.flow token s).settle d
        (w.after token f).putSession id (.streaming d token total f.stream)
      | _ => w)
    w

-- What a session leaves behind when it is given up.
def dropSession (w : Workspace) : Session → Workspace
  | .onDemand _ o => { w with service := o.drop w.service }
  | .paged _ p => { w with service := p.drop w.service }
  | .streaming d token _ s => w.after token ((w.flow token s).drop d)

-- Puts a session under an id and drops the one which had it before.
def replaceSession (w : Workspace) (id : String) (session : Session) : Workspace :=
  match w.sessions.lookup id with
  | none => w.putSession id session
  | some previous => (w.dropSession previous).putSession id session

def openSession (w : Workspace) (mode : Mode) (id : String) (search : Search)
    (d : Decoder String String) : Reply × Workspace :=
  match mode with
  | .onDemand =>
    match Client.searchOnDemand w.config search w.service with
    | (.error error, service) => (.failed error, { w with service })
    | (.ok o, service) => (.opened, { w with service }.replaceSession id (.onDemand d o))
  | .paged =>
    match Client.searchPaged w.config search w.service with
    | (.error error, service) => (.failed error, { w with service })
    | (.ok p, service) => (.opened, { w with service }.replaceSession id (.paged d p))
  | .streaming =>
    match Client.searchStreaming w.config search w.service with
    | (.error error, service) => (.failed error, { w with service })
    | (.ok (s, total), service) =>
      let (token, board) := w.board.issue
      let w := { w with service, board }
      let f := (w.flow token s).settle d
      (.opened, (w.after token f).replaceSession id (.streaming d token total f.stream))

-- Carries a search out if its filter can be built.
def withSearch (w : Workspace) (draft : Search.Draft) (run : Search → Reply × Workspace) :
    Reply × Workspace :=
  match draft.resolve with
  | .error error => (.refused error, w)
  | .ok search => run search

def next (w : Workspace) (id : String) (times : Nat) : Session → Reply × Workspace
  | .onDemand d o =>
    let (results, o, service) := o.nextMany d times w.service
    (.records results, { w with service }.putSession id (.onDemand d o))
  | .paged d p =>
    let (results, p, service) := p.nextMany d times w.service
    (.pages results, { w with service }.putSession id (.paged d p))
  | .streaming d token total s =>
    let (results, f) := (w.flow token s).nextMany d times
    (.records results, (w.after token f).putSession id (.streaming d token total f.stream))

def collect (w : Workspace) (id : String) : Session → Reply × Workspace
  | .onDemand d o =>
    let (results, o, service) := o.drain d w.service
    (.records (results.map some), { w with service }.putSession id (.onDemand d o))
  | .paged d p =>
    let (results, p, service) := p.drain d w.service
    (.pages (results.map some), { w with service }.putSession id (.paged d p))
  | .streaming d token total s =>
    let (results, f) := (w.flow token s).drain d
    (.records (results.map some),
      (w.after token f).putSession id (.streaming d token total f.stream))

-- The reply to a command, or nothing if it names what is not there or does not fit the session.
-- Only a look at a session and its end need no session.
def perform (w : Workspace) : Command → Option (Reply × Workspace)
  | .enumerate draft save =>
    some <| w.withSearch draft fun search =>
      match Client.enumerate w.config search w.service with
      | (.error error, service) => (.failed error, { w with service })
      | (.ok answer, service) =>
        (.answer answer, { w with
          service
          contexts := answer.context.elim w.contexts (put w.contexts save) })
  | .pull slot pageSize save => do
    let context ← w.contexts.lookup slot
    match Client.pull context pageSize w.service with
    | (.error error, service) => return (.failed error, { w with service })
    | (.ok answer, service) =>
      let contexts :=
        match save, answer.context with
        | some save, some context => put w.contexts save context
        | _, _ => w.contexts
      return (.answer answer, { w with service, contexts })
  | .release slot => do
    let context ← w.contexts.lookup slot
    return (.released, { w with
      service := Client.release context w.service
      contexts := remove w.contexts slot })
  | .count draft =>
    some <| w.withSearch draft fun search =>
      match Client.count w.config search w.service with
      | (.error error, service) => (.failed error, { w with service })
      | (.ok total, service) => (.count total, { w with service })
  | .config => some (.config w.config, w)
  | .search mode id draft d =>
    some <| w.withSearch draft fun search => w.openSession mode id search d
  | .state _ => some (.nothing, w)
  | .drop id =>
    match w.sessions.lookup id with
    | none => some (.dropped, w)
    | some session => some (.dropped, (w.dropSession session).removeSession id)
  | .next id times => do
    let session ← w.sessions.lookup id
    return w.next id times session
  | .nextPage id times => do
    match ← w.sessions.lookup id with
    | .paged d p =>
      let (results, p, service) := p.nextPages d times w.service
      return (.pages (results.map some), { w with service }.putSession id (.paged d p))
    | _ => none
  | .take id times => do
    match ← w.sessions.lookup id with
    | .onDemand d o =>
      let (results, o, service) := o.take d times w.service
      return (.records (results.map some), { w with service }.putSession id (.onDemand d o))
    | _ => none
  | .collect id => do
    let session ← w.sessions.lookup id
    return w.collect id session
  | .cancel id => do
    match ← w.sessions.lookup id with
    | .streaming d token total s =>
      let f := (w.flow token s).cancel d
      return (.cancelled, (w.after token f).putSession id (.streaming d token total f.stream))
    | _ => none
  | .keepToken id name => do
    match ← w.sessions.lookup id with
    | .streaming _ token _ _ => return (.saved, { w with tokens := put w.tokens name token })
    | _ => none
  | .wait id => do
    match ← w.sessions.lookup id with
    | .streaming d token _ s =>
      let f := (w.flow token s).wait d
      let reply := if f.stream.worker.hasPanicked then .panicked else .joined
      return (reply, (w.after token f).removeSession id)
    | _ => none
  | .cancelToken name => do
    let token ← w.tokens.lookup name
    let (first, board) := w.board.cancel token
    return (.truth first, { w with board }.settle)
  | .tokenState name => do
    let token ← w.tokens.lookup name
    return (.truth (w.board.isCancelled token), w)

-- The id of the session that a command is about.
def Command.session? : Command → Option String
  | search _ id _ _ | state id | drop id | next id _ | nextPage id _ | take id _ | collect id
  | cancel id | keepToken id _ | wait id => some id
  | _ => none

-- The entry for what has led from one workspace to another.
def entry (before after : Workspace) (reply : Reply) (id : Option String) : Entry where
  reply
  calls := after.service.calls.drop before.service.calls.length
  notes := after.service.notes.drop before.service.notes.length
  view := (id.bind fun id => after.sessions.lookup id).map after.view

-- Gives up all sessions, in the order of their ids.
def close (w : Workspace) : Workspace :=
  let sorted := w.sessions.mergeSort fun a b => a.1 ≤ b.1
  { sorted.foldl (fun w (_, session) => w.dropSession session) w with sessions := [] }

-- The entries for a list of commands, and one for the end.
def run (w : Workspace) : List Command → Option (List Entry)
  | [] => some [entry w w.close .ended none]
  | c :: cs => do
    let (reply, after) ← w.perform c
    return entry w after reply c.session? :: (← run after cs)

end Workspace

end ResourceQuery.Enumeration
