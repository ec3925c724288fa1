import Axinite.Submissions.Hydration
import Mathlib.Data.List.AList

/-!
# Session manager

The manager keeps one session per user, maps the threads of channels to threads of
sessions, and keeps one undo manager per thread.  Each map has a lock of its own and so
has each session, hence a handler is a sequence of critical sections and between two of
them other handlers run and time passes.

A session is shared: a handler that has looked a session up keeps using it after the
manager has dropped it.  Sessions therefore live on a heap, and the map from users to
sessions holds references.

The manager also carries a record that the code does not keep: at which times a session
was returned to a caller, which users are about to lose their session, and what was
removed.  No operation reads it.
-/

namespace Axinite.SessionManager

open Axinite.Session Foundation Json Undo ThreadOps

/-! ## Maps -/

/-- Remove several keys from a map. -/
def eraseAll {α β : Type} [DecidableEq α] (keys : List α) (map : AList fun _ : α => β) :
    AList fun _ : α => β :=
  keys.foldl (fun map key => map.erase key) map

/-- Insert a value under a key that has none. -/
def orInsert {α β : Type} [DecidableEq α] (key : α) (value : β) (map : AList fun _ : α => β) :
    AList fun _ : α => β :=
  if key ∈ map then map else map.insert key value

/-! ## Sessions -/

structure UserSession where
  id : Uuid
  userId : String
  activeThread : Option Uuid
  threads : AList fun _ : Uuid => Thread
  lastActiveAt : Timestamp

namespace UserSession

/-- A new session is active when it is created. -/
def new (now : Timestamp) (id : Uuid) (userId : String) : UserSession where
  id := id
  userId := userId
  activeThread := none
  threads := ∅
  lastActiveAt := now

/-- Create a thread and make it the active one. -/
def createThread (now : Timestamp) (threadId : Uuid) (session : UserSession) : UserSession :=
  { session with
    activeThread := some threadId
    lastActiveAt := now
    threads := orInsert threadId (Thread.init now session.id threadId) session.threads }

/-- Insert a thread that was read back and make it the active one. -/
def insertThread (now : Timestamp) (thread : Thread) (session : UserSession) : UserSession :=
  { session with
    threads := session.threads.insert thread.id thread
    activeThread := some thread.id
    lastActiveAt := now }

def switchThread (now : Timestamp) (threadId : Uuid) (session : UserSession) : UserSession :=
  if threadId ∈ session.threads then
    { session with activeThread := some threadId, lastActiveAt := now }
  else session

end UserSession

/-! ## State of the manager -/

/-- Key of a thread of a channel. -/
structure ThreadKey where
  userId : String
  channel : String
  externalThreadId : Option String
  deriving DecidableEq

/-- A shared session is known by its place on the heap. -/
abbrev SessionRef := Nat

/-- A removal: the session, when it was returned before, the time and the limit. -/
structure Removal where
  session : SessionRef
  returns : List Timestamp
  time : Timestamp
  maxIdle : Nat
  deriving DecidableEq

/-- The maps of the manager, the sessions, the clock and the record of the run. -/
structure Manager where
  sessions : AList fun _ : String => SessionRef
  threadMap : AList fun _ : ThreadKey => Uuid
  undoManagers : AList fun _ : Uuid => UndoManager
  heap : List UserSession
  now : Timestamp
  nextUuid : Uuid
  /-- Sessions that were returned to a caller, with the time. -/
  returned : List (SessionRef × Timestamp)
  /-- Users that a running prune has selected and not removed yet. -/
  listed : List String
  removed : List Removal

namespace Manager

def new : Manager where
  sessions := ∅
  threadMap := ∅
  undoManagers := ∅
  heap := []
  now := 0
  nextUuid := 0
  returned := []
  listed := []
  removed := []

/-- The times at which a session was returned. -/
def returnsOf (m : Manager) (session : SessionRef) : List Timestamp :=
  (m.returned.filter fun entry => entry.1 = session).map Prod.snd

/-- When the session was last active. -/
def lastActiveAt (m : Manager) (session : SessionRef) : Option Timestamp :=
  m.heap[session]?.map UserSession.lastActiveAt

def hasThread (m : Manager) (session : SessionRef) (threadId : Uuid) : Bool :=
  m.heap[session]?.any fun s => threadId ∈ s.threads

/-- Some key is mapped to the thread. -/
def isMapped (m : Manager) (threadId : Uuid) : Bool :=
  m.threadMap.entries.any fun entry => entry.2 = threadId

/-- Change a session. -/
def modifySession (m : Manager) (session : SessionRef) (f : UserSession → UserSession) : Manager :=
  { m with heap := m.heap.modify session f }

/-- The users whose session was last active before the cutoff, with the identifiers of
these sessions.  A session that is locked by somebody else is skipped. -/
def staleSessions (m : Manager) (cutoff : Timestamp) (contended : SessionRef → Bool) :
    List (String × Uuid) :=
  m.sessions.entries.filterMap fun entry =>
    if contended entry.2 then none
    else m.heap[entry.2]?.bind fun s =>
      if s.lastActiveAt < cutoff then some (entry.1, s.id) else none

/-- The threads of the sessions of these users, except for locked sessions. -/
def threadIdsOf (m : Manager) (users : List String) (contended : SessionRef → Bool) : List Uuid :=
  users.flatMap fun user =>
    match m.sessions.lookup user with
    | some session =>
      if contended session then []
      else (m.heap[session]?.map fun s => s.threads.keys).getD []
    | none => []

/-- The record of the removals of these users' sessions. -/
def removals (m : Manager) (users : List String) (maxIdle : Nat) : List Removal :=
  users.filterMap fun user =>
    (m.sessions.lookup user).map fun session =>
      { session := session, returns := m.returnsOf session, time := m.now, maxIdle := maxIdle }

end Manager

/-! ## Critical sections -/

/-- The critical sections of the manager and of the handlers that use it.  `tick` lets time
pass and `returned` marks the point where a session is handed to a caller. -/
inductive ManagerOp where
  | tick (elapsed : Nat)
  | readClock
  | lookupSession (userId : String)
  | createSession (userId : String)
  | lookupThread (key : ThreadKey) (session : SessionRef)
  | mappedElsewhere (threadId : Uuid)
  | hasThread (session : SessionRef) (threadId : Uuid)
  | adoptThread (key : ThreadKey) (threadId : Uuid)
  | createThread (session : SessionRef)
  | switchThread (session : SessionRef) (threadId : Uuid)
  | readSessionId (session : SessionRef)
  | insertThread (session : SessionRef) (thread : Thread)
  | insertMapping (key : ThreadKey) (threadId : Uuid)
  | insertUndoManager (threadId : Uuid)
  | ensureUndoManager (threadId : Uuid)
  | trackSession (userId : String) (session : SessionRef)
  | returned (session : SessionRef)
  | scanStale (cutoff : Timestamp) (contended : SessionRef → Bool)
  | collectThreadIds (users : List String) (contended : SessionRef → Bool)
  | removeSessions (users : List String) (maxIdle : Nat)
  | retainMappings (users : List String)
  | removeUndoManagers (threadIds : List Uuid)

namespace ManagerOp

/-- What a critical section answers. -/
abbrev Resp : ManagerOp → Type
  | readClock => Timestamp
  | lookupSession _ => Option SessionRef
  | createSession _ => SessionRef
  | lookupThread _ _ => Option Uuid
  | mappedElsewhere _ => Bool
  | hasThread _ _ => Bool
  | adoptThread _ _ => Bool
  | createThread _ => Uuid
  | switchThread _ _ => Bool
  | readSessionId _ => Uuid
  | insertThread _ _ => Bool
  | scanStale _ _ => List (String × Uuid)
  | collectThreadIds _ _ => List Uuid
  | removeSessions _ _ => Nat
  | _ => Unit

/-- Effect of a critical section. -/
def exec : (op : ManagerOp) → Manager → op.Resp × Manager
  | tick elapsed, m => ((), { m with now := m.now + elapsed })
  | readClock, m => (m.now, m)
  | lookupSession userId, m => (m.sessions.lookup userId, m)
  | createSession userId, m =>
    -- the map is looked up again under the write lock
    match m.sessions.lookup userId with
    | some session => (session, m)
    | none =>
      (m.heap.length,
        { m with
          sessions := m.sessions.insert userId m.heap.length
          heap := m.heap ++ [UserSession.new m.now m.nextUuid userId]
          nextUuid := m.nextUuid + 1 })
  | lookupThread key session, m =>
    ((m.threadMap.lookup key).filter fun threadId => m.hasThread session threadId, m)
  | mappedElsewhere threadId, m => (m.isMapped threadId, m)
  | hasThread session threadId, m => (m.hasThread session threadId, m)
  | adoptThread key threadId, m =>
    if m.isMapped threadId then (false, m)
    else (true, { m with threadMap := m.threadMap.insert key threadId })
  | createThread session, m =>
    (m.nextUuid,
      { m.modifySession session (UserSession.createThread m.now m.nextUuid) with
        nextUuid := m.nextUuid + 1 })
  | switchThread session threadId, m =>
    (m.hasThread session threadId,
      m.modifySession session (UserSession.switchThread m.now threadId))
  | readSessionId session, m => ((m.heap[session]?.map UserSession.id).getD 0, m)
  | insertThread session thread, m =>
    if m.hasThread session thread.id then (false, m)
    else (true, m.modifySession session (UserSession.insertThread m.now thread))
  | insertMapping key threadId, m =>
    ((), { m with threadMap := m.threadMap.insert key threadId })
  | insertUndoManager threadId, m =>
    ((), { m with undoManagers := m.undoManagers.insert threadId UndoManager.new })
  | ensureUndoManager threadId, m =>
    ((), { m with undoManagers := orInsert threadId UndoManager.new m.undoManagers })
  | trackSession userId session, m =>
    ((), { m with sessions := orInsert userId session m.sessions })
  | returned session, m => ((), { m with returned := (session, m.now) :: m.returned })
  | scanStale cutoff contended, m =>
    (m.staleSessions cutoff contended,
      { m with listed := m.listed ++ (m.staleSessions cutoff contended).map Prod.fst })
  | collectThreadIds users contended, m => (m.threadIdsOf users contended, m)
  | removeSessions users maxIdle, m =>
    (m.sessions.entries.length - (eraseAll users m.sessions).entries.length,
      { m with
        sessions := eraseAll users m.sessions
        listed := m.listed.diff users
        removed := m.removed ++ m.removals users maxIdle })
  | retainMappings users, m =>
    -- the keys that are not retained are those of the users
    ((), { m with
      threadMap := eraseAll (m.threadMap.keys.filter fun key => key.userId ∈ users) m.threadMap })
  | removeUndoManagers threadIds, m =>
    ((), { m with undoManagers := eraseAll threadIds m.undoManagers })

end ManagerOp

/-! ## Handlers -/

/-- A program over the critical sections of the manager. -/
abbrev ManagerProgram := Program ManagerOp ManagerOp.Resp

/-- Perform one critical section of the manager. -/
abbrev locked (op : ManagerOp) : ManagerProgram op.Resp :=
  Program.perform op

/-- Parsing and printing of identifiers, and what reads stored messages. -/
structure ManagerEnv where
  parseUuid : String → Option Uuid
  uuidToString : Uuid → String
  serde : SerdeJson
  safety : String → String → String

def getOrCreateSession (userId : String) : ManagerProgram SessionRef := do
  match ← locked (.lookupSession userId) with
  | some session => pure session
  | none => locked (.createSession userId)

/-- Hand a session and one of its threads to the caller. -/
def returnThread (session : SessionRef) (threadId : Uuid) :
    ManagerProgram (SessionRef × Uuid) := do
  locked (.returned session)
  pure (session, threadId)

/-- Map the key to a thread of the session that the external identifier names and that no
key is mapped to. -/
def adoptExternalThread (env : ManagerEnv) (key : ThreadKey) (session : SessionRef) :
    ManagerProgram (Option Uuid) := do
  match key.externalThreadId.bind env.parseUuid with
  | none => pure none
  | some threadId =>
    if ← locked (.mappedElsewhere threadId) then pure none
    else if ← locked (.hasThread session threadId) then
      if ← locked (.adoptThread key threadId) then
        locked (.ensureUndoManager threadId)
        pure (some threadId)
      else pure none
    else pure none

/-- Resolve an external thread to a thread of the user's session. -/
def resolveThread (env : ManagerEnv) (userId channel : String)
    (externalThreadId : Option String) : ManagerProgram (SessionRef × Uuid) := do
  let session ← getOrCreateSession userId
  let key : ThreadKey := ⟨userId, channel, externalThreadId⟩
  match ← locked (.lookupThread key session) with
  | some threadId => returnThread session threadId
  | none =>
    match ← adoptExternalThread env key session with
    | some threadId => returnThread session threadId
    | none =>
      let threadId ← locked (.createThread session)
      locked (.insertMapping key threadId)
      locked (.insertUndoManager threadId)
      returnThread session threadId

/-- Register a thread so that it is found under its own identifier. -/
def registerThread (env : ManagerEnv) (userId channel : String) (threadId : Uuid)
    (session : SessionRef) : ManagerProgram Unit := do
  locked (.insertMapping ⟨userId, channel, some (env.uuidToString threadId)⟩ threadId)
  locked (.ensureUndoManager threadId)
  locked (.trackSession userId session)

/-- Read a thread back from the store, if it is not in memory.  `loaded` is the answer of
the store, or the error of a failed query. -/
def maybeHydrateThread (env : ManagerEnv) (userId channel externalThreadId : String)
    (loaded : Except String (List ConversationMessage)) : ManagerProgram (Except String Unit) := do
  match env.parseUuid externalThreadId with
  | none => pure (.ok ())
  | some threadId =>
    let session ← getOrCreateSession userId
    if ← locked (.hasThread session threadId) then pure (.ok ())
    else
      match loaded with
      | .error message => pure (.error message)
      | .ok dbMessages =>
        let sessionId ← locked (.readSessionId session)
        let now ← locked .readClock
        let thread := Submissions.hydrateThread env.serde env.safety now sessionId threadId
          dbMessages
        if ← locked (.insertThread session thread) then
          registerThread env userId channel threadId session
          pure (.ok ())
        else pure (.ok ())

/-- Start a new thread in the session of the user. -/
def processNewThread (env : ManagerEnv) (userId : String) :
    ManagerProgram Approval.SubmissionResult := do
  let session ← getOrCreateSession userId
  let threadId ← locked (.createThread session)
  pure (.ok (some ("New thread: " ++ env.uuidToString threadId)))

/-- Switch to another thread of the session of the user. -/
def processSwitchThread (env : ManagerEnv) (userId : String) (targetThreadId : Uuid) :
    ManagerProgram Approval.SubmissionResult := do
  let session ← getOrCreateSession userId
  if ← locked (.switchThread session targetThreadId) then
    pure (.ok (some ("Switched to thread " ++ env.uuidToString targetThreadId)))
  else pure (.error "Thread not found.")

/-- Time stamps and durations count nanoseconds. -/
def nanosPerSecond : Nat :=
  1000000000

def wholeSeconds (duration : Nat) : Nat :=
  duration / nanosPerSecond * nanosPerSecond

/-- Remove the sessions that have been idle for longer than the given duration.  The two
scans skip the sessions that are locked by somebody else at that moment. -/
def pruneStaleSessions (maxIdle : Nat) (contended contendedLater : SessionRef → Bool) :
    ManagerProgram Nat := do
  let now ← locked .readClock
  let staleSessions ← locked (.scanStale (now - wholeSeconds maxIdle) contended)
  let staleUsers := staleSessions.map Prod.fst
  if staleUsers.isEmpty then pure 0
  else
    let staleThreadIds ← locked (.collectThreadIds staleUsers contendedLater)
    let count ← locked (.removeSessions staleUsers maxIdle)
    locked (.retainMappings staleUsers)
    locked (.removeUndoManagers staleThreadIds)
    pure count

end Axinite.SessionManager
