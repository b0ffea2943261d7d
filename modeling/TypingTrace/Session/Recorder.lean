import TypingTrace.Engine.Basic
import TypingTrace.Engine.Memo
import TypingTrace.Event.Filter
import TypingTrace.Session.Loose

/-!
# The recorder

A recorder holds sessions in the order in which they were started, gives out identities, and keeps
for each session the last analytics computed for it. This module says what a recorder answers as it
stands; what requests do to it is in `TypingTrace.Session.Request`.
-/

namespace TypingTrace

open Time Log

structure Recorder where
  engine : Engine
  /-- The registry of the recorder's own analytics, if not the engine's. -/
  registry : Option Registry
  /-- The number of events that a batch may have. -/
  maxBatch : Value
  sessions : List Session := []
  memos : List (Value × Memo Nat Run) := []
  /-- How many identities were given out. -/
  drawn : Nat := 0

namespace Recorder

/-- A recorder as the settings ask for. A default value that is given takes precedence. -/
def ofSettings (s : Settings) (registry : Option Registry) (defaultValue : Value) (now : Clock) :
    Except Fault Recorder := do
  let engine ← Engine.ofSettings s registry defaultValue .null none now
  return { engine, registry, maxBatch := s.get "ingestion.max_batch_size" (.int 1000) }

/-! ## Sessions -/

/-- The session with a given id. -/
def find? (r : Recorder) (id : Value) : Option Session := r.sessions.find? fun s => s.id.same id

/-- The session with a given id, or the fault of there being none. -/
def session (r : Recorder) (id : Value) : Except Fault Session :=
  if !id.isHashable then .error (.unhashable id.shortTypeName)
  else match r.find? id with
    | some s => .ok s
    | none => .error (.sessionNotFound id)

/-- The session with a given id, which has to belong to a project if one is named. -/
def checkedSession (r : Recorder) (id project : Value) : Except Fault Session := do
  let s ← r.session id
  if project.isNull || s.project.equals project then return s
  throw (.projectMismatch id project)

/-- The recorder with one session replaced. -/
def replace (r : Recorder) (s : Session) : Recorder :=
  { r with sessions := r.sessions.map fun t => if t.id.same s.id then s else t }

/-- The metadata of a session: an object, a collection of pairs, or anything that counts as
false. -/
def metadataOf (v : Value) : Except Fault Value := do
  if !v.truthy then return .object []
  match v with
  | .object fields => return .object fields
  | v => return .object (← Json.fieldsOf (← Table.ofValue v))

/-- The sessions of a project, or all if none is named. -/
def sessionsOf (r : Recorder) (project : Value) : List Session :=
  r.sessions.filter fun s => project.isNull || s.project.equals project

/-! ## Batches -/

/-- Checks the size of a batch. -/
def checkSize (r : Recorder) (size : Nat) : Except Fault Unit := do
  if size = 0 then throw .emptyBatch
  if ← (Value.int size).compare .gt r.maxBatch then throw (.oversizedBatch r.maxBatch)

/-- The warning about events that came after the submission. -/
def lateWarning (count : Nat) (s : Session) : List String :=
  if s.submitted.truthy then
    ["Warning: Accepted " ++ Text.natText count ++ " late events for submitted session " ++
      s.id.inserted]
  else []

/-! ## Queries -/

/-- The sessions whose events a filter can admit: the one it names, or all. -/
def candidates (r : Recorder) (f : Filter) : Except Fault (List Session) :=
  if f.session.isNull then .ok r.sessions
  else if !f.session.isHashable then .error (.unhashable f.session.shortTypeName)
  else .ok (r.find? f.session).toList

/-- The owner of the session of an event, null if the session is not among the given ones. -/
def ownerAmong (sessions : List Session) (e : StoredEvent) : Value :=
  ((sessions.find? fun s => s.id.same e.session).map (·.owner)).getD .null

/-- The stored events that a filter admits, by sessions and within a session by time. -/
def query (r : Recorder) (f : Filter) : Except Fault (List StoredEvent) := do
  let sessions ← r.candidates f
  let events := sessions.flatMap (·.events)
  f.page (events.filter fun e => f.admits (ownerAmong sessions e) (.stored e))

/-! ## Analytics -/

/-- The events of a session as calculators are given them. -/
def entries (s : Session) : List Entry := s.events.map fun e => .event (.stored e)

def memoOf (r : Recorder) (id : Value) : Memo Nat Run :=
  ((r.memos.find? fun (k, _) => k.same id).map (·.2)).getD {}

/-- The recorder with the memo of a session replaced. -/
def withMemo (r : Recorder) (id : Value) (m : Memo Nat Run) : Recorder :=
  { r with memos := (id, m) :: r.memos.filter fun (k, _) => !k.same id }

/-- What a run of the engine needs and changes. -/
abbrev Running := StateM (Engine × Disk × List String)

/-- One run of the engine. -/
def runEngine (now : Clock) (registry : Option Registry) (events : List Entry) :
    Running Run := fun (e, d, warnings) =>
  let (result, e, d, more) := e.run now events registry d
  (result, e, d, warnings ++ more)

/-- The analytics of a session with a given id, and the memo that it then has. -/
def analyse (r : Recorder) (now : Clock) (id : Value) (s : Session) (token : Option Value) :
    Running (Run × Memo Nat Run) :=
  (r.memoOf id).compute (runEngine now r.registry (entries s)) s.sequence token

end Recorder

end TypingTrace
