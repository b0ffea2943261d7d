import TypingTrace.Session.Recorder

/-!
# Requests

A request to a recorder is a sequence of steps that read the recorder, change it, or write warnings.
Any step may refuse the request, and what was done before that step stays done: that a refused
request leaves everything as it was is a matter of the order of its steps.

A batch is refused, in this order, if an event in it is malformed, if it is empty or too large, if
its session is not known, or if that session belongs to another project than the one named.

`Call` lists the requests, and `Service.after` is a recorder at work after any number of them.
-/

namespace TypingTrace

open Time Log

/-- A recorder at work, with the disk that its engine logs to and the warnings written so far. -/
structure Service where
  recorder : Recorder
  disk : Disk := {}
  warnings : List String := []

abbrev Request := ExceptT Fault (StateM Service)

/-- The answer to a request, and the service after it. -/
def Service.respond {α : Type} (v : Service) (x : Request α) : Except Fault α × Service := x v

namespace Request

/-! ## Steps -/

/-- What the recorder answers as it stands. -/
def ask {α : Type} (f : Recorder → Except Fault α) : Request α := fun v => (f v.recorder, v)

def change (f : Recorder → Recorder) : Request Unit := fun v =>
  (.ok (), { v with recorder := f v.recorder })

def warn (lines : List String) : Request Unit := fun v =>
  (.ok (), { v with warnings := v.warnings ++ lines })

/-- Gives out identities, and tells how many were given out before. -/
def draw (count : Nat) : Request Nat := fun v =>
  (.ok v.recorder.drawn,
    { v with recorder := { v.recorder with drawn := v.recorder.drawn + count } })

/-- Lets the engine work. -/
def engage {α : Type} (x : Recorder.Running α) : Request α := fun v =>
  let (a, engine, disk, warnings) := x (v.recorder.engine, v.disk, v.warnings)
  (.ok a, ⟨{ v.recorder with engine }, disk, warnings⟩)

/-! ## Sessions -/

/-- Starts a session. -/
def start (now : Stamp) (project owner address agent metadata : Value) : Request Session := do
  if !owner.truthy then throw .userRequired
  let metadata ← ask fun _ => Recorder.metadataOf metadata
  let drawn ← draw 1
  let s := Session.opened now (drawn + 1) project owner address agent metadata
  change fun r => { r with sessions := r.sessions ++ [s] }
  return s

/-- Submits a session. -/
def submit (now : Stamp) (id project : Value) : Request Session := do
  let s ← ask fun r => r.checkedSession id project
  let s ← ask fun _ => s.submit now
  change fun r => r.replace s
  return s

/-! ## Batches -/

/-- Appends a batch to a session of the recorder. -/
def append (s : Session) (now : Stamp) (batch : List Interaction) : Request (List StoredEvent) := do
  let drawn ← draw batch.length
  let (accepted, s) := s.append now drawn batch
  change fun r => r.replace s
  return accepted

/-- Adds a batch to its session. -/
def ingest (now : Stamp) (batch : Batch) (project : Value) : Request (List StoredEvent) := do
  ask fun r => r.checkSize batch.events.length
  let s ← ask fun r => r.checkedSession batch.session project
  let accepted ← append s now batch.events
  warn (Recorder.lateWarning accepted.length s)
  return accepted

/-- Adds a batch that is still in its wire form. -/
def ingestWire (now : Stamp) (batch project : Value) : Request (List StoredEvent) :=
  match batch with
  | .object fields => do
    let batch ← ask fun _ => Batch.ofFields fields
    ingest now batch project
  | v => throw (.noAttribute v.typeName "events")

/-- Adds entries, some of which may be unchecked, to a session. -/
def ingestEntries (now : Stamp) (id : Value) (entries : List Entry) (project : Value) :
    Request (List StoredEvent) :=
  match Session.interactions? entries with
  | some events => ingest now ⟨id, events⟩ project
  | none => do
    ask fun r => r.checkSize entries.length
    discard (ask fun r => r.checkedSession id project)
    match Session.looseFault entries with
    | some (f, n) => do
      discard (draw n)
      throw f
    | none => return []

/-! ## Analytics -/

/-- The analytics of a session, computed anew only if its events or the token are not those of the
last time. -/
def analytics (now : Clock) (id : Value) (token : Option Value) : Request Run := do
  let s ← ask fun r => r.session id
  let x ← ask fun r => .ok (r.analyse now id s token)
  let (result, memo) ← engage x
  change fun r => r.withMemo id memo
  return result

/-- Makes the next analytics of a session compute anew, and gives the new token. -/
def reset (id : Value) : Request Nat := do
  discard (ask fun r => r.session id)
  let memo ← ask fun r => .ok (r.memoOf id).reset
  change fun r => r.withMemo id memo
  return memo.own

end Request

/-! ## Calls -/

inductive Call where
  | start (project owner address agent metadata : Value)
  | ingestWire (batch project : Value)
  | ingestEntries (id : Value) (entries : List Entry) (project : Value)
  | submit (id project : Value)
  | analytics (id : Value) (token : Option Value)
  | reset (id : Value)
  | query (f : Filter)
  | statistics (id : Value)

inductive Response where
  | session (s : Session)
  | accepted (events : List StoredEvent)
  | analytics (run : Run)
  | token (n : Nat)
  | found (events : List StoredEvent)
  | statistics (fields : Fields)

/-- The request that a call makes. -/
def Call.request (now : Clock) : Call → Request Response
  | start project owner address agent metadata => do
    return .session (← Request.start now.stamp project owner address agent metadata)
  | ingestWire batch project => return .accepted (← Request.ingestWire now.stamp batch project)
  | ingestEntries id entries project => do
    return .accepted (← Request.ingestEntries now.stamp id entries project)
  | submit id project => return .session (← Request.submit now.stamp id project)
  | analytics id token => return .analytics (← Request.analytics now id token)
  | reset id => return .token (← Request.reset id)
  | query f => return .found (← Request.ask fun r => r.query f)
  | statistics id => return .statistics (← Request.ask fun r => r.session id).statistics

namespace Service

/-- The service after one call. -/
def step (v : Service) (call : Clock × Call) : Service :=
  (v.respond (call.2.request call.1)).2

/-- The service after calls that were made one after the other, refused ones among them. -/
def after (v : Service) (calls : List (Clock × Call)) : Service := calls.foldl step v

end Service

end TypingTrace
