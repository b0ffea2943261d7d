import TypingTrace.Engine.Outcome
import TypingTrace.Log.Writer
import TypingTrace.Settings.Basic

/-!
# Failure logs

Failures are warned of and, if the engine has a failure log, written to it. A log that cannot take
an entry costs a warning and nothing else.
-/

namespace TypingTrace

open Time Log

inductive FailureLog where
  | absent
  /-- A log that refuses every entry. -/
  | refusing (f : Fault)
  | writing (w : Buffered)

namespace FailureLog

/-- Adds an entry to the log. -/
def append (now : Clock) (entry : Fields) (d : Disk) :
    FailureLog → Except Fault Unit × FailureLog × Disk × List String
  | absent => (.ok (), absent, d, [])
  | refusing f => (.error f, refusing f, d, [])
  | writing w =>
    let (result, w, d, warnings) := w.append now entry d
    (result, writing w, d, warnings)

/-- Warns of a failure and adds it to the log. -/
def record (now : Clock) (failure : Failure) (log : FailureLog) (d : Disk) :
    FailureLog × Disk × List String :=
  let (result, log, d, warnings) := append now failure.entry d log
  let refused := match result with
    | .ok () => []
    | .error f => ["Warning: Failed to log calculator failure: " ++ f.text]
  (log, d, failure.warning :: warnings ++ refused)

/-- Records failures one after the other. -/
def recordAll (now : Clock) : List Failure → FailureLog → Disk → FailureLog × Disk × List String
  | [], log, d => (log, d, [])
  | f :: rest, log, d =>
    let (log, d, warnings) := record now f log d
    let (log, d, more) := recordAll now rest log d
    (log, d, warnings ++ more)

/-- Writes what the log keeps. -/
def flush (now : Clock) (d : Disk) :
    FailureLog → Except Fault Unit × FailureLog × Disk × List String
  | writing w =>
    let (result, w, d, warnings) := w.flush now d
    (result, writing w, d, warnings)
  | log => (.ok (), log, d, [])

/-- The log that the settings ask for. -/
def ofSettings (s : Settings) (now : Clock) : Except Fault FailureLog := do
  if !(s.isEnabled "engine.failure_log").truthy then return absent
  let path := s.get "engine.failure_log.log_path" .null
  match path.asText with
  | none => throw (.notAPath path.shortTypeName)
  | some path =>
    let batchSize := s.get "engine.failure_log.batch_size" (.int 10)
    let interval := s.get "engine.failure_log.batch_flush_interval_sec" (.float 5.0)
    return writing (← Buffered.start path batchSize interval now)

end FailureLog

end TypingTrace
