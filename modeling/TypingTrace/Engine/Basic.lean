import TypingTrace.Engine.FailureLog
import TypingTrace.Engine.Pool
import TypingTrace.Metric.Typing

/-!
# The engine

An engine computes every metric of a registry over one sequence of events. A metric whose
calculator fails gets the default value and a failure record; the other metrics do not notice.
A run has two parts: `compute` calls the calculators in order and only changes the pool of workers,
and then the failures are recorded in the failure log.
-/

namespace TypingTrace

open Time Log

structure Engine where
  registry : Registry
  /-- The value of a metric that fails. -/
  defaultValue : Value
  /-- Seconds that a calculator may take; no deadline if it counts as false. -/
  timeout : Value
  /-- The number of workers of a pool. -/
  workers : Value
  log : FailureLog
  pool : Option Pool := none

/-- The values of all metrics in the order of the registry, and the failures among them. -/
structure Run where
  values : List (Value × Value)
  failures : List Failure

namespace Run

def failedIds (r : Run) : List Value := r.failures.map (·.metric)

/-- Whether two runs give the same metrics the same values. -/
def agrees (r s : Run) : Bool :=
  r.values.length == s.values.length &&
    r.values.all fun (id, v) => s.values.any fun (id', v') => id.same id' && v.same v'

end Run

namespace Engine

/-- The engine that the settings ask for. A default value, a deadline and a failure log that are
given take precedence. -/
def ofSettings (s : Settings) (registry : Option Registry) (defaultValue timeout : Value)
    (log : Option FailureLog) (now : Clock) : Except Fault Engine := do
  let log ← match log with
    | some log => pure log
    | none => FailureLog.ofSettings s now
  return {
    registry := registry.getD (typingRegistry s.thresholds)
    defaultValue := defaultValue.orElse (s.get "engine.default_value" (.int 0))
    timeout := timeout.orElse (s.get "engine.calculator_timeout_sec" .null)
    workers := s.get "engine.deadline_workers" (.int 4)
    log }

/-- Calls a calculator, under the deadline if there is one. The pool is started when it is first
needed. -/
def call (e : Engine) (c : Calculator) (events : List Entry) (pool : Option Pool) :
    Except Fault Value × Option Pool :=
  if e.timeout.truthy then
    match pool.elim (Pool.start e.workers) .ok with
    | .error f => (.error f, pool)
    | .ok p =>
      let (result, p) := p.call e.timeout c events
      (result, some p)
  else (c.answer events, pool)

/-- The outcome of one metric: its value, or the fault of having none. -/
def invoke (e : Engine) (d : Definition) (events : List Entry) (pool : Option Pool) :
    Except Fault Number × Option Pool :=
  let (result, pool) := e.call d.calculator events pool
  (result.bind finiteNumber, pool)

/-- The outcomes of metrics called one after the other. -/
def outcomes (e : Engine) (events : List Entry) :
    List Definition → Option Pool → List (Definition × Except Fault Number) × Option Pool
  | [], pool => ([], pool)
  | d :: rest, pool =>
    let (outcome, pool) := e.invoke d events pool
    let (more, pool) := outcomes e events rest pool
    ((d, outcome) :: more, pool)

/-- The value of an outcome. -/
def valueOf (e : Engine) : Except Fault Number → Value
  | .ok n => .ofNumber n
  | .error _ => e.defaultValue

/-- The failure of an outcome, if it is one. -/
def failureOf (now : Clock) (d : Definition) : Except Fault Number → Option Failure
  | .ok _ => none
  | .error f => some (.ofFault d.id f now.stamp)

/-- The values and failures of the metrics of a registry. No calculator is called for an empty
sequence. -/
def compute (e : Engine) (now : Clock) (events : List Entry) (r : Registry) :
    Run × Option Pool :=
  if events.isEmpty then (⟨r.definitions.map fun d => (d.id, d.emptyValue), []⟩, e.pool)
  else
    let (results, pool) := e.outcomes events r.definitions e.pool
    (⟨results.map fun (d, outcome) => (d.id, e.valueOf outcome),
      results.filterMap fun (d, outcome) => failureOf now d outcome⟩, pool)

/-- Runs the metrics of the engine's registry, or of another one given for this run. -/
def run (e : Engine) (now : Clock) (events : List Entry) (override : Option Registry)
    (d : Disk) : Run × Engine × Disk × List String :=
  let (result, pool) := e.compute now events (override.getD e.registry)
  let (log, d, warnings) := FailureLog.recordAll now result.failures e.log d
  (result, { e with pool, log }, d, warnings)

/-- Writes what the failure log keeps. -/
def flush (e : Engine) (now : Clock) (d : Disk) :
    Except Fault Unit × Engine × Disk × List String :=
  let (result, log, d, warnings) := e.log.flush now d
  (result, { e with log }, d, warnings)

/-- Writes what the failure log keeps and, unless that is refused, gives up the pool of workers. -/
def close (e : Engine) (now : Clock) (d : Disk) :
    Except Fault Unit × Engine × Disk × List String :=
  match e.flush now d with
  | (.ok (), e, d, warnings) => (.ok (), { e with pool := none }, d, warnings)
  | refused => refused

/-- The engine when nothing holds its calculators up any more, those that keep workers included. -/
def release (e : Engine) : Engine :=
  { e with registry := e.registry.release, pool := e.pool.map fun p => p.release p.blocked }

end Engine

end TypingTrace
