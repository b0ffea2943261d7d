import TypingTrace.Engine.Pool
import TypingTrace.Settings.Basic

/-!
# Runs in the background

Every trigger gets a generation number, and its run waits for a worker. Workers take runs in the
order of their triggers, and runs may finish in any order. The result of a run is published if no
trigger came after its own before it finished; otherwise it is discarded.

The operations are the events that can happen: `trigger`, `start` of the next run in the queue,
`finish` of one that a worker has, and `close`. `settle` lets everything happen that can.
-/

namespace TypingTrace

/-- A run that a trigger asked for. -/
structure Job (σ : Type) where
  generation : Nat
  events : σ

structure Background (σ ρ : Type) where
  /-- The number of workers. -/
  workers : Value
  /-- The number of triggers so far. -/
  generation : Nat := 0
  /-- The generation of the published result, zero if there is none. -/
  published : Nat := 0
  latest : Option ρ := none
  discarded : Nat := 0
  queue : List (Job σ) := []
  running : List (Job σ) := []
  closed : Bool := false

namespace Background

variable {σ ρ : Type}

/-- A background with a positive number of workers. -/
def ofWorkers (workers : Value) : Except Fault (Background σ ρ) := do
  let p ← Pool.start workers
  return { workers := p.workers }

/-- A background with as many workers as are given, or as the settings ask for. -/
def ofSettings (s : Settings) (workers : Value) : Except Fault (Background σ ρ) :=
  ofWorkers (if workers.truthy then workers else s.get "recompute.max_workers" (.int 1))

/-- Asks for a run. The trigger counts even if it is refused because the background is closed. -/
def trigger (events : σ) (b : Background σ ρ) : Except Fault Nat × Background σ ρ :=
  let b := { b with generation := b.generation + 1 }
  if b.closed then (.error .schedulerClosed, b)
  else (.ok b.generation, { b with queue := b.queue ++ [⟨b.generation, events⟩] })

/-- Whether a worker is free. -/
def hasWorker (b : Background σ ρ) : Bool := (Pool.mk b.workers b.running.length).hasWorker

/-- A free worker takes the next run. -/
def start (b : Background σ ρ) : Background σ ρ :=
  match b.queue with
  | job :: rest =>
    if b.hasWorker then { b with queue := rest, running := b.running ++ [job] } else b
  | [] => b

/-- The result of a finished run, published or discarded. -/
def publish (generation : Nat) (result : ρ) (b : Background σ ρ) : Background σ ρ :=
  if generation = b.generation then { b with latest := some result, published := generation }
  else { b with discarded := b.discarded + 1 }

/-- A run that a worker has finishes. -/
def finish (job : Job σ) (result : ρ) (b : Background σ ρ) : Background σ ρ :=
  publish job.generation result
    { b with running := b.running.filter fun j => j.generation != job.generation }

def close (b : Background σ ρ) : Background σ ρ := { b with closed := true }

/-- Whether the run of a generation waits for a worker or has one. -/
def isPending (generation : Nat) (b : Background σ ρ) : Bool :=
  (b.queue ++ b.running).any fun job => job.generation == generation

/-- What a caller is given that waits for the end of a run: nothing before it, and then what is
published. A caller that has no run to wait for does not wait. -/
def waited (awaited : Option Nat) (b : Background σ ρ) : Option (Option ρ) :=
  if awaited.any fun generation => b.isPending generation then none else some b.latest

/-- Lets every run start and finish that can, in the order of their triggers; `held` tells which
runs do not finish yet. -/
def settle {f : Type → Type} [Monad f] (held : σ → Bool) (run : σ → f ρ) :
    Nat → Background σ ρ → f (Background σ ρ)
  | 0, b => pure b
  | fuel + 1, b =>
    match b.running.find? fun j => !held j.events with
    | some job => do
      let result ← run job.events
      settle held run fuel (b.finish job result)
    | none =>
      if b.queue.isEmpty || !b.hasWorker then pure b else settle held run fuel b.start

/-- As many events as can happen until everything is settled. -/
def pending (b : Background σ ρ) : Nat := 2 * b.queue.length + b.running.length + 1

end Background

end TypingTrace
