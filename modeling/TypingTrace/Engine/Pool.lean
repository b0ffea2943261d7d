import TypingTrace.Engine.Outcome
import TypingTrace.Value.Order

/-!
# Workers with a deadline

Under a deadline every calculator runs on a worker of a pool. A calculator that exceeds the
deadline keeps its worker, so that each one leaves fewer for those after it; when no worker is left
a calculator is never started and exceeds the deadline as well. A calculator that finishes in time
gives its answer, except that raising the fault of an exceeded deadline counts as exceeding it.

The clock that the caller waits by counts nanoseconds in 64 bits, and there is no waiting for a
deadline beyond these (`Pool.waits`). Where the caller cannot wait nothing is taken back: a
calculator that does not answer by itself keeps a worker, or the next one that is free. The caller
is taken to start waiting before there is an answer.
-/

namespace TypingTrace

structure Pool where
  /-- The number of workers. -/
  workers : Value
  /-- How many of them a calculator keeps. -/
  blocked : Nat

namespace Pool

/-- A new pool; its number of workers has to be positive. -/
def start (workers : Value) : Except Fault Pool := do
  if ← workers.compare .le (.int 0) then throw .workersNotPositive
  return ⟨workers, 0⟩

/-- Whether a worker is free. -/
def hasWorker (p : Pool) : Bool :=
  match p.workers.number? with
  | some n => (Number.int p.blocked).lt n
  | none => false

/-- The number of nanoseconds that a deadline may not reach. -/
def clockLimit : Nat := Nat.pow 2 63

/-- Whether a number of seconds, as a double, is less than the clock can count. -/
def isCountable (x : Float) : Bool :=
  match exactOf x with
  | some q => decide (roundBinary (q * 1000000000) < clockLimit)
  | none => false

/-- Checks that a positive number of seconds can be waited for. -/
def checkSeconds : Value → Except Fault Unit
  | .int n | .scalar (.int64 n) | .scalar (.uint8 n) =>
    if n * 1000000000 < clockLimit then .ok () else .error .tooManySeconds
  | .float x | .scalar (.float64 x) =>
    if isCountable x then .ok () else .error .secondsOutOfRange
  | .bool _ => .ok ()
  | v => .error (.noIndex v.typeName)

/-- Whether there is any time to wait for a deadline. A number that is not positive leaves none. -/
def waits (timeout : Value) : Except Fault Bool := do
  let positive ← timeout.compare .gt (.int 0)
  if positive then checkSeconds timeout
  return positive

/-- The pool when one calculator more keeps a worker. -/
def keep (p : Pool) : Pool := { p with blocked := p.blocked + 1 }

/-- Calls a calculator under a deadline. -/
def call (timeout : Value) (c : Calculator) (events : List Entry) (p : Pool) :
    Except Fault Value × Pool :=
  match waits timeout with
  | .error f => (.error f, if c.held then p.keep else p)
  | .ok false => (.error (.deadlineExceeded timeout), if c.held && p.hasWorker then p.keep else p)
  | .ok true =>
    if !p.hasWorker then (.error (.deadlineExceeded timeout), p)
    else if c.held then (.error (.deadlineExceeded timeout), p.keep)
    else match c.answer events with
      | .ok v => (.ok v, p)
      | .error f => (.error (if f.isTimeout then .deadlineExceeded timeout else f), p)

/-- Some of the calculators that keep workers answer at last and leave them. -/
def release (count : Nat) (p : Pool) : Pool := { p with blocked := p.blocked - count }

end Pool

end TypingTrace
