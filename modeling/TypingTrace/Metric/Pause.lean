import TypingTrace.Metric.Interval
import TypingTrace.Metric.Statistics
import TypingTrace.Settings.Basic

/-!
# Pauses and active time

An interval above the threshold is a pause and any other is active. Pauses are looked for between
keys and inputs, active time between keys alone.
-/

namespace TypingTrace

/-- The events of one kind. -/
def ofKind (k : EventKind) (events : List Observation) : List Observation :=
  events.filter (Observation.isKind k)

/-- The presses of keys. -/
def keyPresses (events : List Observation) : List Observation := ofKind .keydown events

/-- The presses of keys and the inputs. -/
def keysAndInputs (events : List Observation) : List Observation :=
  events.filter fun o => o.isKind .keydown || o.isKind .input

/-- Whether an interval of so many microseconds is a pause. -/
def isPause (t : Thresholds) (gap : Int) : Except Fault Bool :=
  (Value.float (milliseconds gap)).compare .gt t.pause

/-- Whether an interval of so many microseconds is active. -/
def isActive (t : Thresholds) (gap : Int) : Except Fault Bool :=
  (Value.float (milliseconds gap)).compare .le t.pause

structure Pauses where
  count : Nat
  longest : Number

/-- The longest of a list of intervals, in milliseconds. -/
def longestOf : List Int → Number
  | [] => 0
  | gap :: rest => .float (milliseconds (rest.foldl max gap))

/-- The pauses between keys and inputs. -/
def detectPauses (t : Thresholds) (events : List Observation) : Except Fault Pauses := do
  let pauses ← (← gaps (keysAndInputs events)).filterM (isPause t)
  return ⟨pauses.length, longestOf pauses⟩

/-- The active intervals between presses of keys, in microseconds. -/
def activeGaps (t : Thresholds) (events : List Observation) : Except Fault (List Int) := do
  (← gaps (keyPresses events)).filterM (isActive t)

/-- The sum of milliseconds from left to right, in doubles; an empty sum is an integer. -/
def totalMilliseconds : List Int → Number
  | [] => 0
  | gaps => .float ((gaps.map milliseconds).foldl (· + ·) 0.0)

def activeTypingTime (t : Thresholds) (events : List Observation) : Except Fault Number :=
  return totalMilliseconds (← activeGaps t events)

/-- How steady the active intervals are: 100 less their coefficient of variation, or zero. Fewer
than two active intervals say nothing. -/
def typingConsistency (t : Thresholds) (events : List Observation) : Except Fault Number := do
  if (keyPresses events).length < 3 then return 0
  let active ← activeGaps t events
  if active.length < 2 then return 0
  let score := 100.0 - variation (active.map milliseconds)
  return .float (if 0.0 < score then score else 0.0)

end TypingTrace
