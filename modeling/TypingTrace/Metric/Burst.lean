import TypingTrace.Metric.Interval
import TypingTrace.Metric.Statistics
import TypingTrace.Settings.Basic

/-!
# Bursts

A burst is a run of short intervals between character keys that is long enough. `burstCount` goes
through the intervals once and counts a run when a long interval, or the end, closes it. The speed
of bursts counts every short interval, whether or not its run was long enough.
-/

namespace TypingTrace

/-- The keys that produced a character. -/
def characterKeys (events : List Observation) : List Observation :=
  events.filter Observation.isCharacter

/-- One, if a run that ends here is long enough. -/
def closedRun (least : Int) (current : Nat) : Nat := if least ≤ current then 1 else 0

/-- The number of runs of short intervals that are long enough; `current` is the length of the run
that is open at the start. -/
def burstCount (least : Int) (current : Nat) : List Bool → Nat
  | [] => closedRun least current
  | true :: rest => burstCount least (current + 1) rest
  | false :: rest => closedRun least current + burstCount least 0 rest

structure Bursts where
  count : Nat
  speed : Number

/-- Whether an interval is short. -/
def isShort (t : Thresholds) (interval : Float) : Except Fault Bool :=
  (Value.float interval).compare .lt t.burst

/-- The bursts among the character keys, and words per minute over all short intervals. Fewer keys
than a burst has intervals are not looked at. -/
def detectBursts (t : Thresholds) (events : List Observation) : Except Fault Bursts := do
  let keys := characterKeys events
  let least ← t.burstLength.toInt
  if (keys.length : Int) < least then return ⟨0, 0⟩
  let intervals ← intervals keys
  let short ← intervals.mapM (isShort t)
  let within := ((intervals.zip short).filter (·.2)).map (·.1)
  let words ← Value.countOver within.length t.charsPerWord
  let speed ← perMinute words (.float (within.foldl (· + ·) 0.0))
  return ⟨burstCount least 0 short, speed⟩

end TypingTrace
