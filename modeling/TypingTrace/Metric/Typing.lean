import TypingTrace.Metric.Editing
import TypingTrace.Metric.Registry

/-!
# The typing metrics

Twenty-four metrics of typing behaviour, in the order in which they are reported. Each takes its
thresholds from the settings and looks at nothing but the observations it is given.
-/

namespace TypingTrace

/-! ## Speed -/

/-- The rate per minute of a count of character keys, over the time from the first to the last. -/
def keyRate (events : List Observation) (count : Nat → Except Fault Number) :
    Except Fault Number := do
  let keys := characterKeys events
  if keys.length < 2 then return 0
  let count ← count keys.length
  perMinute count (.float (← spanMilliseconds keys))

def wordsPerMinute (t : Thresholds) (events : List Observation) : Except Fault Number :=
  keyRate events fun n => Value.countOver n t.charsPerWord

def charactersPerMinute (events : List Observation) : Except Fault Number :=
  keyRate events fun n => .ok (.ofCount n)

def burstSpeed (t : Thresholds) (events : List Observation) : Except Fault Number :=
  return (← detectBursts t events).speed

/-! ## Timing -/

def averageInterval (events : List Observation) : Except Fault Number := do
  let keys := keyPresses events
  if keys.length < 2 then return 0
  return .float (IntervalStatistics.of (← intervals keys)).average

def pauseCount (t : Thresholds) (events : List Observation) : Except Fault Number :=
  return .int (← detectPauses t events).count

def longestPause (t : Thresholds) (events : List Observation) : Except Fault Number :=
  return (← detectPauses t events).longest

/-! ## Behaviour -/

def burstTotal (t : Thresholds) (events : List Observation) : Except Fault Number :=
  return .int (← detectBursts t events).count

/-- How many events satisfy a test. -/
def countOf (test : Observation → Bool) (events : List Observation) : Nat :=
  (events.filter test).length

def focusChanges (events : List Observation) : Nat :=
  countOf (fun o => o.isKind .focus || o.isKind .blur) events

def formattingActions (events : List Observation) : Nat :=
  countOf (fun o => o.isAmong EventKind.isFormatting || o.isAmong EventKind.isStructural) events

def findReplaceActions (events : List Observation) : Nat :=
  countOf (Observation.isAmong EventKind.isFindReplace) events

/-! ## Session -/

def sessionDuration (events : List Observation) : Except Fault Number :=
  return .float (← spanMilliseconds events)

/-- The number of words, estimated from the number of characters. -/
def wordCount (t : Thresholds) (events : List Observation) : Except Fault Number := do
  return .int (← (← Value.countOver (lastTextLength events) t.charsPerWord).roundHalfUp)

/-- Characters typed less deletions, per minute of the session. -/
def textGrowthRate (events : List Observation) : Except Fault Number := do
  let net : Int := (characterKeys events).length - deletionCount events
  perMinute (.ofCount net) (← sessionDuration events)

def keystrokes (events : List Observation) : Nat := (keyPresses events).length

/-! ## The table -/

/-- A metric that cannot fail and counts. -/
def counting (f : List Observation → Nat) : Calculator :=
  .ofNumber fun events => .ok (.int (f events))

private def metric (id label category description unit : String) (calculator : Calculator) :
    Definition where
  id := .text id
  calculator := calculator
  label := .text label
  category := .text category
  description := .text description
  unit := .text unit

/-- The typing metrics under given thresholds. -/
def typingMetrics (t : Thresholds) : List Definition := [
  metric "wpm" "Words Per Minute" "speed"
    "Average typing speed calculated as (characters / 5) / minutes" "WPM"
    (.ofNumber (wordsPerMinute t)),
  metric "cpm" "Characters Per Minute" "speed" "Raw character input rate per minute" "CPM"
    (.ofNumber charactersPerMinute),
  metric "burstSpeed" "Burst Speed" "speed" "Peak typing speed during rapid typing sequences" "WPM"
    (.ofNumber (burstSpeed t)),
  metric "avgTimeBetweenKeys" "Avg Time Between Keys" "timing"
    "Average interval between consecutive keystrokes" "ms" (.ofNumber averageInterval),
  metric "pauseCount" "Pause Count" "timing" "Number of pauses longer than 2 seconds" ""
    (.ofNumber (pauseCount t)),
  metric "longestPause" "Longest Pause" "timing" "Duration of the longest pause in typing"
    "duration" (.ofNumber (longestPause t)),
  metric "activeTypingTime" "Active Typing Time" "timing"
    "Total time actively typing (excluding pauses)" "duration" (.ofNumber (activeTypingTime t)),
  metric "burstCount" "Burst Count" "behavior" "Number of rapid typing sequences detected" ""
    (.ofNumber (burstTotal t)),
  metric "focusChangeCount" "Focus Changes" "behavior"
    "Number of times focus entered or left the field" "" (counting focusChanges),
  metric "typingConsistency" "Typing Consistency" "behavior"
    "Consistency score based on keystroke timing variance (higher is better)" "score"
    (.ofNumber (typingConsistency t)),
  metric "deletionCount" "Deletion Count" "quality" "Total number of backspace/delete operations" ""
    (counting deletionCount),
  metric "deletionRate" "Deletion Rate" "quality" "Ratio of deletions to characters typed" "ratio"
    (.ofNumber fun events => .ok (deletionRate events)),
  metric "errorCorrectionSequences" "Error Correction Sequences" "quality"
    "Number of consecutive deletion sequences (backspacing)" "" (counting correctionCount),
  metric "pasteCount" "Paste Count" "behavior" "Number of paste operations" ""
    (counting fun events => (clipboard events).pastes),
  metric "copyCount" "Copy Count" "behavior" "Number of copy operations" ""
    (counting fun events => (clipboard events).copies),
  metric "cutCount" "Cut Count" "behavior" "Number of cut operations" ""
    (counting fun events => (clipboard events).cuts),
  metric "pasteRatio" "Paste Ratio" "quality"
    "Percentage of content that came from paste operations" "%"
    (.ofNumber fun events => .ok (clipboard events).pasteRatio),
  metric "sessionDuration" "Session Duration" "session" "Total time from first to last event"
    "duration" (.ofNumber sessionDuration),
  metric "characterCount" "Character Count" "session" "Total characters in the current text" ""
    (counting lastTextLength),
  metric "wordCount" "Word Count" "session" "Estimated word count (characters / 5)" ""
    (.ofNumber (wordCount t)),
  metric "textGrowthRate" "Text Growth Rate" "session"
    "Net characters per minute (typing minus deletions)" "chars/min" (.ofNumber textGrowthRate),
  metric "totalKeystrokes" "Total Keystrokes" "session" "Number of keydown events" ""
    (counting keystrokes),
  metric "formattingActionCount" "Formatting Actions" "behavior"
    "Formatting, heading, alignment and list operations" "" (counting formattingActions),
  metric "findReplaceCount" "Find/Replace Actions" "behavior" "Find and replace operations" ""
    (counting findReplaceActions)]

/-- Each of the metrics is a number computed from observations. -/
theorem exists_ofNumber (t : Thresholds) :
    ∀ d ∈ typingMetrics t, ∃ f, d.calculator = Calculator.ofNumber f := by
  simp only [typingMetrics, metric, counting, List.forall_mem_cons, List.not_mem_nil,
    false_implies, implies_true, and_true]
  and_intros
  all_goals exact ⟨_, rfl⟩

/-- The metrics that are shown first. -/
def shownFirst : List String := [
  "wpm", "avgTimeBetweenKeys", "pauseCount", "deletionCount", "pasteCount", "sessionDuration",
  "characterCount", "burstCount"]

/-- The frozen registry of the typing metrics. -/
def typingRegistry (t : Thresholds) : Registry := ⟨typingMetrics t, true⟩

end TypingTrace
