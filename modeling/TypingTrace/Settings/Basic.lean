import TypingTrace.Settings.Tree
import TypingTrace.Text.Lines

/-!
# Settings

The settings of an analysis: thresholds of the metrics, the behaviour of the engine, and the limits
of ingestion and of background work. A setting is named by a path whose parts are divided by
points. Nothing restricts what may be set; whoever reads a setting decides what to make of it.
-/

namespace TypingTrace

open Text

structure Settings where
  tree : Fields

namespace Settings

/-- The settings before any file or variable is looked at. -/
def defaults : Settings := ⟨[
  ("version", .text "1.0.0"),
  ("thresholds", .object [
    ("pause_ms", .int 2000),
    ("burst_ms", .int 300),
    ("burst_min_length", .int 5),
    ("chars_per_word", .int 5)]),
  ("engine", .object [
    ("default_value", .int 0),
    ("calculator_timeout_sec", .null),
    ("deadline_workers", .int 4),
    ("failure_log", .object [
      ("enabled", .bool false),
      ("log_path", .text "~/.typing_analytics/calculator_failures.jsonl"),
      ("batch_size", .int 10),
      ("batch_flush_interval_sec", .float 5.0)])]),
  ("ingestion", .object [("max_batch_size", .int 1000)]),
  ("recompute", .object [("max_workers", .int 1)])]⟩

/-- The parts of a setting's name. -/
def path (key : String) : List String := splitAtChar '.' key

/-- The value of a setting, or a given one if it is missing or null. -/
def get (key : String) (fallback : Value) (s : Settings) : Value :=
  (Value.atPath (path key) (.object s.tree)).orElse fallback

/-- Gives one setting a new value, and says what the settings are afterwards, also if that was
refused. -/
def set (key : String) (value : Value) (s : Settings) : Except Fault Unit × Settings :=
  match Value.put value (path key) (.object s.tree) with
  | (result, .object tree) => (result, ⟨tree⟩)
  | (result, _) => (result, s)

/-- Whether a feature is switched on. -/
def isEnabled (feature : String) (s : Settings) : Value :=
  s.get (feature ++ ".enabled") (.bool false)

/-- The settings with a list of new values, set one after the other. -/
def setAll (s : Settings) (changes : List (String × Value)) : Except Fault Settings :=
  changes.foldlM (fun s (key, value) =>
    let (result, s) := s.set key value
    result.map fun () => s) s

end Settings

/-- What the metrics take from the settings. -/
structure Thresholds where
  /-- Milliseconds above which a gap between keys is a pause. -/
  pause : Value
  /-- Milliseconds below which a gap between keys belongs to a burst. -/
  burst : Value
  /-- The number of such gaps that make a burst. -/
  burstLength : Value
  charsPerWord : Value

def Settings.thresholds (s : Settings) : Thresholds where
  pause := s.get "thresholds.pause_ms" (.int 2000)
  burst := s.get "thresholds.burst_ms" (.int 300)
  burstLength := s.get "thresholds.burst_min_length" (.int 5)
  charsPerWord := s.get "thresholds.chars_per_word" (.int 5)

end TypingTrace
