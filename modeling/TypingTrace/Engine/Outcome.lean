import TypingTrace.Metric.Registry
import TypingTrace.Number.Arithmetic

/-!
# Outcomes of calculators

What a calculator returns is a value of its metric only if it is a finite number; a scalar counts as
the number it holds, and a truth value is no number. Anything else, and every fault that a
calculator raises, is a failure of that metric.
-/

namespace TypingTrace

open Time

/-- The finite number that a returned value stands for. Integers and fractions are finite if they
are not beyond the range of doubles. -/
def finiteNumber (returned : Value) : Except Fault Number :=
  match returned.unwrap with
  | .int n => (Number.toFloat (.int n)).map fun _ => .int n
  | .fraction q => (Number.toFloat (.fraction q)).map fun _ => .fraction q
  | .float x => if (Number.float x).isFinite then .ok (.float x) else .error (.nonFinite (.float x))
  | v => .error (.nonNumeric v)

/-- A metric that has no value, and why. -/
structure Failure where
  metric : Value
  kind : String
  message : String
  time : Stamp

namespace Failure

def ofFault (metric : Value) (f : Fault) (now : Stamp) : Failure :=
  ⟨metric, f.kind, f.report, now⟩

def toFields (f : Failure) : Fields := [
  ("metric_id", f.metric), ("error_type", .text f.kind), ("message", .text f.message),
  ("timestamp", .text f.time.iso)]

/-- The entry of a failure in a log. -/
def entry (f : Failure) : Fields := ("event_type", .text "calculator_failure") :: f.toFields

def warning (f : Failure) : String :=
  "Warning: Error calculating metric " ++ f.metric.inserted ++ ": " ++ f.kind ++ ": " ++ f.message

end Failure

end TypingTrace
