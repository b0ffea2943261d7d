import TypingTrace.Event.Observation

/-!
# Metrics

**Calculator.** A function from a sequence of events to a value of any type, which may fail. It is
given the events themselves; one made by `Calculator.ofNumber` looks at no more of them than their
observations. One that is `held` answers only after every deadline.

**Definition.** A calculator with an identity and what is needed to show its values. A definition
is sound (`Definition.check`) if its id is not empty, its calculator can be called, and its
category is one of five.
-/

namespace TypingTrace

structure Calculator where
  answer : List Entry → Except Fault Value
  held : Bool := false

namespace Calculator

/-- A calculator of a number from observations, which always finishes at once. -/
def ofNumber (f : List Observation → Except Fault Number) : Calculator where
  answer events := (f (events.map Entry.observe)).map Value.ofNumber

/-- A calculator that tries to append to the events. They are handed over in a tuple, which has no
operation that changes it. -/
def appending : Calculator := ⟨fun _ => .error (.noAttribute "tuple" "append"), false⟩

/-- The calculator when nothing holds it up. -/
def release (c : Calculator) : Calculator := { c with held := false }

end Calculator

/-- The names of the categories of metrics. -/
def categoryNames : List String := ["speed", "timing", "behavior", "quality", "session"]

structure Definition where
  id : Value
  calculator : Calculator
  label : Value := .text ""
  category : Value := .text "session"
  description : Value := .text ""
  unit : Value := .text ""
  /-- The value for an empty sequence of events. -/
  emptyValue : Value := .int 0

/-- Whether a value is the name of a category. -/
def isCategory (v : Value) : Bool := categoryNames.any fun name => v.equals (.text name)

namespace Definition

/-- The definition with a calculator that may not be one at all. -/
def check (d : Definition) (callable : Bool) : Except Fault Definition :=
  if !d.id.truthy then .error .emptyMetricId
  else if !callable then .error (.notCallable d.id)
  else if !isCategory d.category then .error (.unknownCategory d.category d.id)
  else .ok d

/-- The definition with one of its optional fields set by name. What is given apart from them cannot
be set again. -/
def setField (d : Definition) (name : String) (v : Value) : Except Fault Definition :=
  match name with
  | "label" => .ok { d with label := v }
  | "category" => .ok { d with category := v }
  | "description" => .ok { d with description := v }
  | "unit" => .ok { d with unit := v }
  | "empty_value" => .ok { d with emptyValue := v }
  | "self" | "id" | "calculator" => .error (.repeatedField "MetricDefinition.__init__()" name)
  | name => .error (.unexpectedField name)

/-- A checked definition from an id, a calculator and optional fields. -/
def ofFields (id : Value) (calculator : Option Calculator) (fields : Fields) :
    Except Fault Definition := do
  let plain : Definition := { id, calculator := calculator.getD ⟨fun _ => .ok .null, false⟩ }
  let d ← fields.foldlM (fun (d : Definition) (name, v) => d.setField name v) plain
  d.check calculator.isSome

end Definition

end TypingTrace
