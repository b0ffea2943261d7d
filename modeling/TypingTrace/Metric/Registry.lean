import TypingTrace.Metric.Definition

/-!
# Registries

A registry is an ordered list of definitions with distinct ids. Registering adds one at the end; it
is refused once the registry is frozen, and for an id that is taken.
-/

namespace TypingTrace

structure Registry where
  definitions : List Definition := []
  frozen : Bool := false

namespace Registry

def empty : Registry := {}

def ids (r : Registry) : List Value := r.definitions.map (·.id)

/-- The definition with a given id. -/
def get? (id : Value) (r : Registry) : Option Definition :=
  r.definitions.find? fun d => d.id.same id

def contains (id : Value) (r : Registry) : Bool := (r.get? id).isSome

/-- The definition with a given id; asking with a value that can be no id is a fault. -/
def lookUp (id : Value) (r : Registry) : Except Fault (Option Definition) :=
  if id.isHashable then .ok (r.get? id) else .error (.unhashable id.shortTypeName)

def byCategory (category : Value) (r : Registry) : List Definition :=
  r.definitions.filter fun d => d.category.equals category

/-- The registry with a definition added. -/
def register (d : Definition) (r : Registry) : Except Fault Registry :=
  if r.frozen then .error (.registryFrozen d.id)
  else if !d.id.isHashable then .error (.unhashable d.id.shortTypeName)
  else if r.contains d.id then .error (.duplicateMetric d.id)
  else .ok { r with definitions := r.definitions ++ [d] }

/-- The names that optional fields cannot have when a definition is registered by its parts. -/
def takenNames : List String := ["self", "definition", "calculator"]

/-- A definition from its parts, and the registry with it added. -/
def registerParts (id : Value) (calculator : Option Calculator) (fields : Fields) (r : Registry) :
    Except Fault (Definition × Registry) := do
  match fields.names.find? takenNames.contains with
  | some name => throw (.repeatedField "MetricRegistry.register()" name)
  | none =>
    let d ← Definition.ofFields id calculator fields
    return (d, ← r.register d)

/-- A registry of given definitions. -/
def ofList (definitions : List Definition) : Except Fault Registry :=
  definitions.foldlM (fun r d => r.register d) empty

/-- The registry when nothing holds its calculators up. -/
def release (r : Registry) : Registry :=
  { r with definitions := r.definitions.map fun d => { d with calculator := d.calculator.release } }

def freeze (r : Registry) : Registry := { r with frozen := true }

end Registry

end TypingTrace
