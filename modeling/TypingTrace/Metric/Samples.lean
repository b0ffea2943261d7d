import TypingTrace.Metric.Statistics

/-!
# Samples from values of any type

Samples may come as any value. Lists inside lists have to be regular: all lists of one level have
one length (`Value.shape`). Their leaves are the samples, in order; null is a NaN, and a text has to
spell a number. A value that counts as false has no samples and statistics of zeros.
-/

namespace TypingTrace

/-! ## Shapes -/

namespace Value

mutual

/-- What a value holds that is no list, at any depth. -/
def leaves : Value → List Value
  | .list items => leavesOf items
  | v => [v]

def leavesOf : List Value → List Value
  | [] => []
  | v :: rest => leaves v ++ leavesOf rest

end

/-- The paths of leaves, seen from a list of given length around them. -/
def inside (length : Nat) (paths : List (List Nat)) : List (List Nat) := paths.map (length :: ·)

mutual

/-- The lengths of the lists around each leaf, from outside; an empty list is a leaf. -/
def paths : Value → List (List Nat)
  | .list [] => [[0]]
  | .list (v :: rest) => inside (rest.length + 1) (paths v ++ pathsOf rest)
  | _ => [[]]

def pathsOf : List Value → List (List Nat)
  | [] => []
  | v :: rest => paths v ++ pathsOf rest

end

/-- The start that two lists have in common. -/
def commonStart : List Nat → List Nat → List Nat
  | a :: as, b :: bs => if a = b then a :: commonStart as bs else []
  | _, _ => []

/-- The depth to which lists may be nested. -/
def depthLimit : Nat := 64

/-- The lengths of the lists of each level, or the fault of their not being the same. -/
def shape (v : Value) : Except Fault (List Nat) :=
  match v.paths with
  | [] => .ok []
  | path :: rest =>
    if (path :: rest).any fun p => depthLimit < p.length then .error (.deepSamples depthLimit)
    else if rest.all (· == path) then .ok path
    else .error (.raggedSamples (rest.foldl commonStart path))

/-- The number of things that a value holds. -/
def count (v : Value) : Except Fault Nat :=
  match v with
  | .list items => .ok items.length
  | .object fields => .ok fields.length
  | v => match v.asText with
    | some s => .ok s.length
    | none => .error (.noLength v.typeName)

/-- The double that a value stands for. -/
def sample (v : Value) : Except Fault Float :=
  match v, v.number?, v.asText with
  | .null, _, _ => .ok notANumber
  | _, some n, _ => n.toFloat
  | _, none, some s => match readFloat s with
    | some x => .ok x
    | none => .error (.notAFloat v)
  | _, none, none => .error (.noFloat v.typeName)

/-- The samples in a value. -/
def samples (v : Value) : Except Fault (List Float) := do
  discard v.shape
  v.leaves.mapM sample

end Value

/-! ## Statistics -/

/-- The statistics of the samples in a value. -/
def IntervalStatistics.ofValue (v : Value) : Except Fault IntervalStatistics := do
  if !v.truthy then return zero
  let xs ← v.samples
  if xs.isEmpty then throw .noSamples
  return { IntervalStatistics.of xs with count := ← v.count }

/-- The coefficient of variation of the samples in a value. -/
def variationOf (v : Value) : Except Fault Float := do
  if !v.truthy then return 0.0
  let xs ← v.samples
  return if xs.isEmpty then notANumber else variation xs

end TypingTrace
