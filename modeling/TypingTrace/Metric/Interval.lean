import TypingTrace.Event.Observation
import TypingTrace.Number.Arithmetic

/-!
# Intervals between events

The time between two events is an exact number of microseconds. It is shown in milliseconds, as the
double that results from rounding first the seconds and then the milliseconds (`milliseconds`).

Only two clock readings have a difference, and only if both or neither of their offsets are known.
Any other two values are a fault: that of their subtraction, or else that a number is no length of
time.
-/

namespace TypingTrace

open Time

/-- Milliseconds as a double, from microseconds. -/
def milliseconds (micros : Int) : Float :=
  nearestOrInfinite (roundBinary ((micros : Rat) / 1000000) * 1000)

/-! ## Values that are no times -/

/-- The type of the difference of two plain numbers. -/
def plainDifferenceType (a b : Number) : Except Fault String :=
  match a, b with
  | .int _, .int _ => .ok "int"
  | a, b => match a.rational?, b.rational? with
    | some _, some _ => .ok "Fraction"
    | _, _ => do
      discard a.toFloat
      discard b.toFloat
      return "float"

/-- The type of the difference of two numbers. An exact fraction less a scalar of double precision
is one, too. -/
def differenceType (a b : Number) : Except Fault String :=
  match Number.joint a b, a, b with
  | none, .fraction _, .scalar (.float64 _) => do
    discard a.toFloat
    return "numpy.float64"
  | none, _, _ => plainDifferenceType a.plain b.plain
  | some k, _, _ => do
    if k.isInteger then
      discard (a.inKind k)
      discard (b.inKind k)
    else
      discard a.toFloat
      discard b.toFloat
    return "numpy." ++ k.name

/-- Whether two values are truth values, at least one of them a scalar. -/
def areTruths : Value → Value → Bool
  | .scalar (.bool _), .scalar (.bool _) => true
  | .scalar (.bool _), .bool _ => true
  | .bool _, .scalar (.bool _) => true
  | _, _ => false

/-- The type of the elements of an array of one value; that of texts has their length. -/
def elementType (v : Value) : String :=
  let name := match v.asText with
    | some s => "<U" ++ Text.natText (max 1 s.length)
    | none => v.shortTypeName
  "dtype(" ++ Text.quoted name ++ ")"

/-- The fault of taking the time between two values that are no times. -/
def differenceFault (a b : Value) : Fault :=
  if areTruths a b then .truthSubtraction
  else match a.number?, b.number? with
    | some x, some y => match differenceType x y with
      | .ok type => .noAttribute type "total_seconds"
      | .error f => f
    | _, _ =>
      Value.arithmeticFault "-" (.unmatchedInputs "subtract" (elementType a) (elementType b)) a b

/-! ## Differences of times -/

/-- Microseconds from one time to a later one. -/
def microsBetween (earlier later : Value) : Except Fault Int :=
  match later, earlier with
  | .moment b, .moment a =>
    match b.offset, a.offset with
    | some y, some x => .ok ((b.face - y) - (a.face - x))
    | none, none => .ok (b.face - a.face)
    | _, _ => .error (.mixedOffsets "subtract")
  | b, a => .error (differenceFault b a)

namespace Observation

/-- The time of an observation; reading one that is missing is a fault. -/
def readTime (o : Observation) : Except Fault Value :=
  match o.time with
  | some t => .ok t
  | none => .error (.noAttribute looseType "timestamp")

/-- Microseconds from one observation to a later one. -/
def microsTo (earlier later : Observation) : Except Fault Int := do
  let b ← later.readTime
  let a ← earlier.readTime
  microsBetween a b

end Observation

/-- Microseconds between neighbours. -/
def gaps : List Observation → Except Fault (List Int)
  | a :: b :: rest => do
    let gap ← a.microsTo b
    return gap :: (← gaps (b :: rest))
  | _ => .ok []

/-- Microseconds from the first to the last observation; zero if there are not two. -/
def span (events : List Observation) : Except Fault Int :=
  match events with
  | first :: second :: rest => first.microsTo ((second :: rest).getLast (by simp))
  | _ => .ok 0

/-- Milliseconds between neighbours. -/
def intervals (events : List Observation) : Except Fault (List Float) :=
  return (← gaps events).map milliseconds

/-- Milliseconds from the first to the last observation. -/
def spanMilliseconds (events : List Observation) : Except Fault Float :=
  return milliseconds (← span events)

end TypingTrace
