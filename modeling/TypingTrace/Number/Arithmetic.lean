import TypingTrace.Number.Reading

/-!
# Arithmetic on numbers of four kinds

**Plain numbers.** A quotient of two integers is the double nearest to the exact one; with a double
on either side the arithmetic is that of doubles; exact fractions stay exact among themselves and
with integers. Every operation that has no answer is a fault.

**Scalars.** The operation is that of the machine kind in which the two numbers meet. A division by
zero gives an infinity or a NaN, and integers are divided in double precision. A product of integers
wraps around.
-/

namespace TypingTrace

namespace Number

/-- The nearest double. -/
def toFloat : Number → Except Fault Float
  | .float x => .ok x
  | .int n => match nearest n with
    | some x => .ok x
    | none => .error .integerTooLarge
  | .fraction q => match nearest q with
    | some x => .ok x
    | none => .error .quotientTooLarge
  | .scalar s => .ok (Number.scalar s).approximate

/-- The nearest number of single precision to the nearest double. -/
def toSingle (a : Number) : Except Fault Float32 := return singleOf (← a.toFloat)

/-- The exact value of an integer or a fraction. -/
def rational? : Number → Option Rat
  | .int n => some n
  | .fraction q => some q
  | _ => none

/-- The integer that a number is in a machine kind. A plain one has to be within its bounds. -/
def inKind (k : ScalarKind) : Number → Except Fault Int
  | .int n => if k.wrap n = n then .ok n else .error (.outOfBounds n k.name)
  | a => .ok ((a.place.map fun (_, q) => q.num).getD 0)

/-! ## Quotients and products -/

/-- The fault of dividing a plain number by zero. -/
def zeroDivisor (a b : Number) : Fault :=
  match a, b with
  | .int _, .int _ => .divisionByZero
  | a, b => match a.rational?, b.rational? with
    | some p, some _ => .fractionByZero p.num.sign
    | _, _ => .floatDivisionByZero

/-- The quotient of two plain numbers. -/
def dividePlain (a b : Number) : Except Fault Number := do
  match a, b with
  | .int m, .int n =>
    if n = 0 then throw .divisionByZero
    match nearest (m / n : Rat) with
    | some x => return .float x
    | none => throw .quotientTooLarge
  | a, b =>
    match a.rational?, b.rational? with
    | some p, some q =>
      if q = 0 then throw (zeroDivisor a b)
      return .fraction (p / q)
    | _, _ =>
      let x ← a.toFloat
      let y ← b.toFloat
      if b.isZero then throw (zeroDivisor a b)
      return .float (x / y)

def divide (a b : Number) : Except Fault Number :=
  match joint a b with
  | some .float32 => do return .scalar (.float32 ((← a.toSingle) / (← b.toSingle)))
  | some _ => do return .scalar (.float64 ((← a.toFloat) / (← b.toFloat)))
  | none => a.plain.dividePlain b.plain

/-- The product of two plain numbers. -/
def multiplyPlain (a b : Number) : Except Fault Number :=
  match a, b with
  | .int m, .int n => .ok (.int (m * n))
  | a, b =>
    match a.rational?, b.rational? with
    | some p, some q => .ok (.fraction (p * q))
    | _, _ => do return .float ((← a.toFloat) * (← b.toFloat))

def multiply (a b : Number) : Except Fault Number :=
  match joint a b with
  | some .float32 => do return .scalar (.float32 ((← a.toSingle) * (← b.toSingle)))
  | some .float64 => do return .scalar (.float64 ((← a.toFloat) * (← b.toFloat)))
  | some k => do return .scalar (.ofInt ((← a.inKind k) * (← b.inKind k)) k)
  | none => a.plain.multiplyPlain b.plain

/-! ## Integers -/

/-- The fault of cutting a double that is not finite to an integer. -/
def notFinite (x : Float) : Fault := if x.isNaN then .nanToInteger else .infinityToInteger

/-- A number cut to an integer towards zero. -/
def toInt : Number → Except Fault Int
  | .int n => .ok n
  | .fraction q => .ok (cut q)
  | a => match a.place with
    | some (0, q) => .ok (cut q)
    | _ => .error (notFinite a.approximate)

/-- The exact value of the nearest double, of a finite number. -/
def inDoubles (a : Number) : Except Fault Rat := do
  let x ← a.toFloat
  match exactOf x with
  | some q => .ok q
  | none => .error (notFinite x)

/-- The precision in which a number is added to. -/
def precision : Number → BinaryFormat
  | .scalar (.float32 _) => binary32
  | _ => binary64

/-- The integer nearest to a number, halves going up. The half is added in the precision of the
number, and the sum is rounded before it is cut down. -/
def roundHalfUp (a : Number) : Except Fault Int := do
  return (a.precision.round ((← a.inDoubles) + mkRat 1 2)).floor

/-! ## Counts

A count of things that are at hand is never too large for a double. -/

/-- A count as a double. -/
def ofCount (n : Int) : Number := .float (nearestOrInfinite n)

/-- The quotient of two counts. -/
def ratio (m n : Nat) : Float := nearestOrInfinite ((m : Rat) / n)

/-- A count over a number. -/
def countOver (n : Nat) (b : Number) : Except Fault Number :=
  match b with
  | .scalar (.float32 y) => .ok (.scalar (.float32 (singleOf (nearestOrInfinite n) / y)))
  | .scalar s => .ok (.scalar (.float64 (nearestOrInfinite n / (Number.scalar s).approximate)))
  | b =>
    if b.isZero then .error (zeroDivisor (.int n) b)
    else match b with
      | .fraction q => .ok (.fraction (n / q))
      | .int d => .ok (.float (nearestOrInfinite ((n : Rat) / d)))
      | b => .ok (.float (nearestOrInfinite n / b.approximate))

end Number

namespace Value

def isScalar : Value → Bool
  | .scalar _ => true
  | _ => false

/-- The fault of arithmetic on two values of which one is no number. Beside anything but a text a
scalar is named by the type of the plain value that it holds. -/
def arithmeticFault (op : String) (ofTexts : Fault) (a b : Value) : Fault :=
  if (a.isScalar || b.isScalar) && (a.asText.isSome || b.asText.isSome) then ofTexts
  else .unsupportedOperands op a.unwrap.typeName b.unwrap.typeName

/-- The quotient of two values. -/
def divide (a b : Value) : Except Fault Number :=
  match a.number?, b.number? with
  | some x, some y => x.divide y
  | _, _ => .error (arithmeticFault "/" (.unsupportedInputs "divide") a b)

/-- A count over a value. -/
def countOver (n : Nat) (b : Value) : Except Fault Number :=
  match b.number? with
  | some y => Number.countOver n y
  | none => .error (.unsupportedOperands "/" "int" b.typeName)

/-- The integer that a value stands for: a number cut towards zero, or a text read. -/
def toInt (v : Value) : Except Fault Int :=
  match v.number?, v.asText with
  | some n, _ => n.toInt
  | none, some s => readInt v s
  | none, none => .error (.noInteger v.typeName)

end Value

end TypingTrace
