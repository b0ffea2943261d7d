import TypingTrace.Number.Scalar

/-!
# Numbers of four kinds

An integer of any size, a double, an exact fraction, or a scalar. The kind is part of the value and
shows in its text, but plain numbers of different kinds are compared by their exact values
(`Number.lt`, `Number.le`).

A scalar and another number meet in a machine kind (`Number.joint`). If that is one of floating
point, both are rounded to it before they are compared.
-/

namespace TypingTrace

inductive Number where
  | int (n : Int)
  | float (x : Float)
  | fraction (q : Rat)
  | scalar (s : Scalar)

namespace Number

instance : OfNat Number n := ⟨.int n⟩

/-- The number that a scalar holds, without its machine kind. -/
def ofScalar : Scalar → Number
  | .float64 x => .float x
  | .float32 x => .float (doubleOf x)
  | .int64 n => .int n
  | .uint8 n => .int n
  | .bool b => .int (if b then 1 else 0)

/-- The number without a machine kind. -/
def plain : Number → Number
  | .scalar s => ofScalar s
  | n => n

/-- Where a double lies: below, among or above the rationals. A NaN lies nowhere. -/
def placeOfFloat (x : Float) : Option (Int × Rat) :=
  match exactOf x with
  | some q => some (0, q)
  | none => if x.isNaN then none else if isNegative x then some (-1, 0) else some (1, 0)

/-- Where a number of single precision lies. -/
def placeOfSingle (x : Float32) : Option (Int × Rat) :=
  match x.toModel.unpack with
  | .notANumber => none
  | .infinity sign => some (sign.apply 1, 0)
  | .zero _ => some (0, 0)
  | .finite sign significand exponent _ => some (0, sign.apply significand * pow2 exponent)

/-- Where a number lies. -/
def place : Number → Option (Int × Rat)
  | .int n => some (0, n)
  | .fraction q => some (0, q)
  | .float x => placeOfFloat x
  | .scalar (.float64 x) => placeOfFloat x
  | .scalar (.float32 x) => placeOfSingle x
  | .scalar (.int64 n) => some (0, n)
  | .scalar (.uint8 n) => some (0, n)
  | .scalar (.bool b) => some (0, if b then 1 else 0)

/-- The nearest double, an infinity where the number is too large. -/
def approximate (a : Number) : Float :=
  match a.plain with
  | .float x => x
  | a => match a.place with
    | some (_, q) => nearestOrInfinite q
    | none => notANumber

/-- The machine kind in which two numbers meet if one of them is a scalar. An integer takes on the
kind of the scalar, but is never a truth value, and a double is cut to the precision of the scalar.
An exact fraction has no machine kind. -/
def joint : Number → Number → Option ScalarKind
  | .scalar s, .scalar t => some (s.kind.join t.kind)
  | .scalar s, .int _ | .int _, .scalar s => some (if s.kind = .bool then .int64 else s.kind)
  | .scalar s, .float _ | .float _, .scalar s =>
    some (if s.kind = .float32 then .float32 else .float64)
  | _, _ => none

/-! ## Order -/

/-- A number as it takes part in a comparison of a machine kind. -/
def aligned (kind : Option ScalarKind) (a : Number) : Number :=
  match kind with
  | some .float64 => .float a.approximate
  | some .float32 => .float (doubleOf (singleOf a.approximate))
  | _ => a

/-- Whether one number is less than another. -/
def lt (a b : Number) : Bool :=
  match (aligned (joint a b) a).place, (aligned (joint a b) b).place with
  | some (i, p), some (j, q) => decide (i < j) || (i == j && decide (p < q))
  | _, _ => false

/-- Whether one number is less than or equal to another. -/
def le (a b : Number) : Bool :=
  match (aligned (joint a b) a).place, (aligned (joint a b) b).place with
  | some (i, p), some (j, q) => decide (i < j) || (i == j && decide (p ≤ q))
  | _, _ => false

@[simp] theorem le_int (a b : Int) : (int a).le (int b) = decide (a ≤ b) := by
  show decide ((a : Rat) ≤ b) = decide (a ≤ b)
  exact decide_eq_decide.2 Rat.intCast_le_intCast

/-- Whether a number is neither an infinity nor a NaN. -/
def isFinite (a : Number) : Bool :=
  match a.place with
  | some (0, _) => true
  | _ => false

/-- Whether a number is zero, with either sign. -/
def isZero (a : Number) : Bool := a.place == some (0, 0)

/-- Whether a number differs from zero; a NaN does. -/
def isNonzero (a : Number) : Bool := !a.isZero

end Number

end TypingTrace
