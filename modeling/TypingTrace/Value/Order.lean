import TypingTrace.Fault
import TypingTrace.Value.Equality

/-!
# Order of values

Numbers are ordered among themselves, texts by code points, clock readings by their instants and
lists by their first elements that differ. Any other two values have no order, and asking for it
is a fault, which names the comparison and the types. Where one of the values is a scalar, the fault
is put from its side.
-/

namespace TypingTrace

open Time

/-- The four comparisons. -/
inductive Comparison where
  | lt | le | gt | ge
  deriving DecidableEq

namespace Comparison

def symbol : Comparison → String
  | lt => "<"
  | le => "<="
  | gt => ">"
  | ge => ">="

/-- The comparison as it is made from the other side. -/
def swap : Comparison → Comparison
  | lt => gt
  | le => ge
  | gt => lt
  | ge => le

/-- The name of the comparison as an operation on arrays. -/
def operation : Comparison → String
  | lt => "less"
  | le => "less_equal"
  | gt => "greater"
  | ge => "greater_equal"

/-- The comparison of two numbers, false if one of them is a NaN. -/
def numbers (c : Comparison) (a b : Number) : Bool :=
  match c with
  | lt => a.lt b
  | le => a.le b
  | gt => b.lt a
  | ge => b.le a

def ordered {α : Type} [LT α] [DecidableLT α] (c : Comparison) (a b : α) : Bool :=
  match c with
  | lt => decide (a < b)
  | le => !decide (b < a)
  | gt => decide (b < a)
  | ge => !decide (a < b)

end Comparison

/-- The comparison of two clock readings. Readings of known and of unknown offset have no
order. -/
def Time.Moment.compare (c : Comparison) (a b : Moment) : Except Fault Bool :=
  match a.offset, b.offset with
  | some x, some y => .ok (c.ordered (a.face - x) (b.face - y))
  | none, none => .ok (c.ordered a.face b.face)
  | _, _ => .error (.mixedOffsets "compare")

namespace Value

/-- The fault of comparing a scalar with a value that is no number. -/
def scalarOrderFault (c : Comparison) (s : Scalar) (v : Value) : Fault :=
  if v.asText.isSome then
    .unmatchedInputs c.operation ("<class 'numpy.dtypes." ++ s.kind.className ++ "'>")
      "<class 'numpy.dtypes.StrDType'>"
  else .notOrdered c.symbol (Value.scalar s).unwrap.typeName v.typeName

/-- The fault of comparing two values that have no order. -/
def orderFault (c : Comparison) : Value → Value → Fault
  | .scalar s, v => scalarOrderFault c s v
  | v, .scalar s => scalarOrderFault c.swap s v
  | a, b => .notOrdered c.symbol a.typeName b.typeName

mutual

/-- Whether two values stand in an order. -/
def compare (c : Comparison) : Value → Value → Except Fault Bool
  | .list xs, .list ys => compareLists c xs ys
  | .moment a, .moment b => a.compare c b
  | a, b =>
    match a.number?, b.number? with
    | some x, some y => .ok (c.numbers x y)
    | _, _ =>
      match a.asText, b.asText with
      | some s, some t => .ok (c.ordered (Text.codePoints s) (Text.codePoints t))
      | _, _ => .error (orderFault c a b)

def compareLists (c : Comparison) : List Value → List Value → Except Fault Bool
  | [], ys => .ok (c.ordered 0 ys.length)
  | x :: xs, [] => .ok (c.ordered (x :: xs).length 0)
  | x :: xs, y :: ys => if x.equals y then compareLists c xs ys else compare c x y

end

/-- Numbers of any types have an order. -/
theorem compare_numbers {a b : Value} {x y : Number} (ha : a.number? = some x)
    (hb : b.number? = some y) (c : Comparison) : a.compare c b = .ok (c.numbers x y) := by
  cases a <;> cases b <;> simp_all [compare, number?]

end Value

end TypingTrace
