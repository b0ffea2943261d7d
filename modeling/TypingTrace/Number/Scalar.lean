import TypingTrace.Number.Binary

/-!
# Scalars

The elements of numeric arrays have one of five machine kinds. Two scalars meet in the least kind
that holds both of theirs (`ScalarKind.join`): a truth value fits everywhere, a short integer fits
into either precision, and a long integer and a number of single precision meet in double precision.

A number of single precision keeps its value when it is taken for a double. A double goes to the
nearest number of single precision, a tie to the even significand, and to an infinity where it is
too large for one.
-/

namespace TypingTrace

open Float.Model (Format UnpackedFloat)

/-! ## Single precision -/

/-- A number rounded to another format. -/
def inFormat (format : Format) : UnpackedFloat → UnpackedFloat
  | .finite sign significand exponent _ => .round format sign significand exponent
  | x => x

/-- The double that a number of single precision is. -/
def doubleOf (x : Float32) : Float := .ofModel (.pack (inFormat .binary64 x.toModel.unpack))

/-- The number of single precision nearest to a double. -/
def singleOf (x : Float) : Float32 := .ofModel (.pack (inFormat .binary32 x.toModel.unpack))

/-! ## Kinds -/

inductive ScalarKind where
  | bool | uint8 | int64 | float32 | float64
  deriving DecidableEq, Repr

namespace ScalarKind

def name : ScalarKind → String
  | bool => "bool"
  | uint8 => "uint8"
  | int64 => "int64"
  | float32 => "float32"
  | float64 => "float64"

/-- The name of the class of types that a kind belongs to. -/
def className : ScalarKind → String
  | bool => "BoolDType"
  | uint8 => "UInt8DType"
  | int64 => "Int64DType"
  | float32 => "Float32DType"
  | float64 => "Float64DType"

/-- The least kind that holds two kinds. -/
def join : ScalarKind → ScalarKind → ScalarKind
  | bool, k | k, bool => k
  | uint8, k | k, uint8 => k
  | int64, int64 => int64
  | float32, float32 => float32
  | _, _ => float64

/-- Whether a kind holds integers alone. -/
def isInteger : ScalarKind → Bool
  | bool | uint8 | int64 => true
  | float32 | float64 => false

/-- An integer within the bounds of a kind of integers: what is beyond comes in at the other end. -/
def wrap (n : Int) : ScalarKind → Int
  | uint8 => n % 256
  | int64 => n.bmod (Nat.pow 2 64)
  | _ => n

end ScalarKind

/-! ## Elements -/

/-- An element of a numeric array. -/
inductive Scalar where
  | float64 (x : Float)
  | float32 (x : Float32)
  | int64 (n : Int)
  | uint8 (n : Int)
  | bool (b : Bool)

def Scalar.kind : Scalar → ScalarKind
  | float64 _ => .float64
  | float32 _ => .float32
  | int64 _ => .int64
  | uint8 _ => .uint8
  | bool _ => .bool

/-- An integer as a scalar of a kind of integers. -/
def Scalar.ofInt (n : Int) : ScalarKind → Scalar
  | .uint8 => .uint8 (ScalarKind.uint8.wrap n)
  | .int64 => .int64 (ScalarKind.int64.wrap n)
  | _ => .bool (n != 0)

end TypingTrace
