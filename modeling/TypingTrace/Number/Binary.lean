/-!
# Doubles and the rationals they stand for

**Reading** (`exactOf`). A finite double is an integer multiple of a power of two; `exactOf` gives
that rational, and nothing for an infinity or a NaN.

**Rounding** (`BinaryFormat.round`, `nearest`). A rational goes to the nearest number of a binary
format, a tie to the even significand. A double has 53 significant bits, and below `2 ^ -1022` the
spacing stays `2 ^ -1074`. `nearest` gives the double itself, and nothing when the magnitude is too
large for one.

Both are computed on integers alone, so that statements about them need no theory of floating
point.
-/

namespace TypingTrace

/-- The integer nearest to `n / d`, a tie going to the even one. -/
def divEven (n d : Nat) : Nat :=
  let q := n / d
  let r := n % d
  if 2 * r < d then q else if d < 2 * r then q + 1 else q + q % 2

/-- The integer nearest to a rational, a tie going to the even one. -/
def roundEven (q : Rat) : Int :=
  if q.num < 0 then -(divEven q.num.natAbs q.den : Int) else divEven q.num.natAbs q.den

/-- The integer part of a rational, cut towards zero. -/
def cut (q : Rat) : Int := Int.tdiv q.num q.den

/-- Two to an integer power. -/
def pow2 (e : Int) : Rat :=
  if 0 ≤ e then ((Nat.pow 2 e.toNat : Int) : Rat) else mkRat 1 (Nat.pow 2 (-e).toNat)

/-! ## From a double -/

/-- The rational that a double stands for. The exponent field `2047` is that of the infinities and
NaNs, which stand for none. -/
def exactOf (x : Float) : Option Rat :=
  let bits := x.toBits.toNat
  let field : Nat := bits / Nat.pow 2 52 % Nat.pow 2 11
  let fraction : Nat := bits % Nat.pow 2 52
  if field = 2047 then none
  else
    let m : Nat := if field = 0 then fraction else Nat.pow 2 52 + fraction
    let e : Int := (if field = 0 then 1 else field) - 1075
    let signed : Int := if bits / Nat.pow 2 63 = 1 then -m else m
    some (if 0 ≤ e then ((signed * Nat.pow 2 e.toNat : Int) : Rat)
      else mkRat signed (Nat.pow 2 (-e).toNat))

/-- The sign bit, which also a zero has. -/
def isNegative (x : Float) : Bool := x.toBits.toNat / Nat.pow 2 63 == 1

/-! ## Binary formats -/

/-- A binary format: the number of significant bits, and the exponent of the least spacing. -/
structure BinaryFormat where
  bits : Nat
  lowest : Int

/-- Double precision. -/
def binary64 : BinaryFormat := ⟨53, -1074⟩

/-- Single precision. -/
def binary32 : BinaryFormat := ⟨24, -149⟩

/-- The exponent `e` with `2 ^ e ≤ n / d < 2 ^ (e + 1)`, for positive `n` and `d`. -/
def binaryExponent (n d : Nat) : Int :=
  let e : Int := (n.log2 : Int) - d.log2
  let below := if 0 ≤ e then n < d * Nat.pow 2 e.toNat else n * Nat.pow 2 (-e).toNat < d
  if below then e - 1 else e

/-- The significand and the exponent of the number of a format nearest to `n / d`: at most
`2 ^ bits`, and at least the lowest one. -/
def BinaryFormat.significand (format : BinaryFormat) (n d : Nat) : Nat × Int :=
  let k := max (binaryExponent n d - (format.bits - 1 : Nat)) format.lowest
  (if 0 ≤ k then divEven n (d * Nat.pow 2 k.toNat) else divEven (n * Nat.pow 2 (-k).toNat) d, k)

/-- A rational rounded to the significant bits of a format. -/
def BinaryFormat.round (format : BinaryFormat) (q : Rat) : Rat :=
  if q.num = 0 then 0
  else
    let (m, k) := format.significand q.num.natAbs q.den
    (if q.num < 0 then -(m : Int) else (m : Int) : Int) * pow2 k

/-- A rational rounded to 53 significant bits. -/
def roundBinary (q : Rat) : Rat := binary64.round q

/-! ## To a double -/

/-- The double nearest to a rational, or nothing if it is too large. -/
def nearest (q : Rat) : Option Float :=
  if q.num = 0 then some 0.0
  else
    let (m, k) := binary64.significand q.num.natAbs q.den
    let implicit := Nat.pow 2 52
    let (m, k) := if m = 2 * implicit then (implicit, k + 1) else (m, k)
    let word := if m < implicit then m else (k + 1075).toNat * implicit + (m - implicit)
    if word < 2047 * implicit then
      some (Float.ofBits (UInt64.ofNat (if q.num < 0 then Nat.pow 2 63 + word else word)))
    else none

def infinity : Float := Float.ofBits 0x7ff0000000000000

def notANumber : Float := Float.ofBits 0x7ff8000000000000

/-- The double nearest to a rational, an infinity where it is too large. -/
def nearestOrInfinite (q : Rat) : Float :=
  match nearest q with
  | some x => x
  | none => if q.num < 0 then -infinity else infinity

end TypingTrace
