import TypingTrace.Number.Binary
import TypingTrace.Text.Digit

/-!
# The shortest decimal text of a double

**Digits** (`RoundingInterval.shortest`). Of the decimals that round to a given double, the one with
the fewest digits is taken, and of two with equally many the nearer. For each number of digits only
the two neighbours of the double on that decimal grid can qualify, so these are tried, from one
digit to seventeen.

**Layout** (`layOut`). Small and moderate numbers are written positionally and always with a point;
all others with one digit before the point, and an exponent of at least two digits. For a double the
decimal exponents from `-4` to `15` are moderate (`floatText`), and for a number of single precision
the magnitudes from `10 ^ -4` up to `10 ^ 7` (`singleText`).
-/

namespace TypingTrace

open Text

/-- The numbers that round to a double, between two ends over a common denominator. -/
structure RoundingInterval where
  low : Nat
  value : Nat
  high : Nat
  den : Nat
  /-- Whether the ends themselves round to the double. -/
  closed : Bool

/-- The rounding interval of `m * 2 ^ k`, for a positive significand `m`. -/
def RoundingInterval.of (format : BinaryFormat) (m : Nat) (k : Int) : RoundingInterval :=
  let low := if m = Nat.pow 2 (format.bits - 1) ∧ format.lowest < k then 4 * m - 1 else 4 * m - 2
  if 2 ≤ k then
    let u := Nat.pow 2 (k - 2).toNat
    ⟨low * u, 4 * m * u, (4 * m + 2) * u, 1, m % 2 == 0⟩
  else ⟨low, 4 * m, 4 * m + 2, Nat.pow 2 (2 - k).toNat, m % 2 == 0⟩

/-- Whether `j * 10 ^ s` lies in the interval. -/
def RoundingInterval.holds (r : RoundingInterval) (j : Nat) (s : Int) : Bool :=
  let (x, scale) :=
    if 0 ≤ s then (j * Nat.pow 10 s.toNat * r.den, 1) else (j * r.den, Nat.pow 10 (-s).toNat)
  if r.closed then r.low * scale ≤ x && x ≤ r.high * scale
  else r.low * scale < x && x < r.high * scale

/-- The number `p` with `10 ^ (p - 1) ≤ n / d < 10 ^ p`, for positive `n` and `d`. -/
def decimalExponent (n d : Nat) : Int :=
  if d ≤ n then (natChars (n / d)).length
  else
    let q := (n + d - 1) / n
    1 - (if q ≤ 1 then 0 else (natChars (q - 1)).length : Nat)

/-- The shortest decimal `j * 10 ^ s` in the interval that has at least `digits` digits, trying
at most `tries` lengths. -/
def RoundingInterval.shortest (r : RoundingInterval) (p : Int) : (tries digits : Nat) → Nat × Int
  | 0, digits => (0, p - digits)
  | tries + 1, digits =>
    let s := p - digits
    let (n, d) :=
      if 0 ≤ s then (r.value, r.den * Nat.pow 10 s.toNat)
      else (r.value * Nat.pow 10 (-s).toNat, r.den)
    let j := n / d
    let below := n % d
    match r.holds j s, r.holds (j + 1) s with
    | true, true =>
      if 2 * below < d ∨ (2 * below = d ∧ j % 2 = 0) then (j, s) else (j + 1, s)
    | true, false => (j, s)
    | false, true => (j + 1, s)
    | false, false => r.shortest p tries (digits + 1)

/-- The digits without the zeros at their end, which move into the power of ten. -/
def trimZeros : (digits : List Char) → Int → List Char × Int
  | digits, s =>
    let zeros := digits.reverse.takeWhile (· == '0')
    ((digits.reverse.dropWhile (· == '0')).reverse, s + zeros.length)

/-- The layout of the decimal `0.d₁d₂… * 10 ^ point`, positional or with a power of ten. -/
def layOut (positional : Bool) (digits : List Char) (point : Int) : List Char :=
  if positional then
    if point ≤ 0 then '0' :: '.' :: (List.replicate (-point).toNat '0' ++ digits)
    else
      let whole := point.toNat
      if digits.length ≤ whole then
        digits ++ List.replicate (whole - digits.length) '0' ++ ['.', '0']
      else digits.take whole ++ '.' :: digits.drop whole
  else
    let exponent := point - 1
    let mantissa := match digits with
      | [] => []
      | [d] => [d]
      | d :: rest => d :: '.' :: rest
    let sign := if exponent < 0 then '-' else '+'
    mantissa ++ 'e' :: sign :: paddedChars 2 exponent.natAbs

/-- The text of a positive finite number, positional from `10 ^ -4` up to `10 ^ most`. -/
def magnitudeText (format : BinaryFormat) (most : Int) (m : Nat) (k : Int) : String :=
  if m = 0 then "0.0"
  else
    let r := RoundingInterval.of format m k
    let point := decimalExponent r.value r.den
    let (j, s) := r.shortest point 17 1
    let (digits, s) := trimZeros (natChars j) s
    String.ofList (layOut (-4 < point && point ≤ most) digits (s + digits.length))

/-- The text of a double. -/
def floatText (x : Float) : String :=
  if x.isNaN then "nan"
  else
    let sign := if isNegative x then "-" else ""
    if x.isInf then sign ++ "inf"
    else
      let bits := x.toBits.toNat
      let field : Nat := bits / Nat.pow 2 52 % Nat.pow 2 11
      let fraction : Nat := bits % Nat.pow 2 52
      sign ++ if field = 0 then magnitudeText binary64 16 fraction (-1074)
        else magnitudeText binary64 16 (Nat.pow 2 52 + fraction) ((field : Int) - 1075)

/-- The text of a single-precision number: the shortest that rounds to it in its own format. -/
def singleText (x : Float32) : String :=
  if x.isNaN then "nan"
  else
    let bits := x.toBits.toNat
    let sign := if bits / Nat.pow 2 31 = 1 then "-" else ""
    if x.isInf then sign ++ "inf"
    else
      let field : Nat := bits / Nat.pow 2 23 % Nat.pow 2 8
      let fraction : Nat := bits % Nat.pow 2 23
      sign ++ if field = 0 then magnitudeText binary32 7 fraction (-149)
        else magnitudeText binary32 7 (Nat.pow 2 23 + fraction) ((field : Int) - 150)

end TypingTrace
