import TypingTrace.Number.Arithmetic
import TypingTrace.Value.Order

/-!
# Statistics of doubles

Sums are taken in the order that keeps the rounding error of long lists small (`pairwiseSum`): up to
128 terms go through eight running sums, and longer lists are cut near the middle. Mean, deviation
and percentiles follow from sums and from the sorted list; one NaN makes every statistic a NaN.
-/

namespace TypingTrace

/-! ## Sums -/

/-- The sum from left to right. -/
def leftSum : List Float → Float
  | [] => 0.0
  | x :: xs => xs.foldl (· + ·) x

/-- Eight running sums with the next terms added, and the terms after the last full eight. -/
def addEights : List Float → List Float → List Float × List Float
  | sums, a :: b :: c :: d :: e :: f :: g :: h :: rest =>
    addEights (List.zipWith (· + ·) sums [a, b, c, d, e, f, g, h]) rest
  | sums, rest => (sums, rest)

/-- The sum of up to 128 terms. -/
def blockSum (xs : List Float) : Float :=
  if xs.length < 8 then leftSum xs
  else
    let (sums, rest) := addEights (xs.take 8) (xs.drop 8)
    let total := match sums with
      | [a, b, c, d, e, f, g, h] => ((a + b) + (c + d)) + ((e + f) + (g + h))
      | _ => leftSum sums
    rest.foldl (· + ·) total

/-- The place where a long list is cut: the middle, moved down to a multiple of eight. -/
def cutPlace (n : Nat) : Nat := n / 2 - n / 2 % 8

/-- The sum of a list, cut as often as it is too long. -/
def pairwiseSum (xs : List Float) : Float :=
  if xs.length ≤ 128 then blockSum xs
  else
    pairwiseSum (xs.take (cutPlace xs.length)) + pairwiseSum (xs.drop (cutPlace xs.length))
termination_by xs.length
decreasing_by
  all_goals simp only [cutPlace, List.length_take, List.length_drop]; omega

/-- The sum of a list of any length, added to zero: it is never a negative zero. -/
def total (xs : List Float) : Float := 0.0 + pairwiseSum xs

/-! ## Mean and deviation -/

def size (xs : List Float) : Float := Float.ofNat xs.length

def mean (xs : List Float) : Float := total xs / size xs

/-- The population standard deviation. -/
def deviation (xs : List Float) : Float :=
  let m := mean xs
  (total (xs.map fun x => (x - m) * (x - m)) / size xs).sqrt

/-- The coefficient of variation in percent, zero if the mean is not positive. -/
def variation (xs : List Float) : Float :=
  let m := mean xs
  if m ≤ 0.0 then 0.0 else deviation xs / m * 100.0

/-! ## Order statistics -/

def hasNaN (xs : List Float) : Bool := xs.any Float.isNaN

/-- The term that a choice between two prefers over all others; of equal ones it is the last. -/
def choose (better : Float → Float → Bool) : List Float → Float
  | [] => 0.0
  | x :: xs =>
    if hasNaN (x :: xs) then notANumber
    else xs.foldl (fun best y => if better best y then best else y) x

def least (xs : List Float) : Float := choose (fun a b => a < b) xs

def greatest (xs : List Float) : Float := choose (fun a b => b < a) xs

/-- The point at a fraction `t` of the way from `a` to `b`, counted from the nearer end. -/
def between (a b t : Float) : Float :=
  if 0.5 ≤ t then b - (b - a) * (1.0 - t) else a + (b - a) * t

/-- The value at a fraction `p` of the way through the sorted list, between two neighbours on the
line that joins them. At the last place both neighbours are the last value. -/
def percentile (p : Float) (xs : List Float) : Float :=
  if hasNaN xs then notANumber
  else
    let sorted := xs.mergeSort fun a b => a ≤ b
    let term := fun i => sorted[i]?.getD 0.0
    let last := xs.length - 1
    let place := Float.ofNat last * p
    if Float.ofNat last ≤ place then between (term last) (term last) 1.0
    else
      let below := place.floor.toUInt64.toNat
      between (term below) (term (min (below + 1) last)) (place - place.floor)

/-- What is reported about a list of intervals. -/
structure IntervalStatistics where
  average : Float
  least : Float
  greatest : Float
  deviation : Float
  median : Float
  high : Float
  count : Nat

/-- What is reported where there are no intervals. -/
def IntervalStatistics.zero : IntervalStatistics := ⟨0.0, 0.0, 0.0, 0.0, 0.0, 0.0, 0⟩

/-- The statistics of a list; all zero if it is empty. -/
def IntervalStatistics.of (xs : List Float) : IntervalStatistics :=
  if xs.isEmpty then zero
  else ⟨mean xs, TypingTrace.least xs, TypingTrace.greatest xs, TypingTrace.deviation xs,
    percentile 0.5 xs, percentile 0.95 xs, xs.length⟩

/-! ## Rates -/

/-- A count over a number of milliseconds, as a rate per minute; zero if the time is not
positive. -/
def perMinute (count duration : Number) : Except Fault Number := do
  let minutes ← duration.divide (.float 60000.0)
  if (Number.int 0).lt minutes then count.divide minutes else return .float 0.0

/-- The same for values of any type. -/
def perMinuteOf (count duration : Value) : Except Fault Number := do
  let minutes ← duration.divide (.float 60000.0)
  if (Number.int 0).lt minutes then count.divide (.ofNumber minutes) else return .float 0.0

end TypingTrace
