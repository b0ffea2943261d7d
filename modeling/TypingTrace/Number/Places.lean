import TypingTrace.Number.Binary
import TypingTrace.Text.Digit

/-!
# Doubles in a fixed number of decimal places

The exact value is rounded to the places asked for, a tie going to the even digit. The sign of a
negative zero is kept, and the digits before the point may be grouped in threes.
-/

namespace TypingTrace

open Text

/-- Commas between groups of three digits, counted from the right. The digits come last first. -/
def groupReversed : List Char → List Char
  | a :: b :: c :: d :: rest => a :: b :: c :: ',' :: groupReversed (d :: rest)
  | ds => ds

def grouped (ds : List Char) : List Char := (groupReversed ds.reverse).reverse

/-- No double has more decimal places than this. -/
def mostPlaces : Nat := 1100

/-- A non-negative rational in `places` decimal places, of which those after `mostPlaces` are
zeros. -/
def placesText (places : Nat) (thousands : Bool) (q : Rat) : String :=
  let computed := min places mostPlaces
  let unit := Nat.pow 10 computed
  let scaled := divEven (q.num.natAbs * unit) q.den
  let whole := natChars (scaled / unit)
  let whole := if thousands then grouped whole else whole
  if places = 0 then String.ofList whole
  else
    let fraction := paddedChars computed (scaled % unit)
    String.ofList (whole ++ '.' :: (fraction ++ List.replicate (places - computed) '0'))

/-- A double in `places` decimal places. -/
def fixedText (places : Nat) (thousands : Bool) (x : Float) : String :=
  if x.isNaN then "nan"
  else
    let sign := if isNegative x then "-" else ""
    match exactOf x with
    | none => sign ++ "inf"
    | some q => sign ++ placesText places thousands q

end TypingTrace
