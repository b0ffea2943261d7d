import TypingTrace.Fault
import TypingTrace.Text.Lines

/-!
# Numbers in free text

Blanks around a number are allowed, its digits may be those of any script, and single underscores
may stand between digits. `readFloat` reads decimals with an optional exponent and the names of the
infinities and of NaN in any case; `readInt` reads a signed integer, which may not have more digits
than a limit.
-/

namespace TypingTrace

open Text

/-- The double nearest to `digits * 10 ^ exponent`. Decimals far outside the range of doubles are
settled by their size, so that no huge power of ten is computed. -/
def ofDecimal (digits : Nat) (exponent : Int) : Float :=
  if digits = 0 then 0.0
  else
    let size := (natChars digits).length + exponent
    if 310 < size then infinity
    else if size < -330 then 0.0
    else if 0 ≤ exponent then
      nearestOrInfinite ((digits * Nat.pow 10 exponent.toNat : Int) : Rat)
    else nearestOrInfinite (mkRat digits (Nat.pow 10 (-exponent).toNat))

/-- Every decimal digit in ASCII, and nothing else changed. -/
def plainDigits (s : List Char) : List Char :=
  s.map fun c => match digit? c with
    | some d => Char.ofNat (48 + d)
    | none => c

/-- The text without its underscores, if each of them stands between two digits; `last` is the
character read before. -/
def dropUnderscores (last : Char) : List Char → Option (List Char)
  | [] => if last = '_' then none else some []
  | c :: rest =>
    if c = '_' then
      if last.isDigit then dropUnderscores c rest else none
    else if last = '_' ∧ ¬ c.isDigit then none
    else (dropUnderscores c rest).map (c :: ·)

/-- A sign at the start of a text: whether it is a minus, and the rest. -/
def takeSign : List Char → Bool × List Char
  | '-' :: rest => (true, rest)
  | '+' :: rest => (false, rest)
  | s => (false, s)

/-- The ASCII digits at the start of a text, as values, and the rest. -/
def takeDigits (s : List Char) : List Nat × List Char :=
  ((s.takeWhile Char.isDigit).map (·.toNat - 48), s.dropWhile Char.isDigit)

/-- The exponent part of a decimal, up to the end of the text. -/
def readExponent : List Char → Option Int
  | [] => some 0
  | c :: rest =>
    if c = 'e' ∨ c = 'E' then
      let (negative, rest) := takeSign rest
      match takeDigits rest with
      | ([], _) => none
      | (ds, []) => some (if negative then -(ofDigits ds : Int) else ofDigits ds)
      | (_, _ :: _) => none
    else none

/-- A decimal without sign that makes up the whole text. -/
def readDecimal (s : List Char) : Option Float :=
  let (whole, rest) := takeDigits s
  let (fraction, rest) := match rest with
    | '.' :: rest => takeDigits rest
    | _ => ([], rest)
  if whole.isEmpty && fraction.isEmpty then none
  else (readExponent rest).map fun e =>
    ofDecimal (ofDigits (whole ++ fraction)) (e - fraction.length)

/-- The double that a free text spells. -/
def readFloat (s : String) : Option Float := do
  let plain ← dropUnderscores ' ' (plainDigits (trimChars isPadding s.toList))
  let (negative, body) := takeSign plain
  let x ←
    match String.ofList (body.map Char.toLower) with
    | "inf" | "infinity" => some infinity
    | "nan" => some notANumber
    | _ => readDecimal body
  return if negative then -x else x

/-- The fault of so many digits, if they are too many. -/
def checkDigits (n : Nat) : Except Fault Unit :=
  if digitLimit < n then .error (.tooManyDigits n) else .ok ()

/-- The integer that a free text spells. The text is that of a value, which the fault quotes. Where
digits are followed by something else, their number is checked first. -/
def readInt (v : Value) (s : String) : Except Fault Int := do
  let (negative, body) := takeSign (plainDigits (trimChars isPadding s.toList))
  let number := body.takeWhile fun c => c.isDigit || c = '_'
  match dropUnderscores ' ' number with
  | none | some [] => throw (.notAnInteger v)
  | some digits =>
    checkDigits digits.length
    if number.length < body.length then throw (.notAnInteger v)
    let n := ofDigits (takeDigits digits).1
    return if negative then -(n : Int) else n

end TypingTrace
