import TypingTrace.Metric.Definition
import TypingTrace.Number.Arithmetic
import TypingTrace.Number.Places
import TypingTrace.Value.Order

/-!
# Values in reports

A value is shown by the unit of its metric: a duration in hours, minutes and seconds, a percentage
or a rate in a fixed number of decimal places, and anything else as the nearest integer. A value
that is no number cannot be shown; the fault depends on what was tried with it.
-/

namespace TypingTrace.Report

open Text

/-! ## Durations -/

/-- A number of whole seconds, the largest unit first and no unit before the first that counts. -/
def secondsText (seconds : Nat) : String :=
  let minutes := seconds / 60
  let hours := minutes / 60
  let last := natText (seconds % 60) ++ "s"
  if 0 < hours then natText hours ++ "h " ++ natText (minutes % 60) ++ "m " ++ last
  else if 0 < minutes then natText minutes ++ "m " ++ last
  else natText seconds ++ "s"

/-- The whole seconds in milliseconds that a number of a binary format holds: what a division leaves
is taken off, the rest is divided, and the quotient goes to the nearest integer, a half going down.
Only where the seconds have too many digits for the format does any of this round. -/
def secondsIn (format : BinaryFormat) (ms : Rat) : Int :=
  let whole := format.round ((ms / 1000).floor * 1000 : Rat)
  (format.round (whole / 1000) - mkRat 1 2).ceil

/-- The whole seconds in a number of milliseconds; an infinity has none. A machine kind of integers
has to have room for a thousand. -/
def wholeSeconds : Number → Except Fault Int
  | .int n => .ok (n.fdiv 1000)
  | .fraction q => .ok (q / 1000).floor
  | .scalar (.int64 n) => .ok (n.fdiv 1000)
  | .scalar (.uint8 _) => .error (.outOfBounds 1000 ScalarKind.uint8.name)
  | .scalar (.bool _) => .ok 0
  | a =>
    match a.place with
    | some (0, q) => .ok (secondsIn a.precision q)
    | _ => .error .nanToInteger

/-- A number of milliseconds as a duration; nothing below zero is shown. -/
def durationText (ms : Value) : Except Fault String := do
  if ← ms.compare .le (.int 0) then return "0s"
  match ms.number? with
  | some n =>
    let seconds := (← wholeSeconds n).toNat
    -- Of the three fields only the hours may have any number of digits.
    if fitsDigits (seconds / 3600) then return secondsText seconds else throw .longInteger
  | none => throw (.unsupportedOperands "//" ms.typeName "int")

/-! ## Decimals -/

/-- A number of decimal places as it was asked for, and whether digits are grouped in threes. -/
structure DecimalFormat where
  thousands : Bool
  places : String

namespace DecimalFormat

/-- How the format is written. -/
def text (format : DecimalFormat) : String :=
  (if format.thousands then ",." else ".") ++ format.places ++ "f"

/-- The number of places, which digits of any script spell. A fault may name the type of the value
that is to be written. -/
def read (format : DecimalFormat) (type : String) : Except Fault Nat := do
  let chars := format.places.toList
  let digits := (chars.map digit?).takeWhile Option.isSome
  if digits.isEmpty then throw .missingPrecision
  let places := ofDigits digits.reduceOption
  if Nat.pow 2 63 ≤ places then throw .endlessPrecision
  if digits.length < chars.length then throw (.unreadFormat format.text type)
  return places

/-- The largest number of places that can be written. -/
def limit : Nat := Nat.pow 2 31 - 1

/-- A number in the places of the format. -/
def write (format : DecimalFormat) (type : String) (n : Number) : Except Fault String := do
  let places ← format.read type
  let x ← n.toFloat
  if limit < places then throw .oversizedPrecision
  return fixedText places format.thousands x

end DecimalFormat

/-- One place, and no groups. -/
def onePlace : DecimalFormat := ⟨false, "1"⟩

/-- A value in decimal places. A clock reading shows the format itself, since nothing in it asks for
a part of a date. -/
def decimalText (format : DecimalFormat) (v : Value) : Except Fault String :=
  match v.unwrap, v.unwrap.number? with
  | .fraction _, _ => .error (.noFormat v.shortTypeName)
  | .moment _, _ => .ok format.text
  | .text _, _ | .kind _, _ => do
    discard (format.read "str")
    throw .decimalText
  | w, some n => format.write w.typeName n
  | _, none => .error (.noFormat v.shortTypeName)

/-- A number with its digits in groups of three; the places may be any value. -/
def numberText (places : Value) (v : Value) : Except Fault String :=
  if places.isWritable then decimalText ⟨true, places.inserted⟩ v else .error .longInteger

def percentageText (v : Value) : Except Fault String := return (← decimalText onePlace v) ++ "%"

/-- A share of one as a percentage. Multiplying a text or a list repeats it. -/
def ratioText (v : Value) : Except Fault String :=
  match v, v.number? with
  | _, some n => do percentageText (.ofNumber (← n.multiply (.int 100)))
  | .text _, none | .kind _, none | .list _, none => percentageText v
  | _, none => .error (.unsupportedOperands "*" v.typeName "int")

/-- The nearest integer. -/
def countText (v : Value) : Except Fault String :=
  match v, v.number? with
  | _, some n => do writeInt (← n.roundHalfUp)
  | .text _, none | .kind _, none => .error (.concatenation "str" "float")
  | .list _, none => .error (.concatenation "list" "float")
  | _, none => .error (.unsupportedOperands "+" v.typeName "float")

/-- A number in decimal places, followed by its unit. -/
def withUnit (places : Int) (unit : String) (v : Value) : Except Fault String :=
  return (← numberText (.int places) v) ++ unit

/-- A value as its unit asks for. -/
def valueText (unit v : Value) : Except Fault String :=
  match unit.asText.getD "" with
  | "duration" => durationText v
  | "%" => percentageText v
  | "ratio" => ratioText v
  | "score" => withUnit 0 "%" v
  | "ms" => withUnit 0 " ms" v
  | "CPM" => withUnit 0 " CPM" v
  | "WPM" => withUnit 1 " WPM" v
  | "chars/min" => withUnit 1 "/min" v
  | _ => countText v

example : secondsText 3723 = "1h 2m 3s" := by decide +kernel
example : secondsText 185 = "3m 5s" := by decide +kernel

end TypingTrace.Report
