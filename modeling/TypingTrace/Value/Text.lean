import TypingTrace.Number.Shortest
import TypingTrace.Text.Quoted
import TypingTrace.Value.Basic

/-!
# Values in messages

A value is shown in three ways. `Value.quote` is unambiguous: texts are quoted, and every value of a
special type names its type. `Value.display` differs from it only at the outermost level, where a
text stands as it is and a special value is written plainly. `Value.inserted`, for a value inside a
sentence, differs from that only in showing a number of single precision as the double it equals.

None of them is possible where an integer has too many digits (`Value.isWritable`).
-/

namespace TypingTrace

open Text Time

/-- A fraction in lowest terms, without a denominator of one. -/
def fractionDisplay (q : Rat) : String :=
  if q.den = 1 then intText q.num else intText q.num ++ "/" ++ natText q.den

def boolText (b : Bool) : String := if b then "True" else "False"

namespace Scalar

/-- A scalar without its type. -/
def display : Scalar → String
  | .float64 x => floatText x
  | .float32 x => singleText x
  | .int64 n => intText n
  | .uint8 n => intText n
  | .bool b => boolText b

def quote : Scalar → String
  | .float64 x => "np.float64(" ++ floatText x ++ ")"
  | .float32 x => "np.float32(" ++ singleText x ++ ")"
  | .int64 n => "np.int64(" ++ intText n ++ ")"
  | .uint8 n => "np.uint8(" ++ intText n ++ ")"
  | .bool b => "np." ++ boolText b ++ "_"

end Scalar

/-- The constructor call for an offset: whole days, then seconds, then microseconds, of which only
the days may be negative and those that are zero are left out. -/
def offsetQuote (offset : Int) : String :=
  if offset = 0 then "datetime.timezone.utc"
  else
    let rest := offset.fmod dayLength
    let part (name : String) (n : Int) := if n = 0 then [] else [name ++ "=" ++ intText n]
    let parts := part "days" (offset.fdiv dayLength) ++ part "seconds" (rest / second) ++
      part "microseconds" (rest % second)
    "datetime.timezone(datetime.timedelta(" ++ String.intercalate ", " parts ++ "))"

/-- The constructor call for a clock reading; seconds and microseconds that are zero are left
out from the end. -/
def momentQuote (m : Moment) : String :=
  let d := dateOf m.face
  let (hour, minute, sec, micros) := hms (timeOf m.face)
  let tail := if micros ≠ 0 then [sec, micros] else if sec ≠ 0 then [sec] else []
  let numbers := [d.year, d.month, d.day, hour, minute] ++ tail
  let zone := match m.offset with
    | none => ""
    | some offset => ", tzinfo=" ++ offsetQuote offset
  "datetime.datetime(" ++ String.intercalate ", " (numbers.map natText) ++ zone ++ ")"

namespace Value

mutual

/-- A value as it stands inside a message. -/
def quote : Value → String
  | .null => "None"
  | .bool b => boolText b
  | .int n => intText n
  | .float x => floatText x
  | .text s => quoted s
  | .list items => "[" ++ String.intercalate ", " (quoteItems items) ++ "]"
  | .object fields => "\x7b" ++ String.intercalate ", " (quoteFields fields) ++ "\x7d"
  | .fraction q => "Fraction(" ++ intText q.num ++ ", " ++ natText q.den ++ ")"
  | .scalar s => s.quote
  | .kind k => "<EventType." ++ k.symbol ++ ": " ++ quoted k.name ++ ">"
  | .moment m => momentQuote m

def quoteItems : List Value → List String
  | [] => []
  | v :: rest => quote v :: quoteItems rest

def quoteFields : List (String × Value) → List String
  | [] => []
  | (k, v) :: rest => (quoted k ++ ": " ++ quote v) :: quoteFields rest

end

mutual

/-- Whether no integer in a value has too many digits to be written. -/
def isWritable : Value → Bool
  | .int n => fitsDigits n
  | .fraction q => fitsDigits q.num && fitsDigits q.den
  | .list items => areWritable items
  | .object fields => haveWritable fields
  | .null | .bool _ | .float _ | .text _ | .scalar _ | .kind _ | .moment _ => true

def areWritable : List Value → Bool
  | [] => true
  | v :: rest => isWritable v && areWritable rest

def haveWritable : List (String × Value) → Bool
  | [] => true
  | (_, v) :: rest => isWritable v && haveWritable rest

end

theorem areWritable_eq (l : List Value) : areWritable l = l.all isWritable := by
  induction l with
  | nil => rfl
  | cons v l ih => rw [areWritable, List.all_cons, ih]

theorem haveWritable_eq (fields : Fields) :
    haveWritable fields = fields.all fun field => field.2.isWritable := by
  induction fields with
  | nil => rfl
  | cons field fields ih => rw [haveWritable, List.all_cons, ih]

/-- A value as it stands alone. -/
def display : Value → String
  | .text s => s
  | .fraction q => fractionDisplay q
  | .scalar s => s.display
  | .kind k => k.name
  | .moment m => m.spaced
  | v => v.quote

/-- A value inside a sentence. -/
def inserted : Value → String
  | .scalar (.float32 x) => floatText (doubleOf x)
  | v => v.display

@[simp] theorem display_text (s : String) : (text s).display = s := rfl

@[simp] theorem inserted_text (s : String) : (text s).inserted = s := rfl

end Value

end TypingTrace
