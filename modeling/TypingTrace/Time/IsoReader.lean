import TypingTrace.Text.Bytes
import TypingTrace.Time.Stamp

/-!
# Reading dates and times

The notation of ISO 8601, in its forms with and without separators, with days of the month or of
the week. The date has one of four forms and the position where it ends is found first
(`dateEnd`). One character of any kind separates it from the time. The time is cut at its first
plus, minus or `Z`; what stands before is the clock part and what follows the offset, and both are
read by one scanner (`scan`).

The notation is read byte by byte, and a null character ends it wherever the scanner is done.
-/

namespace TypingTrace.Time

open Text

/-- The number spelled by exactly `n` ASCII digits, and the rest. -/
def takeNumber (n : Nat) (s : List Char) : Option (Nat × List Char) :=
  let ds := s.take n
  if ds.length = n ∧ ds.all Char.isDigit then some (ofDigits (ds.map (·.toNat - 48)), s.drop n)
  else none

/-! ## The date -/

/-- Where the date ends. A week date with separators may or may not name a day, which the digit
two places after the hyphen decides; one without does if an odd number of digits follows the year
and the mark. -/
def dateEnd (s : List Char) : Option Nat :=
  let digitAt := fun i => (s[i]?.map Char.isDigit).getD false
  if s.length = 7 then some 7
  else if s[4]? = some '-' then
    if s[5]? = some 'W' then
      if s[8]? = some '-' then
        if s.length = 9 then none else if digitAt 10 then some 8 else some 10
      else some 8
    else some 10
  else if s[4]? = some 'W' then
    let stop := 7 + ((s.drop 7).takeWhile Char.isDigit).length
    if stop < 9 then some stop else if stop % 2 = 0 then some 7 else some 8
  else some 8

/-- A hyphen, where separators are used. -/
def takeHyphen (separated : Bool) (s : List Char) : Option (List Char) :=
  if separated then
    match s with
    | '-' :: rest => some rest
    | _ => none
  else some s

/-- The date that makes up the whole text. -/
def readDate (s : List Char) : Option Date := do
  let (year, rest) ← takeNumber 4 s
  let separated := rest.head? == some '-'
  let rest := if separated then rest.drop 1 else rest
  match rest with
  | 'W' :: rest =>
    let (week, rest) ← takeNumber 2 rest
    if rest.isEmpty then ofWeek? year week 1
    else
      let (day, rest) ← takeNumber 1 (← takeHyphen separated rest)
      if rest.isEmpty then ofWeek? year week day else none
  | _ =>
    let (month, rest) ← takeNumber 2 rest
    let (day, rest) ← takeNumber 2 (← takeHyphen separated rest)
    if rest.isEmpty then some ⟨year, month, day⟩ else none

/-! ## The time -/

/-- Whether nothing follows. -/
def isEnd : List Char → Bool
  | [] => true
  | c :: _ => c == '\x00'

/-- Hours, minutes, seconds and microseconds. The part is clean if the scanner took in all of
it. -/
structure Scan where
  fields : List Nat
  micros : Nat
  clean : Bool

def Scan.field (s : Scan) (i : Nat) : Nat := s.fields[i]?.getD 0

/-- Microseconds since the start of the day or of the offset. -/
def Scan.total (s : Scan) : Nat :=
  ((s.field 0 * 60 + s.field 1) * 60 + s.field 2) * 1000000 + s.micros

/-- The fraction of a second. Six digits count and further ones are skipped. -/
def scanFraction (fields : List Nat) (s : List Char) : Option Scan := do
  let (n, rest) ← takeNumber (min 6 s.length) s
  some ⟨fields, n * Nat.pow 10 (6 - s.length), isEnd (rest.dropWhile Char.isDigit)⟩

/-- Two-digit fields, hours first, of which `rounds` are still possible. Whether colons stand
between them is known after the first one. -/
def scanFields (colons : Option Bool) (fields : List Nat) :
    (rounds : Nat) → List Char → Option Scan
  | 0, s => scanFraction fields s
  | rounds + 1, s => do
    let (n, rest) ← takeNumber 2 s
    let fields := fields ++ [n]
    match rest with
    | [] => some ⟨fields, 0, true⟩
    | c :: after =>
      let colons := colons.getD (c == ':')
      if after.isEmpty then some ⟨fields, 0, isEnd [c]⟩
      else if colons && c == ':' then scanFields (some colons) fields rounds after
      else if c = '.' ∨ c = ',' then scanFraction fields after
      else if !colons then scanFields (some colons) fields rounds rest
      else none

def scan (s : List Char) : Option Scan := scanFields none [] 3 s

/-- The part before the first mark of an offset, and the mark with what follows it. -/
def cutAtOffset (s : List Char) : List Char × List Char :=
  let plain := fun c => c != '+' && c != '-' && c != 'Z'
  (s.takeWhile plain, s.dropWhile plain)

/-- The microseconds since midnight, and the offset if one is given. An offset of less than a
second is none, and one of a day or more is refused. -/
def readTime (s : List Char) : Option (Nat × Option Int) := do
  let (clock, zone) := cutAtOffset s
  let scanned ← scan clock
  if 24 ≤ scanned.field 0 ∨ 60 ≤ scanned.field 1 ∨ 60 ≤ scanned.field 2 then none
  else
    match zone with
    | [] => if scanned.clean then some (scanned.total, none) else none
    | 'Z' :: rest => if isEnd rest then some (scanned.total, some 0) else none
    | sign :: rest =>
      let offset ← scan rest
      let size : Int := offset.total
      if !offset.clean ∨ dayLength ≤ size then none
      else if size < second then some (scanned.total, some 0)
      else some (scanned.total, some (if sign = '-' then -size else size))

/-! ## The whole text -/

/-- The clock reading that bytes spell. -/
def readBytes (s : List Char) : Option Moment := do
  let stop ← dateEnd s
  let date ← readDate (s.take stop)
  let (time, offset) ← match s.drop stop with
    | [] => some (0, none)
    | mark :: _ => readTime (s.drop (stop + widthFrom mark))
  if date.IsValid then
    some ⟨((date.number : Int) - epochDay) * dayLength + time, offset⟩
  else none

/-- The text with `T` for the first half of a surrogate pair that stands where a date may end. -/
def replaceHalf (s : List Char) : List Char :=
  match [7, 8, 10].find? fun i => (s[i]?.bind half?).isSome with
  | some i => s.set i 'T'
  | none => s

/-- The clock reading that a text in ISO 8601 notation stands for. -/
def readIso (s : List Char) : Option Moment :=
  let s := replaceHalf s
  if s.length < 7 ∨ !isStorable s then none else readBytes (bytes s)

end TypingTrace.Time
