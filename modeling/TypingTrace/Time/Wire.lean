import TypingTrace.Fault
import TypingTrace.Time.IsoReader

/-!
# Times on the wire

A time is sent as milliseconds since 1970, as text in ISO 8601 notation, or as a clock reading.

**Milliseconds** (`microsOf`). The number is divided by a thousand in double precision and split
into whole seconds and a signed rest; the rest is scaled to microseconds, again in double
precision, and rounded to the nearest one, a tie to the even.

**Text.** The mark `Z` of universal time is written out as an offset of zero wherever it stands,
before the text is read.

**Clocks.** A running clock counts seconds since 1970 in double precision. Lengths of time are
differences of what it counts; a stamp of the moment is what it counts, rounded to the nearest
microsecond.
-/

namespace TypingTrace.Time

open Text

/-- The microseconds that a number of seconds is rounded to. -/
def microsOfSeconds (seconds : Rat) : Int :=
  let whole := cut seconds
  whole * second + roundEven (roundBinary ((seconds - whole) * 1000000))

/-- The microseconds that a number of milliseconds is rounded to. -/
def microsOf (milliseconds : Rat) : Int := microsOfSeconds (roundBinary (milliseconds / 1000))

/-- The stamp of a number of milliseconds, if the calendar has it. -/
def Stamp.ofMilliseconds? (milliseconds : Rat) : Option Stamp :=
  let micros := microsOf milliseconds
  if InCalendar micros then some (.ofInstant micros) else none

/-- The text with every `Z` written out. -/
def writeOutZ (s : List Char) : List Char :=
  s.flatMap fun c => if c = 'Z' then "+00:00".toList else [c]

/-- The stamp that a text stands for. -/
def Stamp.ofText? (s : String) : Option Stamp := (readIso (writeOutZ s.toList)).map Moment.toStamp

/-- The stamp that a value stands for. A truth value is no number here, and of the scalars only a
double counts as one. -/
def Stamp.ofValue? : Value → Option Stamp
  | .moment m => some m.toStamp
  | .int n => ofMilliseconds? (roundBinary n)
  | .float x => (exactOf x).bind ofMilliseconds?
  | .scalar (.float64 x) => (exactOf x).bind ofMilliseconds?
  | v => v.asText.bind ofText?

/-- The stamp that a value stands for, or the fault of having none. -/
def Stamp.ofWire (v : Value) : Except Fault Stamp :=
  match ofValue? v with
  | some t => .ok t
  | none => .error (.invalidTime v)

/-- The stamp of a value that counts as true, and none of any other. -/
def Stamp.ofWireIfAny (v : Value) : Except Fault (Option Stamp) :=
  if v.truthy then (Stamp.ofWire v).map some else .ok none

/-! ## Clocks -/

structure Clock where
  /-- Seconds since midnight of 1 January 1970, in universal time. -/
  seconds : Float

namespace Clock

/-- The stamp of the moment. -/
def stamp (now : Clock) : Stamp :=
  .ofInstant (((exactOf now.seconds).map microsOfSeconds).getD 0)

/-- The seconds since an earlier moment. -/
def since (now earlier : Clock) : Float := now.seconds - earlier.seconds

/-- The clock after a number of seconds. -/
def advance (now : Clock) (seconds : Float) : Clock := ⟨now.seconds + seconds⟩

end Clock

end TypingTrace.Time
