import TypingTrace.Time.Calendar
import TypingTrace.Text.Digit

/-!
# Points in time

**Reading of a clock** (`Moment`). The microseconds that a clock showed since midnight of
1 January 1970, and how far the clock was ahead of universal time. The offset may be unknown.

**Point in time** (`Stamp`). A reading whose offset is known. Two stamps are ordered by the
instants they stand for, whatever their offsets; a stamp is written with the offset it was read
with.
-/

namespace TypingTrace.Time

/-- Microseconds in a second. -/
def second : Int := 1000000

/-- Microseconds in a day. -/
def dayLength : Int := 86400 * second

structure Stamp where
  /-- Microseconds since midnight of 1 January 1970, as the clock showed. -/
  face : Int
  /-- Microseconds by which the clock was ahead of universal time. -/
  offset : Int
  deriving DecidableEq, Repr

structure Moment where
  face : Int
  offset : Option Int
  deriving DecidableEq, Repr

/-- The first and the last microsecond that a clock can show: years 1 to 9999. -/
def InCalendar (face : Int) : Prop :=
  -719162 * dayLength ≤ face ∧ face < 2932897 * dayLength

instance (face : Int) : Decidable (InCalendar face) := by unfold InCalendar; infer_instance

namespace Stamp

/-- Microseconds between 1 January 1970, midnight in universal time, and the stamp. -/
def instant (t : Stamp) : Int := t.face - t.offset

def ofInstant (n : Int) : Stamp := ⟨n, 0⟩

/-- Whether one stamp is not after another. -/
def le (a b : Stamp) : Bool := a.instant ≤ b.instant

def toMoment (t : Stamp) : Moment := ⟨t.face, some t.offset⟩

@[simp] theorem instant_ofInstant (n : Int) : (ofInstant n).instant = n := by
  simp [ofInstant, instant]

end Stamp

/-- A reading of unknown offset is taken as universal time. -/
def Moment.toStamp (m : Moment) : Stamp := ⟨m.face, m.offset.getD 0⟩

@[simp] theorem Stamp.toStamp_toMoment (t : Stamp) : t.toMoment.toStamp = t := rfl

/-! ## Writing -/

open Text

/-- The date that a clock shows. -/
def dateOf (face : Int) : Date := Date.ofNumber ((face.fdiv dayLength) + epochDay).toNat

/-- The microseconds since midnight that a clock shows. -/
def timeOf (face : Int) : Nat := (face.fmod dayLength).toNat

/-- Hours, minutes and seconds of a number of microseconds, and what is left. -/
def hms (micros : Nat) : Nat × Nat × Nat × Nat :=
  let seconds := micros / 1000000
  (seconds / 3600, seconds / 60 % 60, seconds % 60, micros % 1000000)

/-- The fraction of a second, where there is one. -/
def fractionText (micros : Nat) : String := if micros = 0 then "" else "." ++ padded 6 micros

/-- The date and time that a clock shows, with `mark` between them. -/
def faceText (mark : String) (face : Int) : String :=
  let d := dateOf face
  let (h, m, s, f) := hms (timeOf face)
  padded 4 d.year ++ "-" ++ padded 2 d.month ++ "-" ++ padded 2 d.day ++ mark ++
    padded 2 h ++ ":" ++ padded 2 m ++ ":" ++ padded 2 s ++ fractionText f

/-- An offset from universal time; seconds are written only if there are any. -/
def offsetText (offset : Int) : String :=
  let (h, m, s, f) := hms offset.natAbs
  let seconds := if s = 0 ∧ f = 0 then "" else ":" ++ padded 2 s ++ fractionText f
  (if offset < 0 then "-" else "+") ++ padded 2 h ++ ":" ++ padded 2 m ++ seconds

/-- A stamp in the notation of ISO 8601. -/
def Stamp.iso (t : Stamp) : String := faceText "T" t.face ++ offsetText t.offset

/-- The same with a blank between date and time, and without offset if there is none. -/
def Moment.spaced (m : Moment) : String :=
  faceText " " m.face ++ (m.offset.map offsetText).getD ""

/-- The date and time of day in whole seconds, as a report shows them. -/
def secondsText (face : Int) : String :=
  let d := dateOf face
  let (h, m, s, _) := hms (timeOf face)
  padded 4 d.year ++ "-" ++ padded 2 d.month ++ "-" ++ padded 2 d.day ++ " " ++
    padded 2 h ++ ":" ++ padded 2 m ++ ":" ++ padded 2 s

end TypingTrace.Time
