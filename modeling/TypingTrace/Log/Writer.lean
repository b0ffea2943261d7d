import TypingTrace.Json.Printer
import TypingTrace.Log.Disk
import TypingTrace.Time.Wire
import TypingTrace.Value.Order

/-!
# Writing logs

A log has one entry a line, each an object in JSON. A plain writer appends entries at once. A
buffered writer (`Buffered`) completes an entry with the time at which it was logged, keeps it, and
writes all that it keeps when there are enough, when the last writing is long enough ago, or when
it is told to. Where the file cannot be opened it warns and keeps everything.

An entry with an integer of too many digits has no line, and a line with half of a surrogate pair
cannot be stored. The lines before it are written, and the fault is that of the line.
-/

namespace TypingTrace.Log

open Time Text

/-! ## Lines -/

/-- The fault of storing a text, if there is one. -/
def storingFault? (text : String) : Option Fault :=
  (halves? text.toList).map fun (place, half, length) => .loneHalves place half length

/-- The line of an entry. -/
def entryLine (entry : Fields) : Except Fault String := do
  let line := (← Json.print .line (.object entry)) ++ "\n"
  (storingFault? line).elim (.ok line) .error

/-- The lines of entries up to the first that cannot be stored, and the fault of that one. -/
def entryLines : List Fields → String × Except Fault Unit
  | [] => ("", .ok ())
  | entry :: rest =>
    match entryLine entry with
    | .error f => ("", .error f)
    | .ok line =>
      let (text, result) := entryLines rest
      (line ++ text, result)

/-- The disk with entries added at the end of a log. Without entries the file is not touched. -/
def appendEntries (path : String) (entries : List Fields) (d : Disk) : Except Fault Unit × Disk :=
  if entries.isEmpty then (.ok (), d)
  else
    let (text, result) := entryLines entries
    match d.append path text with
    | .ok d => (result, d)
    | .error f => (.error f, d)

/-- The path of a log in its normal form. The names of the directories above it have to be possible
ones. -/
def logPath (path : String) : Except Fault String :=
  if (directoriesOf path).any fun name => name.toList.contains '\x00' then .error .nullInPath
  else .ok (normalPath path)

/-! ## Buffers -/

/-- An entry with the time at which it was logged, unless it has one. -/
def complete (now : Clock) (entry : Fields) : Fields :=
  if entry.has "logged_at" then entry else entry ++ [("logged_at", .text now.stamp.iso)]

structure Buffered where
  path : String
  /-- The number of entries that are written together. -/
  batchSize : Value
  /-- Seconds after which entries are written; none of it if not positive. -/
  flushInterval : Value
  buffer : List Fields := []
  lastFlush : Clock

namespace Buffered

/-- A writer with nothing to write yet. -/
def start (path : String) (batchSize flushInterval : Value) (now : Clock) :
    Except Fault Buffered := do
  return { path := ← logPath path, batchSize, flushInterval, lastFlush := now }

/-- Whether the last writing is long enough ago. -/
def isOverdue (now : Clock) (w : Buffered) : Except Fault Bool := do
  if ← w.flushInterval.compare .gt (.int 0) then
    (Value.float (now.since w.lastFlush)).compare .gt w.flushInterval
  else return false

/-- Whether the buffer is to be written after an entry was added. -/
def isDue (now : Clock) (w : Buffered) : Except Fault Bool := do
  if ← (Value.int w.buffer.length).compare .ge w.batchSize then return true
  w.isOverdue now

/-- Whether a fault lies in the file rather than in what is written. -/
def isOfFile : Fault → Bool
  | .isDirectory _ | .longName _ => true
  | _ => false

/-- Writes the buffer. Where that fails, everything stays as it is. A fault that lies in the file is
a warning and no more. -/
def flush (now : Clock) (w : Buffered) (d : Disk) :
    Except Fault Unit × Buffered × Disk × List String :=
  if w.buffer.isEmpty then (.ok (), w, d, [])
  else match appendEntries w.path w.buffer d with
    | (.ok (), d) => (.ok (), { w with buffer := [], lastFlush := now }, d, [])
    | (.error f, d) =>
      if isOfFile f then
        (.ok (), w, d, ["Warning: Failed to flush batch to " ++ w.path ++ ": " ++ f.text])
      else (.error f, w, d, [])

/-- Adds an entry, and writes the buffer if that is due. -/
def append (now : Clock) (entry : Fields) (w : Buffered) (d : Disk) :
    Except Fault Unit × Buffered × Disk × List String :=
  let w := { w with buffer := w.buffer ++ [complete now entry] }
  match w.isDue now with
  | .error f => (.error f, w, d, [])
  | .ok false => (.ok (), w, d, [])
  | .ok true => w.flush now d

/-- Adds entries one after the other, up to the first that cannot be added. -/
def appendAll (now : Clock) :
    List Fields → Buffered → Disk → Except Fault Unit × Buffered × Disk × List String
  | [], w, d => (.ok (), w, d, [])
  | entry :: rest, w, d =>
    match w.append now entry d with
    | (.error f, w, d, warnings) => (.error f, w, d, warnings)
    | (.ok (), w, d, warnings) =>
      let (result, w, d, more) := appendAll now rest w d
      (result, w, d, warnings ++ more)

end Buffered

end TypingTrace.Log
