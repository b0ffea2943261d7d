import TypingTrace.Event.Filter
import TypingTrace.Event.Wire
import TypingTrace.Json.Reader
import TypingTrace.Text.Lines

/-!
# Reading logs

Every line that is not blank should hold a value in JSON. A line that does not is skipped with a
warning that gives its number in the file and what is wrong with it; one that goes beyond a limit
makes the whole log unreadable. An export of events is a log of which every value should be a row;
one that is not is skipped with a warning that gives its number among the values, and the rows are
put in the order of their times.
-/

namespace TypingTrace.Log

open Text

/-- The warning about a numbered line that is no JSON. -/
def malformedWarning (name : String) (n : Nat) (complaint : String) : String :=
  "Warning: Malformed JSON at " ++ name ++ ":" ++ natText n ++ ": " ++ complaint

/-- The values of numbered lines, and a warning for each malformed one. A line beyond a limit
ends the reading. -/
def readLines (name : String) : List (String × Nat) → Except Fault (List Value × List String)
  | [] => .ok ([], [])
  | (line, n) :: rest =>
    let line := strip line
    if line = "" then readLines name rest
    else match Json.readJson line with
      | .ok v => do
        let (values, warnings) ← readLines name rest
        return (v :: values, warnings)
      | .error (.beyondLimit f) => .error f
      | .error rejection => do
        let (values, warnings) ← readLines name rest
        return (values, malformedWarning name n (rejection.text line) :: warnings)

/-- The values of a log, and a warning for each malformed line. -/
def readLog (name text : String) : Except Fault (List Value × List String) :=
  readLines name ((lines text).zipIdx 1)

/-- Whether an entry is an object with a given value in a field. -/
def hasField (key : String) (v : Value) : Value → Bool
  | .object fields => (Fields.get key fields).equals v
  | _ => false

/-- The rows among numbered values, and a warning for each value that is none. -/
def readRows (name : String) : List (Value × Nat) → List Row × List String
  | [] => ([], [])
  | (v, n) :: rest =>
    let (rows, warnings) := readRows name rest
    match Row.ofWire v with
    | .ok r => (r :: rows, warnings)
    | .error f =>
      (rows, ("Warning: Skipping malformed event #" ++ natText n ++ " in " ++ name ++ ": " ++
        f.text) :: warnings)

/-- The rows of an export in the order of their times, and all warnings. -/
def readEvents (name text : String) : Except Fault (List Row × List String) := do
  let (values, warnings) ← readLog name text
  let (rows, more) := readRows name (values.zipIdx 1)
  return (Row.inOrder rows, warnings ++ more)

/-- The page of an export that a filter admits, where no owner is known. -/
def readFiltered (name text : String) (f : Filter) : Except Fault (List Row × List String) := do
  let (rows, warnings) ← readEvents name text
  return (← f.apply (fun _ => .null) rows, warnings)

end TypingTrace.Log
