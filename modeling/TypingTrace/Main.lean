import Std.Time.DateTime.Timestamp
import TypingTrace.CommandLine.Basic
import TypingTrace.Settings.Loading

/-!
# The program

Reads the arguments, the environment and the files, runs the analysis, and writes what it leaves
behind.
-/

namespace TypingTrace

open Time CommandLine

namespace Program

/-- The path of the file of settings. -/
def settingsPath : String := "config/analytics_config.json"

/-- What a path leads to. -/
def look (path : String) : IO Found := do
  try
    return .file (← IO.FS.readFile path)
  catch
    | .noFileOrDirectory .. => return .nothing
    | .inappropriateType .. => return .directory
    | .invalidArgument .. => return .longName
    | e => throw e

/-- The text of a file, if there is one. -/
def textOf? (path : String) : IO (Option String) := do
  match ← look path with
  | .file text => return some text
  | _ => return none

/-- The variables of the environment that settings are taken from. -/
def environment : IO Environment :=
  Settings.variableNames.filterMapM fun name => do
    return (← IO.getEnv name).map fun text => (name, text)

/-- The wall clock. -/
def now : IO Clock := do
  let time ← Std.Time.Timestamp.now
  return ⟨Float.ofInt time.toNanosecondsSinceUnixEpoch.val / 1000000000.0⟩

/-- Adds text at the end of a file, in a directory that is created if it is missing. -/
def addTo (path text : String) : IO Unit := do
  let above := Log.directoriesOf path
  if !above.isEmpty then
    IO.FS.createDirAll (Log.rootOf path.toList ++ String.intercalate "/" above)
  IO.FS.withFile path .append fun h => h.putStr text

/-- Writes what the program leaves behind. -/
def finish (e : Ending) : IO UInt32 := do
  for line in e.complaints do IO.eprintln line
  for (path, text) in e.written do addTo path text
  IO.print e.printed
  return e.status.toUInt32

/-- Runs the program with accepted arguments. -/
def run (a : Arguments) : IO UInt32 := do
  let (settings, warnings) :=
    Settings.load settingsPath (← textOf? settingsPath) (← environment)
  for line in warnings do IO.eprintln line
  let time ← now
  let found ← look a.path
  match settings.bind fun s => CommandLine.run s time a found with
  | .ok e => finish e
  | .error f =>
    IO.eprintln (f.kind ++ ": " ++ f.text)
    return 1

end Program

end TypingTrace

open TypingTrace CommandLine in
def main (args : List String) : IO UInt32 := do
  match readArguments args with
  | .ok a => Program.run a
  | .error .helpWanted =>
    IO.print usage
    return 0
  | .error r =>
    IO.eprintln r.line
    return 2
