import TypingTrace.CommandLine.Arguments
import TypingTrace.Engine.Basic
import TypingTrace.Log.Path
import TypingTrace.Log.Reader
import TypingTrace.Report.Basic

/-!
# The command line

The program reads an export of events, computes the typing metrics of those that pass the filters,
and prints a report. It ends with 2 if the arguments are refused, the file is missing or the filters
are invalid, with 1 if a calculator failed and the check is strict, and with 0 otherwise.
-/

namespace TypingTrace.CommandLine

open Time Log Report

/-- What the program leaves behind. -/
structure Ending where
  status : Nat
  /-- What it printed. -/
  printed : String := ""
  /-- The lines it wrote to the error channel. -/
  complaints : List String := []
  /-- The texts that it added to files. -/
  written : List (String × String) := []

/-- What a path leads to. -/
inductive Found where
  | nothing
  | file (text : String)
  | directory
  /-- A name that no file can have, in a directory that is there. -/
  | longName

/-- What a path leads to where there are only given files, the directories above them, and those
that a path cannot but lead to. -/
def Found.among (files : List (String × String)) (path : String) : Found :=
  let known := files.map fun (name, text) => (normalPath name, text)
  let isDirectory (path : String) :=
    endsInDirectory path || known.any fun (name, _) => (path ++ "/").isPrefixOf name
  match known.find? fun (name, _) => name == path with
  | some (_, text) => file text
  | none =>
    if hasLongName path then if isDirectory (shortPart path) then longName else nothing
    else if isDirectory path then directory
    else nothing

/-- The path of the export. -/
def Arguments.path (a : Arguments) : String := normalPath (a.file.getD "")

/-- The stamp that an option names, if it is given and not empty. -/
def timeOption : Option String → Except Fault (Option Stamp)
  | none | some "" => .ok none
  | some s => (Stamp.ofWire (.text s)).map some

def textOption (s : Option String) : Value := (s.map Value.text).getD .null

/-- The filter that the arguments ask for. -/
def filterOf (a : Arguments) : Except Fault Filter := do
  let start ← timeOption a.start
  let stop ← timeOption a.stop
  let kinds := (a.kinds.map fun l => Value.list (l.map .text)).getD .null
  Filter.check (textOption a.project) (textOption a.session) .null start stop kinds .null .null

/-- The metrics that are shown. -/
def shown (a : Arguments) : Selection :=
  match a.metrics with
  | some ids => some (ids.map .text)
  | none => if a.defaults then some (shownFirst.map .text) else none

/-- The report on a run, with the line that a report in Markdown ends with. -/
def report (a : Arguments) (now : Clock) (count : Nat) (r : Registry) (run : Run) :
    Except Fault String := do
  let analytics : Analytics := run.values
  if a.format = "json" then
    return (← json analytics (some r) (shown a) true) ++ "\n"
  else
    let text ← markdown now.stamp "Typing Analytics" analytics r (shown a)
    return text ++ "\n_" ++ Text.natText count ++ " events analyzed_\n"

/-- Analyses the text of an export. -/
def analyse (s : Settings) (now : Clock) (a : Arguments) (f : Filter) (text : String) :
    Except Fault Ending := do
  let (rows, warnings) ← readFiltered a.path text f
  let registry := typingRegistry s.thresholds
  let engine ← Engine.ofSettings s (some registry) .null .null none now
  let (run, engine, d, more) := engine.run now (rows.map Entry.event) none {}
  let (closed, _, d, last) := engine.close now d
  closed
  let printed ← report a now rows.length registry run
  let status := if a.strict && !run.failures.isEmpty then 1 else 0
  return { status, printed, complaints := warnings ++ more ++ last, written := d.files }

/-- Runs the program on arguments that were accepted, given what their path leads to. -/
def run (s : Settings) (now : Clock) (a : Arguments) (found : Found) : Except Fault Ending :=
  match found with
  | .longName => .error (.longName a.path)
  | .nothing => .ok { status := 2, complaints := ["Error: Event file not found: " ++ a.path] }
  | found =>
    match filterOf a with
    | .error f => .ok { status := 2, complaints := ["Error: Invalid filters: " ++ f.text] }
    | .ok f =>
      match found with
      | .file text => analyse s now a f text
      | _ => .error (.isDirectory a.path)

end TypingTrace.CommandLine
