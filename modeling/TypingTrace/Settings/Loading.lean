import TypingTrace.Json.Reader
import TypingTrace.Settings.Basic

/-!
# Loading settings

Three layers make up the settings: the defaults, a file laid over them, and five environment
variables that override single settings. A file that holds no object is ignored with a warning, as
is a variable that should hold a number and does not. A variable cannot be applied where the file
put something other than an object in the place of its section.
-/

namespace TypingTrace

/-- Environment variables by name. -/
abbrev Environment := List (String × String)

def Environment.get? (name : String) (env : Environment) : Option String :=
  (env.find? fun (n, _) => n == name).map (·.2)

namespace Settings

/-! ## The file -/

/-- The defaults with a file laid over them, or why the file holds no object. -/
def ofText (text : String) : Except String Settings :=
  match Json.readJson text with
  | .ok (.object fields) => .ok ⟨Value.mergeFields defaults.tree fields⟩
  | .ok v => .error (Fault.noAttribute v.typeName "items").text
  | .error rejection => .error (rejection.text text)

/-- The settings of a file, if there is one, and the warning that it was ignored. -/
def ofFile (name : String) : Option String → Settings × List String
  | none => (defaults, [])
  | some text =>
    match ofText text with
    | .ok s => (s, [])
    | .error reason =>
      (defaults, ["Warning: Failed to load config from " ++ name ++ ": " ++ reason])

/-! ## The environment -/

/-- The variables that hold numbers, with the settings they override. -/
def numericVariables : List (String × String × String) := [
  ("TYPING_ANALYTICS_PAUSE_MS", "thresholds", "pause_ms"),
  ("TYPING_ANALYTICS_BURST_MS", "thresholds", "burst_ms"),
  ("TYPING_ANALYTICS_CALCULATOR_TIMEOUT_SEC", "engine", "calculator_timeout_sec")]

def switchVariable : String := "TYPING_ANALYTICS_FAILURE_LOG_ENABLED"

def pathVariable : String := "TYPING_ANALYTICS_FAILURE_LOG_PATH"

/-- The names of all variables. -/
def variableNames : List String := numericVariables.map (·.1) ++ [switchVariable, pathVariable]

/-- The fault of reading a field of something that is no object. -/
def subscriptFault (v : Value) : Fault :=
  match v with
  | .list _ => .listIndex
  | v => if v.asText.isSome then .textIndex else .notSubscriptable v.typeName

/-- The value with a new one in a field. -/
def assign (name : String) (value : Value) : Value → Except Fault Value
  | .object fields => .ok (.object (Fields.set name value fields))
  | v => .error v.assignmentFault

/-- The object with one of its fields changed. -/
def within (name : String) (change : Value → Except Fault Value) : Value → Except Fault Value
  | .object fields => do
    return .object (Fields.set name (← change (Fields.get name fields)) fields)
  | v => .error (subscriptFault v)

/-- The settings after a change of the whole tree. -/
def changed (s : Settings) (change : Value → Except Fault Value) : Except Fault Settings := do
  match ← change (.object s.tree) with
  | .object tree => return ⟨tree⟩
  | _ => return s

/-- The settings after one numeric variable, and the warning that it was ignored. -/
def applyNumeric (env : Environment) (s : Settings) :
    String × String × String → Except Fault Settings × List String
  | (numeric, part, name) =>
    match env.get? numeric with
    | none => (.ok s, [])
    | some text =>
      match readFloat text with
      | none => (.ok s, ["Warning: Ignoring non-numeric " ++ numeric])
      | some x => (s.changed (within part (assign name (.float x))), [])

/-- Numeric variables one after the other, up to the first that cannot be applied. -/
def applyNumerics (env : Environment) (s : Settings) :
    List (String × String × String) → Except Fault Settings × List String
  | [] => (.ok s, [])
  | v :: rest =>
    match applyNumeric env s v with
    | (.error f, warnings) => (.error f, warnings)
    | (.ok s, warnings) =>
      let (result, more) := applyNumerics env s rest
      (result, warnings ++ more)

/-- The words that switch a feature on. -/
def isOn (text : String) : Bool :=
  ["true", "1", "yes"].contains (String.ofList (text.toList.map Char.toLower))

/-- The settings after the two variables of the failure log. -/
def applyFailureLog (env : Environment) (s : Settings) : Except Fault Settings := do
  let setting (name : String) (value : Value) (s : Settings) :=
    s.changed (within "engine" (within "failure_log" (assign name value)))
  let s ← match env.get? switchVariable with
    | some text => setting "enabled" (.bool (isOn text)) s
    | none => pure s
  match env.get? pathVariable with
  | some text => setting "log_path" (.text text) s
  | none => pure s

/-- The settings after all variables, and the warnings about those that were ignored. -/
def applyEnvironment (env : Environment) (s : Settings) : Except Fault Settings × List String :=
  let (result, warnings) := applyNumerics env s numericVariables
  (result.bind (applyFailureLog env), warnings)

/-! ## All layers -/

/-- The settings from defaults, file and environment, with all warnings. -/
def load (name : String) (file : Option String) (env : Environment) :
    Except Fault Settings × List String :=
  let (s, warnings) := ofFile name file
  let (result, more) := applyEnvironment env s
  (result, warnings ++ more)

end Settings

/-- Settings that are loaded when first asked for. After a load that failed nothing is loaded. -/
structure Configuration where
  loaded : Option Settings
  env : Environment

namespace Configuration

/-- The configuration a program starts with. -/
def initial : Configuration := ⟨some Settings.defaults, []⟩

/-- Loads a file, unless settings are loaded already. -/
def load (name : String) (file : Option String) (c : Configuration) :
    Except Fault Settings × Configuration × List String :=
  match c.loaded with
  | some s => (.ok s, c, [])
  | none =>
    match Settings.load name file c.env with
    | (.ok s, warnings) => (.ok s, { c with loaded := some s }, warnings)
    | (.error f, warnings) => (.error f, c, warnings)

/-- Loads a file whether or not settings are loaded. -/
def reload (name : String) (file : Option String) (c : Configuration) :
    Except Fault Settings × Configuration × List String :=
  load name file { c with loaded := none }

/-- The settings, from the defaults and the environment alone if none are loaded. -/
def settings (c : Configuration) : Except Fault Settings × Configuration × List String :=
  c.load "" none

/-- Reads one setting; a given value stands for one that is missing or null. -/
def get (key : String) (fallback : Value) (c : Configuration) :
    Except Fault Value × Configuration × List String :=
  let (result, c, warnings) := c.settings
  (result.map (Settings.get key fallback), c, warnings)

/-- Sets one setting. What a refused attempt has changed is kept. -/
def set (key : String) (value : Value) (c : Configuration) :
    Except Fault Unit × Configuration × List String :=
  match c.settings with
  | (.error f, c, warnings) => (.error f, c, warnings)
  | (.ok s, c, warnings) =>
    let (result, s) := s.set key value
    (result, { c with loaded := some s }, warnings)

end Configuration

end TypingTrace
