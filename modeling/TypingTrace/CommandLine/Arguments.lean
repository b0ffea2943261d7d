import TypingTrace.Text.Quoted
import TypingTrace.Text.Lines

/-!
# Arguments of the command line

The program takes one file and a number of options. A word that starts with a hyphen is an option,
which may be shortened as long as only one option starts so, and an option's value is the next word
or follows an equals sign. A word with a blank in it, a negative number, a lone hyphen and the empty
word are no options, and after two hyphens no word is one.

All words are classified before any of them is used, so that an ambiguous one is reported first;
then values that are missing or refused, in order; then a missing file; and last the words that had
no use.
-/

namespace TypingTrace.CommandLine

open Text

/-! ## Options -/

inductive OptionName where
  | help | project | session | start | stop | kind | metric | defaults | format | strict
  deriving DecidableEq

namespace OptionName

/-- How an option is written in messages. -/
def title : OptionName → String
  | help => "-h/--help"
  | project => "--project-id"
  | session => "--session-id"
  | start => "--start"
  | stop => "--end"
  | kind => "--event-type"
  | metric => "--metric"
  | defaults => "--defaults"
  | format => "--format"
  | strict => "--strict"

/-- Whether an option takes a value. -/
def takesValue : OptionName → Bool
  | help | defaults | strict => false
  | _ => true

/-- The spellings of all options, in order. -/
def spellings : List (String × OptionName) :=
  ("-h", help) :: ("--help", help) ::
    [project, session, start, stop, kind, metric, defaults, format, strict].map fun o =>
      (o.title, o)

def ofSpelling? (s : String) : Option OptionName :=
  (spellings.find? fun (spelling, _) => spelling == s).map (·.2)

end OptionName

/-- What was asked for. -/
structure Arguments where
  file : Option String := none
  project : Option String := none
  session : Option String := none
  start : Option String := none
  stop : Option String := none
  kinds : Option (List String) := none
  metrics : Option (List String) := none
  defaults : Bool := false
  format : String := "markdown"
  strict : Bool := false

/-- Why the arguments were refused, or that help was asked for. -/
inductive Refusal where
  | ambiguous (word : String) (spellings : List String)
  | expectedValue (o : OptionName)
  | unusedValue (o : OptionName) (v : String)
  | invalidChoice (o : OptionName) (v : String) (choices : List String)
  | missingFile
  | unrecognized (words : List String)
  | helpWanted

namespace Refusal

def argument (o : OptionName) (message : String) : String :=
  "argument " ++ o.title ++ ": " ++ message

def text : Refusal → String
  | ambiguous word spellings =>
    "ambiguous option: " ++ word ++ " could match " ++ String.intercalate ", " spellings
  | expectedValue o => argument o "expected one argument"
  | unusedValue o v => argument o ("ignored explicit argument " ++ quoted v)
  | invalidChoice o v choices =>
    argument o ("invalid choice: " ++ quoted v ++ " (choose from " ++
      String.intercalate ", " (choices.map quoted) ++ ")")
  | missingFile => "the following arguments are required: EVENTS"
  | unrecognized words => "unrecognized arguments: " ++ String.intercalate " " words
  | helpWanted => ""

/-- The line that reports a refusal; help that was asked for is no error. -/
def line (r : Refusal) : String :=
  match r with
  | helpWanted => ""
  | r => "typing-analytics: error: " ++ r.text

/-- The status that the program ends with. -/
def status : Refusal → Nat
  | helpWanted => 0
  | _ => 2

end Refusal

/-- What the program says about itself. -/
def usage : String :=
  "usage: typing-analytics [options] EVENTS\n\noptions:\n" ++
    String.join ((OptionName.spellings.drop 1).map fun (spelling, o) =>
      "  " ++ spelling ++ (if o.takesValue then " VALUE\n" else "\n"))

/-! ## Words -/

/-- A word by its use: a plain one, the two hyphens that end the options, an option with the value
that is written into it, the letter that asks for help with what follows it, or an unknown
option. -/
inductive Word where
  | plain
  | marker
  | option (o : OptionName) (value : Option String)
  | letter (after : List Char)
  | unknown

/-- A word cut at its first equals sign. -/
def cutAtEquals (s : List Char) : List Char × Option (List Char) :=
  match s.dropWhile (· != '=') with
  | [] => (s, none)
  | _ :: value => (s.takeWhile (· != '='), some value)

/-- An option as it is spelled, with the value that is written into the word. -/
def Word.ofSpelling (spelling : String) (o : OptionName) (value : Option (List Char)) : Word :=
  match value with
  | some letters =>
    if spelling.length = 2 then letter letters else option o (some (String.ofList letters))
  | none => option o none

/-- The uses that a word may be short for, with the spellings of the options. -/
def completions (word : List Char) : List (Word × String) :=
  match word with
  | '-' :: '-' :: _ =>
    let (written, value) := cutAtEquals word
    (OptionName.spellings.filter fun (spelling, _) => written.isPrefixOf spelling.toList).map
      fun (spelling, o) => (.ofSpelling spelling o value, spelling)
  | _ =>
    OptionName.spellings.filterMap fun (spelling, o) =>
      if spelling.toList = word.take 2 then some (.ofSpelling spelling o (word.drop 2), spelling)
      else if word.isPrefixOf spelling.toList then some (.ofSpelling spelling o none, spelling)
      else none

/-- A word without the line feed that it may end in. -/
def dropLineFeed (word : List Char) : List Char :=
  if word.getLast? = some '\n' then word.dropLast else word

/-- Whether a word is a negative number without exponent. A line feed may follow. -/
def isNegativeNumber (word : List Char) : Bool :=
  match dropLineFeed word with
  | '-' :: rest =>
    let whole := rest.takeWhile isDecimal
    match rest.dropWhile isDecimal with
    | [] => !whole.isEmpty
    | '.' :: fraction => !fraction.isEmpty && fraction.all isDecimal
    | _ => false
  | _ => false
where
  isDecimal (c : Char) : Bool := (digit? c).isSome

/-- The use of a word that starts with a hyphen and is no option as it stands. -/
def classifyOption (word : List Char) : Except Refusal Word :=
  match completions word with
  | [(use, _)] => .ok use
  | [] => .ok (if isNegativeNumber word || word.contains ' ' then .plain else .unknown)
  | several => .error (.ambiguous (String.ofList word) (several.map (·.2)))

/-- The use of a word before the options end. -/
def classify (s : String) : Except Refusal Word :=
  match s.toList with
  | '-' :: c :: rest =>
    match OptionName.ofSpelling? s with
    | some o => .ok (.option o none)
    | none =>
      match cutAtEquals ('-' :: c :: rest) with
      | (written, some value) =>
        match OptionName.ofSpelling? (String.ofList written) with
        | some o => .ok (.ofSpelling (String.ofList written) o value)
        | none => classifyOption ('-' :: c :: rest)
      | (_, none) => classifyOption ('-' :: c :: rest)
  | _ => .ok .plain

/-- All words with their uses. -/
def classifyAll : List String → Except Refusal (List (Word × String))
  | [] => .ok []
  | "--" :: rest => .ok ((.marker, "--") :: rest.map fun s => (.plain, s))
  | s :: rest => do return (← classify s, s) :: (← classifyAll rest)

/-! ## Using the words -/

/-- The formats of a report. -/
def formats : List String := ["markdown", "json"]

/-- The arguments with one more option. -/
def apply (o : OptionName) (v : String) (a : Arguments) : Except Refusal Arguments :=
  match o with
  | .help => .error .helpWanted
  | .project => .ok { a with project := some v }
  | .session => .ok { a with session := some v }
  | .start => .ok { a with start := some v }
  | .stop => .ok { a with stop := some v }
  | .kind => .ok { a with kinds := some (a.kinds.getD [] ++ [v]) }
  | .metric => .ok { a with metrics := some (a.metrics.getD [] ++ [v]) }
  | .defaults => .ok { a with defaults := true }
  | .format =>
    if formats.contains v then .ok { a with format := v }
    else .error (.invalidChoice .format v formats)
  | .strict => .ok { a with strict := true }

/-- Whether an option may stand among the words. -/
def Word.isOption : Word → Bool
  | option _ _ | letter _ | unknown => true
  | _ => false

/-- The words after the last option: the file, if it is still to come, and those without use. -/
def useRest (a : Arguments) : List (Word × String) → Arguments × List String
  | [] => (a, [])
  | words@((use, s) :: rest) =>
    match a.file, use, rest with
    | none, .marker, (_, file) :: after => ({ a with file := some file }, after.map (·.2))
    | none, .plain, (.marker, _) :: after => ({ a with file := some s }, after.map (·.2))
    | none, .plain, after => ({ a with file := some s }, after.map (·.2))
    | _, _, _ => (a, words.map (·.2))

/-- What letters after the one that asks for help lead to. They may only ask for help again, and
there has to be one. -/
def useLetters (letters : List Char) : Refusal :=
  match letters.dropWhile (· == 'h') with
  | [] => if letters.isEmpty then .unusedValue .help "" else .helpWanted
  | rest => .unusedValue .help (String.ofList rest)

/-- Goes through classified words; `unused` are those without use so far. -/
def useWords (a : Arguments) (unused : List String) :
    List (Word × String) → Except Refusal (Arguments × List String)
  | [] => .ok (a, unused)
  | words@((use, s) :: rest) =>
    if !words.any (·.1.isOption) then
      let (a, more) := useRest a words
      .ok (a, unused ++ more)
    else match use with
      | .plain | .marker =>
        match a.file with
        | none => useWords { a with file := some s } unused rest
        | some _ => useWords a (unused ++ [s]) rest
      | .unknown => useWords a (unused ++ [s]) rest
      | .letter after => .error (useLetters after)
      | .option o (some v) =>
        if o.takesValue then do useWords (← apply o v a) unused rest
        else .error (.unusedValue o v)
      | .option o none =>
        if o.takesValue then
          match rest with
          | (.plain, v) :: rest => do useWords (← apply o v a) unused rest
          | _ => .error (.expectedValue o)
        else do useWords (← apply o "" a) unused rest

/-- The arguments that the words of a command line stand for. -/
def readArguments (words : List String) : Except Refusal Arguments := do
  let (a, unused) ← useWords {} [] (← classifyAll words)
  if a.file.isNone then throw .missingFile
  if !unused.isEmpty then throw (.unrecognized unused)
  return a

end TypingTrace.CommandLine
