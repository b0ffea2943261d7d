import TypingTrace.Proofs.CommandLine.Filters
import TypingTrace.Proofs.Metric.Observed
import TypingTrace.Proofs.Metric.Values
import TypingTrace.Proofs.Report.Agreement

/-!
# What the command line displays

An analysis (`Analysis`) is what comes of an export: the events that pass the filter, an engine, and
what its run leaves behind. The options that choose metrics, the format or a strict check have no
part in it, so it is one for all arguments that agree in the rest (`Arguments.plain`).

**Theorem (`run_display`).** If no file has the name, or the arguments ask for no filter, the
program ends with 2 and prints nothing. Otherwise it ends in the same fault for all display options,
or else there is one analysis for all of them. Then the status is 1 if some calculator failed and
the check is strict, and 0 if not, and a report in JSON has those of all values that are asked for,
in their order. Where no failures are written to a log, only a line that goes beyond a limit of the
decoder of JSON can stand in the way of an analysis; an integer of more than 4300 digits is such a
line, and nothing catches the fault (`longNumber_raises`).

The reports are those of `Report.markdown_eq` and `Report.exists_json`, since every value of a
typing metric can be shown.
-/

namespace TypingTrace

open Time Log Report Text

/-! ## Values by ids -/

/-- What a table of the metrics of a registry has for one of them. -/
theorem Table.get?_map {definitions : List Definition} {value : Definition → Value}
    (hdistinct : (definitions.map Definition.id).Pairwise fun a b => ¬ a.same b) {d : Definition}
    (hd : d ∈ definitions) :
    Table.get? d.id (definitions.map fun d => (d.id, value d)) = some (value d) := by
  induction definitions with
  | nil => cases hd
  | cons d' rest ih =>
    obtain ⟨hnew, hrest⟩ := List.pairwise_cons.1 hdistinct
    rw [List.map_cons, Table.get?]
    rcases List.mem_cons.1 hd with rfl | hd
    · rw [if_pos d.id.same_refl]
    · rw [if_neg (hnew d.id (List.mem_map_of_mem hd)), ih hrest hd]

namespace Report

variable {r : Registry}

/-- The fields of a selection are the fields of all metrics whose ids it names. -/
theorem reportFields_selected (hids : ∀ d ∈ r.definitions, ∃ k, d.id = .text k)
    (analytics : Analytics) (s : Selection) :
    reportFields analytics (selected r s) =
      (reportFields analytics r.definitions).filter fun field => selects s (.text field.1) := by
  rw [reportFields, selected, List.filterMap_filter, reportFields, List.filter_filterMap]
  refine List.filterMap_congr fun d hd => ?_
  obtain ⟨k, hk⟩ := hids d hd
  rw [hk]
  cases hget : Table.get? (.text k) analytics with
  | none => simp
  | some v =>
    by_cases hselects : selects s (.text k) <;>
      simp [hselects, idText, Value.asText, Option.filter_some]

end Report

/-! ## Engines of the settings -/

/-- Settings under which failures are written to no log. -/
def Settings.Unlogged (s : Settings) : Prop := (s.isEnabled "engine.failure_log").truthy = false

/-- Settings under which the value of a metric that fails can be shown by any unit. -/
def Settings.Presentable (s : Settings) : Prop :=
  (s.get "engine.default_value" (.int 0)).IsShowable (.text "ratio")

theorem Value.IsShowable.any {v : Value} (h : v.IsShowable (.text "ratio")) (unit : Value) :
    v.IsShowable unit := by
  cases h with
  | int hn hratio => exact .int hn fun _ => hratio rfl
  | float hx => exact .float hx

theorem FailureLog.recordAll_absent (now : Clock) (failures : List Failure) (d : Disk) :
    FailureLog.recordAll now failures .absent d =
      (.absent, d, failures.map Failure.warning) := by
  induction failures with
  | nil => rfl
  | cons f rest ih =>
    simp only [recordAll, record, append, ih, List.append_nil, List.map_cons, List.cons_append,
      List.nil_append]

namespace Engine

/-- The engine of settings, but for its failure log. -/
theorem eq_of_ofSettings {s : Settings} {r : Registry} {now : Clock} {e : Engine}
    (h : Engine.ofSettings s (some r) .null .null none now = .ok e) : e = {
      registry := r
      defaultValue := s.get "engine.default_value" (.int 0)
      timeout := s.get "engine.calculator_timeout_sec" .null
      workers := s.get "engine.deadline_workers" (.int 4)
      log := e.log } := by
  obtain ⟨log, -, h⟩ := exists_of_bind_ok h
  obtain rfl := Except.ok.inj h
  rfl

/-- What a run of an engine that is closed after it leaves behind. -/
def runToEnd (e : Engine) (now : Clock) (events : List Entry) :
    Except Fault Unit × Run × Disk × List String :=
  let (run, e, d, warnings) := e.run now events none {}
  let (closed, _, d, last) := e.close now d
  (closed, run, d, warnings ++ last)

theorem exists_ofSettings {s : Settings} (hs : s.Unlogged) (r : Registry) (now : Clock) :
    ∃ e, Engine.ofSettings s (some r) .null .null none now = .ok e ∧ e.log = .absent := by
  have hlog : FailureLog.ofSettings s now = .ok .absent := by
    rw [FailureLog.ofSettings, hs]
    rfl
  exact ⟨_, by rw [Engine.ofSettings, hlog]; rfl, rfl⟩

/-- Nothing keeps an engine without a failure log from being closed. -/
theorem runToEnd_of_absent {e : Engine} (h : e.log = .absent) (now : Clock)
    (events : List Entry) : (e.runToEnd now events).1 = .ok () := by
  simp only [runToEnd, run, h, FailureLog.recordAll_absent, close, flush, FailureLog.flush]

end Engine

namespace CommandLine

/-! ## Arguments -/

/-- The arguments without those that only choose what is shown of an analysis. -/
def Arguments.plain (a : Arguments) : Arguments :=
  { a with metrics := none, defaults := false, format := "json", strict := false }

/-- Whether the arguments ask for a metric: for one that is named, where any are, or else for one of
those that are shown first, or for all. -/
def Arguments.shows (a : Arguments) (id : String) : Bool :=
  match a.metrics with
  | some ids => ids.contains id
  | none => !a.defaults || shownFirst.contains id

@[simp] theorem Arguments.shows_plain (a : Arguments) (id : String) : a.plain.shows id = true := rfl

theorem selects_shown (a : Arguments) (id : String) :
    selects (shown a) (.text id) = a.shows id := by
  have hnamed : ∀ ids : List String,
      selects (some (ids.map .text)) (.text id) = ids.contains id := by
    intro ids
    rw [selects, Option.map_some, Option.getD_some, List.any_map, List.contains_eq_any_beq]
    refine congrArg (List.any ids) (funext fun other => ?_)
    exact Value.same_text id other
  unfold shown Arguments.shows
  cases a.metrics with
  | some ids => exact hnamed ids
  | none =>
    cases a.defaults with
    | true => exact hnamed shownFirst
    | false => rfl

variable {a b : Arguments}

theorem path_of_plain (h : b.plain = a.plain) : b.path = a.path := by
  have hplain : ∀ c : Arguments, c.path = c.plain.path := fun _ => rfl
  rw [hplain b, h, ← hplain]

theorem filterOf_of_plain (h : b.plain = a.plain) : filterOf b = filterOf a := by
  have hplain : ∀ c : Arguments, filterOf c = filterOf c.plain := fun _ => rfl
  rw [hplain b, h, ← hplain]

/-! ## Analyses -/

/-- An analysis of the text of an export: the events that pass the filter, the engine, and what its
run leaves behind. -/
structure Analysis (s : Settings) (now : Clock) (a : Arguments) (text : String) where
  filter : Filter
  rows : List Row
  warnings : List String
  engine : Engine
  result : Run
  disk : Disk
  more : List String
  filtered : filterOf a = .ok filter
  read : readFiltered a.path text filter = .ok (rows, warnings)
  started : Engine.ofSettings s (some (typingRegistry s.thresholds)) .null .null none now =
    .ok engine
  ended : engine.runToEnd now (rows.map Entry.event) = (.ok (), result, disk, more)

/-- Without a failure log a text can be analysed, unless a line of it goes beyond a limit of the
decoder of JSON. -/
theorem exists_analysis {s : Settings} (hs : s.Unlogged) (now : Clock) (ha : ¬ a.Misfiltered)
    {text : String} (htext : ∀ line ∈ lines text, isWithinLimits line) :
    Nonempty (Analysis s now a text) := by
  obtain ⟨f, hf⟩ := exists_filterOf.2 ha
  obtain ⟨hlimit, hoffset⟩ := page_of_filterOf hf
  have hnumbered : ∀ line ∈ (lines text).zipIdx 1, isWithinLimits line.1 :=
    fun line hline => htext line.1 (List.fst_mem_of_mem_zipIdx hline)
  obtain ⟨accounts, values, haccounted⟩ := exists_accounts a.path hnumbered 1
  obtain ⟨page, hpage⟩ := exists_page (.inl (by rw [hlimit]; rfl)) (.inl (by rw [hoffset]; rfl))
    ((Row.inOrder (accounts.filterMap Account.row?)).filter fun r => f.admits .null r)
  have hread : readFiltered a.path text f = .ok (page,
      accounts.filterMap (Account.lineWarning? a.path) ++
        accounts.filterMap (Account.valueWarning? a.path)) := by
    rw [readFiltered, readEvents, readLog, haccounted.lines]
    show (f.apply (fun _ => .null) (Row.inOrder (readRows a.path (values.zipIdx 1)).1) >>= _) = _
    rw [haccounted.rows, Filter.apply, hpage]
    rfl
  obtain ⟨e, hstarted, hlog⟩ := Engine.exists_ofSettings hs (typingRegistry s.thresholds) now
  have hended := e.runToEnd_of_absent hlog now (page.map Entry.event)
  exact ⟨⟨f, page, _, e, _, _, _, hf, hread, hstarted, Prod.ext hended rfl⟩⟩

/-- The computation of a run of the program, and then its report. -/
theorem analyse_eq {s : Settings} {f : Filter} (hb : b.plain = a.plain) (now : Clock)
    (text : String) : analyse s now b f text = do
      let (rows, warnings) ← readFiltered a.path text f
      let engine ← Engine.ofSettings s (some (typingRegistry s.thresholds)) .null .null none now
      let (closed, result, d, more) := engine.runToEnd now (rows.map Entry.event)
      closed
      let printed ← report b now rows.length (typingRegistry s.thresholds) result
      return {
        status := if b.strict && !result.failures.isEmpty then 1 else 0
        printed, complaints := warnings ++ more, written := d.files } := by
  simp only [analyse, path_of_plain hb, Engine.runToEnd, List.append_assoc]
  rfl

namespace Analysis

variable {s : Settings} {now : Clock} {text : String} (x : Analysis s now a text)

/-- The events that are analysed. -/
def events : List Entry := x.rows.map Entry.event

/-- All values by the names of their metrics. -/
def fields : Fields := x.result.values.map fun (id, v) => (idText id, v)

/-- Whether some calculator fails. -/
def Fails : Prop :=
  x.rows ≠ [] ∧ ∃ d ∈ typingMetrics s.thresholds, ∃ f,
    (x.engine.invoke d x.events none).1 = .error f

theorem registry_engine : x.engine.registry = typingRegistry s.thresholds := by
  rw [Engine.eq_of_ofSettings x.started]

theorem isPrompt_engine : x.engine.registry.IsPrompt :=
  x.registry_engine ▸ isPrompt_typingRegistry _

theorem isIdle_engine : x.engine.IsIdle x.engine.pool := by
  rw [Engine.eq_of_ofSettings x.started]
  exact Engine.isIdle_none _

theorem result_eq : x.result = (x.engine.compute now x.events x.engine.registry).1 :=
  (congrArg (fun ending => ending.2.1) x.ended).symm

theorem values_result :
    x.result.values = x.engine.firstValues (typingRegistry s.thresholds) x.events := by
  rw [x.result_eq, (Engine.compute_of_idle x.isPrompt_engine x.isIdle_engine now x.events).1,
    x.registry_engine]

theorem failures_result : x.result.failures ≠ [] ↔ x.Fails := by
  have hfails := Engine.failures_compute_of_idle x.isPrompt_engine x.isIdle_engine now x.events
  have hevents : x.events ≠ [] ↔ x.rows ≠ [] := by rw [events, ne_eq, List.map_eq_nil_iff]
  have hmetrics : x.engine.registry.definitions = typingMetrics s.thresholds :=
    congrArg Registry.definitions x.registry_engine
  rw [← x.result_eq, hevents, hmetrics] at hfails
  exact hfails

/-- Every value can be shown. -/
theorem shows_result (hs : s.Presentable) :
    Shows x.result.values (typingRegistry s.thresholds) := by
  intro d hd v hv
  have hdistinct := (Registry.built_typingRegistry s.thresholds).distinct
  rw [x.values_result, Engine.firstValues, Table.get?_map hdistinct hd] at hv
  obtain rfl := Option.some.inj hv
  by_cases hempty : x.events.isEmpty
  · rw [if_pos hempty, emptyValue_typingMetrics _ d hd]
    exact .int (by decide +kernel) fun _ => by decide +kernel
  · rw [if_neg hempty]
    cases houtcome : (x.engine.firstAnswer d.calculator x.events).bind finiteNumber with
    | error f =>
      rw [Engine.valueOf, Engine.eq_of_ofSettings x.started]
      exact hs.any d.unit
    | ok n =>
      obtain ⟨v, hv, hn⟩ := exists_of_bind_ok houtcome
      refine presents_typingMetrics _ d hd x.events n ?_
      rw [Definition.outcome, Engine.answer_of_firstAnswer hv]
      exact hn

/-- The object of all values is the one that a report on all metrics has. -/
theorem fields_eq :
    x.fields = reportFields x.result.values (typingMetrics s.thresholds) := by
  have hdistinct := (Registry.built_typingRegistry s.thresholds).distinct
  rw [fields, reportFields, x.values_result, Engine.firstValues, List.map_map,
    ← List.filterMap_eq_map]
  refine List.filterMap_congr fun d hd => ?_
  rw [Table.get?_map hdistinct hd]
  rfl

/-- What is printed. -/
theorem exists_report (hs : s.Presentable) (count : Nat) (b : Arguments) :
    ∃ printed, report b now count (typingRegistry s.thresholds) x.result = .ok printed ∧
      (b.format = "json" → ∃ object, printed = object ++ "\n" ∧
        Json.print .report (.object (x.fields.filter fun field => b.shows field.1)) =
          .ok object) := by
  have hnames := exists_name_typingMetrics s.thresholds
  have hshows := x.shows_result hs
  have hfields : reportFields x.result.values (selected (typingRegistry s.thresholds) (shown b)) =
      x.fields.filter fun field => b.shows field.1 := by
    rw [reportFields_selected hnames, x.fields_eq]
    exact List.filter_congr fun field _ => selects_shown b field.1
  unfold report
  dsimp only
  split_ifs with hformat
  · obtain ⟨object, hjson, hobject⟩ := exists_json hnames hshows (shown b) true
    rw [hfields] at hobject
    exact ⟨object ++ "\n", by rw [hjson]; rfl, fun _ => ⟨object, rfl, hobject⟩⟩
  · rw [markdown_eq hshows]
    exact ⟨_, rfl, fun h => absurd h hformat⟩

/-- A run of the program on arguments that differ in nothing but what they display. -/
theorem exists_analyse (hs : s.Presentable) {b : Arguments} (hb : b.plain = a.plain) :
    ∃ status printed, analyse s now b x.filter text = .ok {
        status, printed, complaints := x.warnings ++ x.more, written := x.disk.files } ∧
      (status = 1 ↔ b.strict ∧ x.Fails) ∧ (status = 0 ∨ status = 1) ∧
      (b.format = "json" → ∃ object, printed = object ++ "\n" ∧
        Json.print .report (.object (x.fields.filter fun field => b.shows field.1)) =
          .ok object) := by
  obtain ⟨printed, hprinted, hjson⟩ := x.exists_report hs x.rows.length b
  refine ⟨if b.strict && !x.result.failures.isEmpty then 1 else 0, printed, ?_, ?_, ?_, hjson⟩
  · rw [analyse_eq hb, x.read]
    dsimp only [bind, Except.bind]
    rw [x.started]
    dsimp only
    rw [x.ended]
    dsimp only
    rw [hprinted]
    rfl
  · rw [← x.failures_result, ne_eq, ← List.isEmpty_iff]
    cases b.strict <;> cases x.result.failures.isEmpty <;> decide
  · split_ifs
    · exact .inr rfl
    · exact .inl rfl

end Analysis

/-! ## A report in JSON -/

/-- Arguments that ask for the JSON report on a file. -/
def jsonReport : Arguments := { file := some "e.jsonl", format := "json" }

theorem not_misfiltered_jsonReport : ¬ jsonReport.Misfiltered := exists_filterOf.1 ⟨_, rfl⟩

theorem presentable_defaults : Settings.defaults.Presentable :=
  .int (by decide +kernel) fun _ => by decide +kernel

/-! ## Runs of the program -/

/-- Without an analysis there is a fault, and it is the same whatever is to be displayed. -/
theorem exists_fault {s : Settings} {now : Clock} {text : String} {f : Filter}
    (hf : filterOf a = .ok f) (hnone : IsEmpty (Analysis s now a text)) :
    ∃ fault, ∀ b : Arguments, b.plain = a.plain → analyse s now b f text = .error fault := by
  cases hread : readFiltered a.path text f with
  | error fault => exact ⟨fault, fun b hb => by rw [analyse_eq hb, hread]; rfl⟩
  | ok found =>
    obtain ⟨rows, warnings⟩ := found
    cases hstarted : Engine.ofSettings s (some (typingRegistry s.thresholds)) .null .null none
      now with
    | error fault => exact ⟨fault, fun b hb => by rw [analyse_eq hb, hread, hstarted]; rfl⟩
    | ok e =>
      cases hclosed : (e.runToEnd now (rows.map Entry.event)).1 with
      | ok done =>
        exact hnone.elim ⟨f, rows, warnings, e, _, _, _, hf, hread, hstarted, Prod.ext hclosed rfl⟩
      | error fault =>
        refine ⟨fault, fun b hb => ?_⟩
        rw [analyse_eq hb, hread]
        dsimp only [bind, Except.bind]
        rw [hstarted]
        dsimp only
        rw [hclosed]

/-- **What display options can do.** The program ends with 2 where the file is missing or the
filters are invalid. Otherwise all arguments that differ from `a` in display options alone share one
fault or one analysis `x`, and the object of a JSON report is the part of `x.fields` that they ask
for; `a.plain` asks for all of it. -/
theorem run_display {s : Settings} (hs : s.Presentable) (now : Clock) :
    run s now a .nothing = .ok {
      status := 2, printed := "", complaints := ["Error: Event file not found: " ++ a.path] } ∧
    (∀ text, a.Misfiltered → ∃ complaint,
      run s now a (.file text) = .ok { status := 2, printed := "", complaints := [complaint] }) ∧
    ∀ text, ¬ a.Misfiltered →
      (s.Unlogged → (∀ line ∈ lines text, isWithinLimits line) →
        Nonempty (Analysis s now a text)) ∧
      (IsEmpty (Analysis s now a text) → ∃ fault, ∀ b : Arguments, b.plain = a.plain →
        run s now b (.file text) = .error fault) ∧
      ∀ (x : Analysis s now a text) (b : Arguments), b.plain = a.plain → ∃ status printed,
        run s now b (.file text) = .ok {
          status, printed, complaints := x.warnings ++ x.more, written := x.disk.files } ∧
        (status = 1 ↔ b.strict ∧ x.Fails) ∧ (status = 0 ∨ status = 1) ∧
        (b.format = "json" → ∃ object, printed = object ++ "\n" ∧
          Json.print .report (.object (x.fields.filter fun field => b.shows field.1)) =
            .ok object) := by
  have hrun : ∀ {f : Filter} {b : Arguments} {text : String}, filterOf a = .ok f →
      b.plain = a.plain → run s now b (.file text) = analyse s now b f text := by
    intro f b text hf hb
    unfold run
    dsimp only
    rw [filterOf_of_plain hb, hf]
  refine ⟨rfl, fun text ha => ?misfiltered, fun text ha =>
    ⟨fun hlog htext => exists_analysis hlog now ha htext, fun hnone => ?fault, fun x b hb => ?runs⟩⟩
  case misfiltered =>
    cases hfilter : filterOf a with
    | ok f => exact absurd ha (exists_filterOf.1 ⟨f, hfilter⟩)
    | error f =>
      refine ⟨"Error: Invalid filters: " ++ f.text, ?_⟩
      unfold run
      dsimp only
      rw [hfilter]
  case fault =>
    obtain ⟨f, hf⟩ := exists_filterOf.2 ha
    obtain ⟨fault, hfault⟩ := exists_fault hf hnone
    exact ⟨fault, fun b hb => (hrun hf hb).trans (hfault b hb)⟩
  case runs =>
    obtain ⟨status, printed, hanalyse, hrest⟩ := x.exists_analyse hs hb
    exact ⟨status, printed, (hrun x.filtered hb).trans hanalyse, hrest⟩

/-- An export with a line that is no JSON and an event. -/
def brokenExport : String := "x\n\x7b\"eventType\":\"keydown\",\"timestamp\":0\x7d\n"

/-- One metric of those that are printed without a selection, and a strict check. -/
theorem run_display_brokenExport :
    let selective := { jsonReport with
      metrics := some ["wpm", "lost"], defaults := true, strict := true }
    (∀ line ∈ lines brokenExport, isWithinLimits line) ∧
    ∃ (x : Analysis Settings.defaults ⟨0⟩ jsonReport brokenExport) (whole part : String)
      (status : Nat),
      run Settings.defaults ⟨0⟩ jsonReport (.file brokenExport) = .ok {
        status := 0, printed := whole ++ "\n", complaints := x.warnings ++ x.more
        written := x.disk.files } ∧
      Json.print .report (.object x.fields) = .ok whole ∧
      run Settings.defaults ⟨0⟩ selective (.file brokenExport) = .ok {
        status, printed := part ++ "\n", complaints := x.warnings ++ x.more
        written := x.disk.files } ∧
      (status = 1 ↔ x.Fails) ∧
      Json.print .report
        (.object (x.fields.filter fun field => ["wpm", "lost"].contains field.1)) = .ok part := by
  intro selective
  have htext : ∀ line ∈ lines brokenExport, isWithinLimits line := by decide +kernel
  obtain ⟨-, -, hruns⟩ := run_display presentable_defaults ⟨0⟩ (a := jsonReport)
  obtain ⟨hsome, -, hx⟩ := hruns brokenExport not_misfiltered_jsonReport
  obtain ⟨x⟩ := hsome rfl htext
  obtain ⟨status, printed, hwhole, hstatus, hzero, hobject⟩ := hx x jsonReport rfl
  obtain ⟨whole, rfl, hprinted⟩ := hobject rfl
  obtain ⟨status', printed', hpart, hstatus', -, hobject'⟩ := hx x selective rfl
  obtain ⟨part, rfl, hprinted'⟩ := hobject' rfl
  obtain rfl : status = 0 := hzero.resolve_right fun hone => by cases (hstatus.1 hone).1
  have hall : x.fields.filter (fun field => jsonReport.shows field.1) = x.fields :=
    List.filter_eq_self.2 fun field _ => jsonReport.shows_plain field.1
  rw [hall] at hprinted
  exact ⟨htext, x, whole, part, status', hwhole, hprinted, hpart,
    hstatus'.trans (and_iff_right rfl), hprinted'⟩

/-! ## A number that is too long -/

/-- So many ones. -/
def ones (n : Nat) : String := String.ofList (List.replicate n '1')

theorem toList_ones (n : Nat) : (ones n).toList = List.replicate n '1' := String.toList_ofList

/-- Digits alone are all taken. -/
theorem takeDigits_eq {s : List Char} (h : ∀ c ∈ s, c.isDigit) :
    takeDigits s = (s.map (·.toNat - 48), []) := by
  have htake : takeDigits (s ++ []) = _ := takeDigits_append h (by simp)
  rwa [List.append_nil] at htake

/-- An integer with more digits than the limit is refused for its length. -/
theorem readUnsigned_eq_error {c : Char} {s : List Char} (hfirst : c ≠ '0')
    (hdigits : ∀ d ∈ c :: s, d.isDigit) (h : digitLimit < (c :: s).length) (start : List Char)
    (negative : Bool) :
    Json.readUnsigned start negative (c :: s) =
      .error (.beyondLimit (.tooManyDigits (c :: s).length)) := by
  have hwhole : Json.readWhole (c :: s) = some ((c :: s).map (·.toNat - 48), []) := by
    rw [Json.readWhole]
    · rw [takeDigits_eq hdigits]
      rfl
    · rintro rest ⟨⟩
      exact hfirst rfl
  rw [Json.readUnsigned, hwhole]
  show Json.readInteger negative ((c :: s).map (·.toNat - 48)) [] = _
  rw [Json.readInteger, List.length_map, checkDigits, if_pos h]

theorem readJson_ones {n : Nat} (h : digitLimit < n) :
    Json.readJson (ones n) = .error (.beyondLimit (.tooManyDigits n)) := by
  obtain ⟨m, rfl⟩ : ∃ m, n = m + 1 := ⟨n - 1, by omega⟩
  have hskip : Json.skipSpace (List.replicate (m + 1) '1') = '1' :: List.replicate m '1' := rfl
  have hlength : ('1' :: List.replicate m '1').length = m + 1 := by
    rw [List.length_cons, List.length_replicate]
  have hdigits : ∀ c ∈ '1' :: List.replicate m '1', c.isDigit := by
    intro c hc
    rw [List.eq_of_mem_replicate (n := m + 1) hc]
    rfl
  have hnumber := readUnsigned_eq_error (by decide) hdigits (by rwa [hlength])
    ('1' :: List.replicate m '1') false
  have hread : ∀ fuel, Json.readValue Json.depthLimit (fuel + 1) ('1' :: List.replicate m '1') =
      .error (.beyondLimit (.tooManyDigits (m + 1))) := by
    intro fuel
    rw [Json.readValue]
    · exact hlength ▸ hnumber
    all_goals rintro rest ⟨⟩
  rw [Json.readJson, toList_ones, hskip]
  dsimp only
  rw [if_neg (by simp [List.replicate_succ]), hread]
  rfl

theorem lines_ones (n : Nat) : lines (ones n ++ "\n") = [ones n] := by
  have hline : isLine (ones n).toList := by
    rw [toList_ones, isLine_iff]
    intro c hc
    rw [List.eq_of_mem_replicate hc]
    decide
  have hlines := lines_append hline ""
  rwa [String.append_empty] at hlines

theorem strip_ones (n : Nat) : strip (ones (n + 2)) = ones (n + 2) := by
  have hends : (ones (n + 2)).toList = '1' :: (List.replicate n '1' ++ ['1']) := by
    rw [toList_ones, List.replicate_succ, List.replicate_succ']
  exact strip_eq_self hends rfl rfl

/-- A line that goes beyond the limit on digits ends the reading. -/
theorem readLog_ones {n : Nat} (h : digitLimit < n) (name : String) :
    readLog name (ones n ++ "\n") = .error (.tooManyDigits n) := by
  obtain ⟨m, rfl⟩ : ∃ m, n = m + 2 := ⟨n - 2, by unfold digitLimit at h; omega⟩
  have hblank : ones (m + 2) ≠ "" := by
    intro hempty
    have hchars := toList_ones (m + 2)
    rw [hempty] at hchars
    cases hchars
  rw [readLog, lines_ones]
  show readLines name [(ones (m + 2), 1)] = _
  rw [readLines, strip_ones, if_neg hblank, readJson_ones h]

theorem run_ones {n : Nat} (h : digitLimit < n) (ha : ¬ a.Misfiltered) (s : Settings)
    (now : Clock) :
    run s now a (.file (ones n ++ "\n")) = .error (.tooManyDigits n) := by
  obtain ⟨f, hf⟩ := exists_filterOf.2 ha
  unfold run
  dsimp only
  rw [hf]
  dsimp only
  rw [analyse, readFiltered, readEvents, readLog_ones h]
  rfl

/-- **An export that is not read.** The line is JSON, but the program ends in a fault. -/
theorem longNumber_raises :
    Settings.defaults.Presentable ∧ Settings.defaults.Unlogged ∧ ¬ jsonReport.Misfiltered ∧
    run Settings.defaults ⟨0⟩ jsonReport (.file (ones 4301 ++ "\n")) =
      .error (.tooManyDigits 4301) :=
  ⟨presentable_defaults, rfl, not_misfiltered_jsonReport,
    run_ones (by decide) not_misfiltered_jsonReport _ _⟩

end CommandLine

end TypingTrace
