import TypingTrace.Json.Printer
import TypingTrace.Metric.Registry
import TypingTrace.Report.Format
import TypingTrace.Time.Stamp
import TypingTrace.Value.Table

/-!
# Reports

Analytics are a list of values by the ids of their metrics, of which no two are equal. Both reports
show the metrics of a registry that a selection names, in the order of the registry: the Markdown
report in one table per category, with a remark where there is no value, and the JSON report as one
object, which leaves such metrics out.
-/

namespace TypingTrace.Report

open Time

/-- Values by the ids of their metrics. -/
abbrev Analytics := Table

/-! ## Selections -/

/-- A selection of metrics: all, or those named in a collection. -/
abbrev Selection := Option (List Value)

/-- The selection that a value stands for: null selects all. -/
def selection (v : Value) : Except Fault Selection := do
  if v.isNull then return none
  let items ← v.items
  match items.find? fun i => !i.isHashable with
  | some i => throw (.unhashable i.shortTypeName)
  | none => return some items

/-- Whether a selection names an id. -/
def selects (s : Selection) (id : Value) : Bool := (s.map (·.any id.same)).getD true

/-- The selected definitions of a registry. -/
def selected (r : Registry) (s : Selection) : List Definition :=
  r.definitions.filter fun d => selects s d.id

/-! ## Markdown -/

/-- The categories in the order of a report, with their titles. -/
def categories : List (String × String) := [
  ("speed", "Speed"), ("timing", "Timing"), ("behavior", "Behavior"), ("quality", "Quality"),
  ("session", "Session")]

/-- Every category that a metric may have stands in the report once. -/
theorem map_fst_categories : categories.map Prod.fst = categoryNames := rfl

/-- The cell of a value, or the remark that there is none. -/
def cell (analytics : Analytics) (d : Definition) : Except Fault String :=
  match Table.get? d.id analytics with
  | some v => valueText d.unit v
  | none => .ok "not computed"

/-- The row of a metric. -/
def tableRow (analytics : Analytics) (d : Definition) : Except Fault String := do
  let name := if d.label.truthy then d.label else d.id
  return "| " ++ name.inserted ++ " | " ++ (← cell analytics d) ++ " |"

/-- The lines of one category; none if it has no metrics. -/
def category (analytics : Analytics) (definitions : List Definition) (name title : String) :
    Except Fault (List String) := do
  match definitions.filter fun d => d.category.equals (.text name) with
  | [] => return []
  | inside =>
    let rows ← inside.mapM (tableRow analytics)
    return ["## " ++ title, "", "| Metric | Value |", "|--------|-------|"] ++ rows ++ [""]

/-- The lines of the Markdown report. -/
def markdownLines (now : Stamp) (title : String) (analytics : Analytics) (r : Registry)
    (s : Selection) : Except Fault (List String) := do
  let definitions := selected r s
  let parts ← categories.mapM fun (name, heading) => category analytics definitions name heading
  return ["# " ++ title, "", "**Generated:** " ++ Time.secondsText now.instant, ""] ++ parts.flatten

def markdown (now : Stamp) (title : String) (analytics : Analytics) (r : Registry) (s : Selection) :
    Except Fault String :=
  return String.intercalate "\n" (← markdownLines now title analytics r s)

/-! ## JSON -/

/-- The values of the JSON report: those of the registry, or without one all analytics. -/
def shown (analytics : Analytics) (r : Option Registry) (s : Selection) : Analytics :=
  match r with
  | some r => (selected r s).filterMap fun d => (Table.get? d.id analytics).map fun v => (d.id, v)
  | none => analytics.filter fun (id, _) => selects s id

def json (analytics : Analytics) (r : Option Registry) (s : Selection) (pretty : Bool) :
    Except Fault String := do
  let fields ← Json.fieldsOf (shown analytics r s)
  Json.print (if pretty then .report else .compact) (.object fields)

end TypingTrace.Report
