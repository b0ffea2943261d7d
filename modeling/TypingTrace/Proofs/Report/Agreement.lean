import TypingTrace.Proofs.Metric.Registration
import TypingTrace.Proofs.Report.Cells

/-!
# Two reports of the same metrics

**Theorem (`reports_agree`).** The Markdown report has one row for each selected metric of the
registry, in the table of its category and in the order of the registry. The rows that show a value
and not the remark that there is none are those of the ids in the JSON report, which has them in the
order of the registry and with the values that are given.

The Markdown report is known by its tables (`markdown_eq`) and the JSON report by its fields
(`json_eq`). Every sound metric is in just one category, so the tables divide the selected metrics
(`rows_perm`), and both sides are filters of one list.

All values have to be of those that a report can show (`Shows`). A value that is not ends the
Markdown report, also where the JSON report has it (`share_overflows`).
-/

namespace TypingTrace.Report

open Time

/-! ## The tables -/

/-- The line of a metric in its table. -/
def rowLine (row : Definition × String) : String :=
  "| " ++ (if row.1.label.truthy then row.1.label else row.1.id).inserted ++ " | " ++ row.2 ++ " |"

/-- The lines of a table under its title. -/
def tableLines (table : String × List (Definition × String)) : List String :=
  ["## " ++ table.1, "", "| Metric | Value |", "|--------|-------|"] ++ table.2.map rowLine ++ [""]

/-- The lines above the tables. -/
def headLines (now : Stamp) (title : String) : List String :=
  ["# " ++ title, "", "**Generated:** " ++ Time.secondsText now.instant, ""]

/-- The cell of a metric whose value can be shown. -/
def cellText (analytics : Analytics) (d : Definition) : String :=
  match cell analytics d with
  | .ok t => t
  | .error _ => ""

/-- The table of a category, perhaps an empty one. -/
def tableOf (analytics : Analytics) (definitions : List Definition) (category : String × String) :
    String × List (Definition × String) :=
  (category.2, (definitions.filter fun d => d.category.equals (.text category.1)).map fun d =>
    (d, cellText analytics d))

/-- The tables of a report: one for each category that has metrics. -/
def tables (analytics : Analytics) (definitions : List Definition) :
    List (String × List (Definition × String)) :=
  (categories.map (tableOf analytics definitions)).filter fun table => !table.2.isEmpty

/-- Whether all values that a registry asks for can be shown. -/
def Shows (analytics : Analytics) (r : Registry) : Prop :=
  ∀ d ∈ r.definitions, ∀ v, Table.get? d.id analytics = some v → v.IsShowable d.unit

variable {analytics : Analytics} {r : Registry} {s : Selection}

theorem cell_eq {d : Definition}
    (h : ∀ v, Table.get? d.id analytics = some v → v.IsShowable d.unit) :
    cell analytics d = .ok (cellText analytics d) ∧
      (cellText analytics d = "not computed" ↔ Table.get? d.id analytics = none) := by
  unfold cellText cell
  cases hv : Table.get? d.id analytics with
  | none => simp
  | some v =>
    obtain ⟨t, ht, hends⟩ := exists_valueText (h v hv)
    simp [ht, hends.ne]

theorem category_eq {definitions : List Definition}
    (h : ∀ d ∈ definitions, cell analytics d = .ok (cellText analytics d)) (name title : String) :
    category analytics definitions name title =
      .ok (if (tableOf analytics definitions (name, title)).2.isEmpty then []
        else tableLines (tableOf analytics definitions (name, title))) := by
  have hrows : ∀ d ∈ definitions.filter fun d => d.category.equals (.text name),
      tableRow analytics d = .ok (rowLine (d, cellText analytics d)) := by
    intro d hd
    rw [tableRow, h d (List.mem_filter.1 hd).1]
    rfl
  unfold category tableOf tableLines
  cases hinside : definitions.filter fun d => d.category.equals (.text name) with
  | nil => rfl
  | cons d rest =>
    rw [hinside] at hrows
    dsimp only
    rw [mapM_eq_ok hrows, List.map_map]
    rfl

theorem flatten_map_if {α β : Type} (f : α → List β) (p : α → Bool) (l : List α) :
    (l.map fun a => if p a then [] else f a).flatten = (l.filter fun a => !p a).flatMap f := by
  induction l with
  | nil => rfl
  | cons a l ih =>
    rw [List.map_cons, List.flatten_cons, ih]
    cases h : p a <;> simp [h]

/-- The Markdown report as its tables. -/
theorem markdown_eq (h : Shows analytics r) (now : Stamp) (title : String) (s : Selection) :
    markdown now title analytics r s = .ok (String.intercalate "\n"
      (headLines now title ++ (tables analytics (selected r s)).flatMap tableLines)) := by
  have hcells : ∀ d ∈ selected r s, cell analytics d = .ok (cellText analytics d) :=
    fun d hd => (cell_eq (h d (List.mem_filter.1 hd).1)).1
  have hparts : (categories.mapM fun c => category analytics (selected r s) c.1 c.2) =
      .ok (categories.map fun c =>
        if (tableOf analytics (selected r s) c).2.isEmpty then []
        else tableLines (tableOf analytics (selected r s) c)) :=
    mapM_eq_ok fun c _ => category_eq hcells c.1 c.2
  have hflatten : (categories.map fun c =>
      if (tableOf analytics (selected r s) c).2.isEmpty then []
      else tableLines (tableOf analytics (selected r s) c)).flatten =
        (tables analytics (selected r s)).flatMap tableLines := by
    rw [tables, ← flatten_map_if, List.map_map]
    rfl
  rw [markdown, markdownLines, hparts]
  show Except.ok (String.intercalate "\n" (headLines now title ++ List.flatten _)) = _
  rw [hflatten]

/-! ## The rows of all tables -/

/-- The metrics of a registry, each under its category. -/
theorem flatMap_category_perm (hsound : ∀ d ∈ r.definitions, d.IsSound) (s : Selection) :
    (categories.flatMap fun c =>
      (selected r s).filter fun d => d.category.equals (.text c.1)).Perm (selected r s) := by
  have hnames : (categoryNames.flatMap fun name =>
      (selected r s).filter fun d => d.category.equals (.text name)).Perm (selected r s) :=
    Registry.flatMap_filter_perm (by decide) fun d hd =>
      Registry.exists_categoryName (hsound d (List.mem_filter.1 hd).1).category
  rwa [← map_fst_categories, List.flatMap_map] at hnames

theorem flatMap_filter_isEmpty {α β : Type} (l : List (α × List β)) :
    (l.filter fun a => !a.2.isEmpty).flatMap Prod.snd = l.flatMap Prod.snd := by
  induction l with
  | nil => rfl
  | cons a l ih =>
    rw [List.filter_cons, List.flatMap_cons, ← ih]
    cases h : a.2.isEmpty with
    | false => simp
    | true => simp [List.isEmpty_iff.1 h]

/-- The rows of all tables are those of the selected metrics, each with its cell. -/
theorem rows_perm (hsound : ∀ d ∈ r.definitions, d.IsSound) (s : Selection) :
    ((tables analytics (selected r s)).flatMap Prod.snd).Perm
      ((selected r s).map fun d => (d, cellText analytics d)) := by
  have hrows : (tables analytics (selected r s)).flatMap Prod.snd =
      (categories.flatMap fun c =>
        (selected r s).filter fun d => d.category.equals (.text c.1)).map
          fun d => (d, cellText analytics d) := by
    rw [tables, flatMap_filter_isEmpty, List.flatMap_map, List.map_flatMap]
    rfl
  rw [hrows]
  exact (flatMap_category_perm hsound s).map _

theorem selects_iff {id : Value} : selects s id ↔ ∀ l, s = some l → ∃ i ∈ l, id.same i := by
  cases s <;> simp [selects]

theorem nodup_selected (hr : r.Built) (s : Selection) :
    ((selected r s).map Definition.id).Nodup :=
  hr.nodup.sublist (List.filter_sublist.map _)

/-! ## The object -/

/-- The text that an id is. -/
def idText (id : Value) : String := id.asText.getD ""

/-- The fields of the JSON report. -/
def reportFields (analytics : Analytics) (definitions : List Definition) : Fields :=
  definitions.filterMap fun d => (Table.get? d.id analytics).map fun v => (idText d.id, v)

theorem fieldsOf_shown (hids : ∀ d ∈ r.definitions, ∃ k, d.id = .text k) (s : Selection) :
    Json.fieldsOf (shown analytics (some r) s) = .ok (reportFields analytics (selected r s)) := by
  have hfields : reportFields analytics (selected r s) =
      (shown analytics (some r) s).map fun p => (idText p.1, p.2) := by
    rw [reportFields, shown, List.map_filterMap]
    refine List.filterMap_congr fun d _ => ?_
    rw [Option.map_map]
    rfl
  rw [Json.fieldsOf, hfields]
  refine mapM_eq_ok fun p hp => ?_
  obtain ⟨d, hd, hv⟩ := List.mem_filterMap.1 hp
  obtain ⟨v, -, rfl⟩ := Option.map_eq_some_iff.1 hv
  obtain ⟨k, hk⟩ := hids d (List.mem_filter.1 hd).1
  dsimp only
  rw [hk]
  rfl

theorem exists_printFields (style : Json.Style) (depth : Nat) {fields : Fields}
    (h : ∀ field ∈ fields, field.2.HasDouble) :
    ∃ texts, Json.printFields style depth fields = .ok texts := by
  induction fields with
  | nil => exact ⟨[], rfl⟩
  | cons field rest ih =>
    obtain ⟨k, v⟩ := field
    obtain ⟨texts, htexts⟩ := ih fun f hf => h f (List.mem_cons_of_mem _ hf)
    obtain ⟨t, ht⟩ : ∃ t, Json.printAt style depth v = .ok t := by
      have hv : v.HasDouble := h (k, v) List.mem_cons_self
      have hwritable := hv.isWritable
      cases hv with
      | @int n => exact ⟨Text.intText n, by rw [Json.printAt, writeInt_of_fitsDigits hwritable]⟩
      | float x => exact ⟨_, by rw [Json.printAt]⟩
    rw [Json.printFields, ht, htexts]
    exact ⟨_, rfl⟩

theorem exists_print (style : Json.Style) {fields : Fields}
    (h : ∀ field ∈ fields, field.2.HasDouble) :
    ∃ text, Json.print style (.object fields) = .ok text := by
  obtain ⟨texts, htexts⟩ := exists_printFields style 1 h
  rw [Json.print, Json.printAt, htexts]
  exact ⟨_, rfl⟩

theorem json_eq (hids : ∀ d ∈ r.definitions, ∃ k, d.id = .text k) (s : Selection) (pretty : Bool) :
    json analytics (some r) s pretty = Json.print (if pretty then .report else .compact)
      (.object (reportFields analytics (selected r s))) := by
  rw [json, fieldsOf_shown hids]
  rfl

theorem mem_reportFields (hids : ∀ d ∈ r.definitions, ∃ k, d.id = .text k) {k : String}
    {v : Value} :
    (k, v) ∈ reportFields analytics (selected r s) ↔
      .text k ∈ r.ids ∧ selects s (.text k) ∧ Table.get? (.text k) analytics = some v := by
  unfold reportFields
  rw [List.mem_filterMap]
  constructor
  · rintro ⟨d, hd, hfield⟩
    obtain ⟨hmem, hselects⟩ := List.mem_filter.1 hd
    obtain ⟨w, hw, heq⟩ := Option.map_eq_some_iff.1 hfield
    obtain ⟨name, hname⟩ := hids d hmem
    obtain ⟨rfl, rfl⟩ := Prod.mk.inj heq
    rw [hname] at hselects hw ⊢
    exact ⟨List.mem_map.2 ⟨d, hmem, hname⟩, hselects, hw⟩
  · rintro ⟨hmem, hselects, hget⟩
    obtain ⟨d, hd, hid⟩ := List.mem_map.1 hmem
    refine ⟨d, List.mem_filter.2 ⟨hd, by rwa [hid]⟩, ?_⟩
    rw [hid, hget]
    rfl

/-- The JSON report on values that can be shown. -/
theorem exists_json (hids : ∀ d ∈ r.definitions, ∃ k, d.id = .text k) (hshows : Shows analytics r)
    (s : Selection) (pretty : Bool) :
    ∃ text, json analytics (some r) s pretty = .ok text ∧
      Json.print (if pretty then .report else .compact)
        (.object (reportFields analytics (selected r s))) = .ok text := by
  have hdoubles : ∀ field ∈ reportFields analytics (selected r s), field.2.HasDouble := by
    intro field hfield
    obtain ⟨hmem, -, hget⟩ := (mem_reportFields hids).1 hfield
    obtain ⟨d, hd, hid⟩ := List.mem_map.1 hmem
    exact (hshows d hd field.2 (hid ▸ hget)).hasDouble
  obtain ⟨text, htext⟩ := exists_print (if pretty then .report else .compact) hdoubles
  exact ⟨text, (json_eq hids s pretty).trans htext, htext⟩

theorem ids_reportFields (hids : ∀ d ∈ r.definitions, ∃ k, d.id = .text k) (s : Selection) :
    (reportFields analytics (selected r s)).map (fun field => Value.text field.1) =
      ((selected r s).filter fun d => (Table.get? d.id analytics).isSome).map Definition.id := by
  rw [reportFields, List.map_filterMap, ← List.filterMap_eq_map, List.filterMap_filter]
  refine List.filterMap_congr fun d hd => ?_
  obtain ⟨k, hk⟩ := hids d (List.mem_filter.1 hd).1
  have hsome : (some ∘ Definition.id) d = some (.text k) := congrArg some hk
  rw [hk, hsome]
  cases Table.get? (Value.text k) analytics <;> rfl

/-! ## Both reports -/

/-- The tables of a report on a selection. -/
structure AreTables (r : Registry) (s : Selection)
    (sections : List (String × List (Definition × String))) : Prop where
  /-- There is one for each category with a selected metric, in the order of the categories, and the
  metrics in it are in the order of the registry. -/
  divided : (sections.map fun (title, rows) => (title, rows.map Prod.fst)) =
    (categories.map fun (name, title) => (title, (selected r s).filter fun d =>
      d.category.equals (.text name))).filter fun (_, inside) => !inside.isEmpty
  /-- The rows are those of the registered metrics that are selected. -/
  complete : ∀ d, (∃ text, (d, text) ∈ sections.flatMap Prod.snd) ↔
    d ∈ r.definitions ∧ ∀ l, s = some l → ∃ i ∈ l, d.id.same i
  /-- No metric has two rows. -/
  once : ((sections.flatMap Prod.snd).map fun row => row.1.id).Nodup

theorem areTables_tables (hr : r.Built) (hsound : ∀ d ∈ r.definitions, d.IsSound)
    (analytics : Analytics) (s : Selection) :
    AreTables r s (tables analytics (selected r s)) where
  divided := by
    have hmetrics : ∀ c : String × String,
        ((tableOf analytics (selected r s) c).2.map Prod.fst) =
          (selected r s).filter fun d => d.category.equals (.text c.1) := by
      intro c
      rw [tableOf, List.map_map]
      exact List.map_id _
    rw [tables, List.filter_map, List.filter_map, List.map_map]
    refine congrArg₂ _ (funext fun c => Prod.ext rfl (hmetrics c)) (List.filter_congr fun c _ => ?_)
    exact congrArg _ List.isEmpty_map
  complete d := by
    have hmem : (∃ text, (d, text) ∈ (tables analytics (selected r s)).flatMap Prod.snd) ↔
        d ∈ selected r s := by
      simp only [(rows_perm hsound s).mem_iff, List.mem_map, Prod.mk.injEq]
      constructor
      · rintro ⟨text, d', hd', rfl, -⟩
        exact hd'
      · exact fun hd => ⟨_, d, hd, rfl, rfl⟩
    rw [hmem, selected, List.mem_filter, selects_iff]
  once := by
    refine (((rows_perm hsound s).map fun row => row.1.id).nodup_iff).2 ?_
    rw [List.map_map]
    exact nodup_selected hr s

/-- **The reports agree.** -/
theorem reports_agree (hr : r.Built) (hsound : ∀ d ∈ r.definitions, d.IsSound)
    (hids : ∀ d ∈ r.definitions, ∃ k, d.id = .text k) (hshows : Shows analytics r)
    (s : Selection) (now : Stamp) (title : String) (pretty : Bool) :
    ∃ (sections : List (String × List (Definition × String))) (fields : Fields) (text : String),
      markdown now title analytics r s =
        .ok (String.intercalate "\n" (headLines now title ++ sections.flatMap tableLines)) ∧
      json analytics (some r) s pretty = .ok text ∧
      Json.print (if pretty then .report else .compact) (.object fields) = .ok text ∧
      AreTables r s sections ∧
      (∀ d t, (d, t) ∈ sections.flatMap Prod.snd →
        (t = "not computed" ↔ Table.get? d.id analytics = none)) ∧
      (((sections.flatMap Prod.snd).filter fun row => row.2 ≠ "not computed").map
        fun row => row.1.id).Perm (fields.map fun field => .text field.1) ∧
      (fields.map fun field => Value.text field.1).Sublist r.ids ∧
      ∀ k v, (k, v) ∈ fields ↔
        .text k ∈ r.ids ∧ (∀ l, s = some l → ∃ i ∈ l, (Value.text k).same i) ∧
          Table.get? (.text k) analytics = some v := by
  have hcells : ∀ d ∈ selected r s,
      (cellText analytics d = "not computed" ↔ Table.get? d.id analytics = none) :=
    fun d hd => (cell_eq (hshows d (List.mem_filter.1 hd).1)).2
  obtain ⟨text, hjson, htext⟩ := exists_json hids hshows s pretty
  refine ⟨tables analytics (selected r s), reportFields analytics (selected r s), text,
    markdown_eq hshows now title s, hjson, htext,
    areTables_tables hr hsound analytics s, ?remarks, ?same, ?ordered, ?members⟩
  case remarks =>
    intro d t hrow
    obtain ⟨d', hd', heq⟩ := List.mem_map.1 ((rows_perm hsound s).mem_iff.1 hrow)
    obtain ⟨rfl, rfl⟩ := Prod.mk.inj heq
    exact hcells _ hd'
  case same =>
    rw [ids_reportFields hids]
    refine (((rows_perm hsound s).filter _).map _).trans (List.Perm.of_eq ?_)
    rw [List.filter_map, List.map_map]
    refine congrArg (List.map Definition.id) (List.filter_congr fun d hd => ?_)
    rw [Bool.eq_iff_iff, Option.isSome_iff_ne_none]
    exact decide_eq_true_iff.trans (not_congr (hcells d hd))
  case ordered =>
    rw [ids_reportFields hids]
    exact (List.filter_sublist.trans List.filter_sublist).map _
  case members =>
    intro k v
    rw [mem_reportFields hids, selects_iff]

/-- A share of one and a number of keys. -/
def shareAndKeys : Registry where
  definitions := [
    { id := .text "keys", calculator := ⟨fun _ => .ok (.int 0), false⟩ },
    { id := .text "share", calculator := ⟨fun _ => .ok (.int 0), false⟩, unit := .text "ratio",
      category := .text "quality" }]

/-- The share is selected twice and has a value; the number of keys is selected and has none. -/
theorem reports_agree_shareAndKeys :
    let analytics : Analytics := [(.text "share", .int 1), (.text "lost", .int 2)]
    let s : Selection := some [.text "share", .text "keys", .text "gone", .text "share"]
    Shows analytics shareAndKeys ∧
    ∃ sections text, AreTables shareAndKeys s sections ∧
      markdown ⟨0, 0⟩ "Report" analytics shareAndKeys s = .ok (String.intercalate "\n"
        (headLines ⟨0, 0⟩ "Report" ++ sections.flatMap tableLines)) ∧
      json analytics (some shareAndKeys) s true = .ok text := by
  intro analytics s
  have hlist : Registry.ofList shareAndKeys.definitions = .ok shareAndKeys := rfl
  have hdefinitions : ∀ d ∈ shareAndKeys.definitions, d.IsSound ∧ (∃ k, d.id = .text k) ∧
      ∀ v, Table.get? d.id analytics = some v → v.IsShowable d.unit := by
    simp only [shareAndKeys, List.forall_mem_cons, List.not_mem_nil, false_imp_iff, implies_true,
      and_true]
    refine ⟨⟨⟨by decide, by decide⟩, ⟨_, rfl⟩, nofun⟩, ⟨⟨by decide, by decide⟩, ⟨_, rfl⟩, ?_⟩⟩
    intro v hv
    obtain rfl : Value.int 1 = v := Option.some.inj hv
    exact .int (by decide +kernel) fun _ => by decide +kernel
  have hshows : Shows analytics shareAndKeys := fun d hd => (hdefinitions d hd).2.2
  obtain ⟨sections, -, text, hmarkdown, hjson, -, htables, -⟩ :=
    reports_agree (Registry.built_ofList hlist) (fun d hd => (hdefinitions d hd).1)
      (fun d hd => (hdefinitions d hd).2.1) hshows s ⟨0, 0⟩ "Report" true
  exact ⟨hshows, sections, text, htables, hmarkdown, hjson⟩

/-! ## A share that is too large -/

/-- A metric that is shown in per cent. -/
def share : Definition where
  id := .text "a"
  calculator := ⟨fun _ => .ok (.int 0), false⟩
  unit := .text "ratio"

/-- An integer is written as a double only after it is multiplied. -/
theorem tableRow_share {n : Int} (h : doubleLimit ≤ |((n * 100 : Int) : Rat)|) :
    tableRow [(.text "a", .int n)] share = .error .integerTooLarge := by
  have hfloat : (Number.int (n * 100)).toFloat = .error .integerTooLarge := by
    rw [Number.toFloat, (nearest_eq_none_iff _).2 h]
  have hpercent : percentageText (.int (n * 100)) = .error .integerTooLarge := by
    show (do return (← onePlace.write "int" (.int (n * 100))) ++ "%") = _
    rw [DecimalFormat.write, hfloat]
    rfl
  show (do return "| " ++ "a" ++ " | " ++ (← percentageText (.int (n * 100))) ++ " |") = _
  rw [hpercent]
  rfl

theorem markdown_share {n : Int} (h : doubleLimit ≤ |((n * 100 : Int) : Rat)|) :
    markdown ⟨0, 0⟩ "Report" [(.text "a", .int n)] ⟨[share], false⟩ none =
      .error .integerTooLarge := by
  have hcategory : ∀ name title, category [(.text "a", .int n)] [share] name title =
      if name = "session" then .error .integerTooLarge else .ok [] := by
    intro name title
    have hequals : share.category.equals (.text name) = decide ("session" = name) :=
      Value.equals_text _ _
    have hinside : ([share].filter fun d => d.category.equals (.text name)) =
        if name = "session" then [share] else [] := by
      rw [List.filter_cons, hequals, List.filter_nil]
      simp [eq_comm]
    rw [category, hinside]
    split_ifs
    · simp [tableRow_share h, bind, Except.bind]
    · rfl
  have hselected : selected ⟨[share], false⟩ none = [share] := rfl
  simp [markdown, markdownLines, hselected, categories, hcategory, bind, Except.bind]

theorem exists_json_share {n : Int} (h : |(n : Rat)| < doubleLimit) :
    ∃ text, json [(.text "a", .int n)] (some ⟨[share], false⟩) none true = .ok text := by
  have hids : ∀ d ∈ [share], ∃ k, d.id = .text k :=
    List.forall_mem_singleton.2 ⟨"a", rfl⟩
  have hfields : reportFields [(.text "a", .int n)] (selected ⟨[share], false⟩ none) =
      [("a", .int n)] := rfl
  rw [json_eq (r := ⟨[share], false⟩) hids none true, hfields]
  exact exists_print .report (List.forall_mem_singleton.2 (Value.hasDouble_int h))

/-- **A report that is refused.** The value is within the range of doubles, and the JSON report has
it, but a hundred times the value has no double, and there is no Markdown report. -/
theorem share_overflows :
    |((Nat.pow 10 307 : Int) : Rat)| < doubleLimit ∧
    markdown ⟨0, 0⟩ "Report" [(.text "a", .int (Nat.pow 10 307))] ⟨[share], false⟩ none =
      .error .integerTooLarge ∧
    ∃ text, json [(.text "a", .int (Nat.pow 10 307))] (some ⟨[share], false⟩) none true =
      .ok text := by
  have hlimit : |((Nat.pow 10 307 : Int) : Rat)| < doubleLimit := by decide +kernel
  exact ⟨hlimit, markdown_share (by decide +kernel), exists_json_share hlimit⟩

end TypingTrace.Report
