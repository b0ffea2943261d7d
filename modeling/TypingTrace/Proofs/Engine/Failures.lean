import TypingTrace.Proofs.Engine.Values
import TypingTrace.Proofs.Metric.Registration

/-!
# What fails in a run without a deadline

Every calculator is called on the same events, so a run is known metric by metric: its values are
`valuesOn` and its failures are `failuresOn` (`run_eq`). Both go through the definitions of the
registry, and what they say of one metric depends on the calculator of no other one.
-/

namespace TypingTrace

open Time Log

/-- What becomes of a metric on its own: a finite number, or the fault of having none. -/
def Definition.outcome (d : Definition) (events : List Entry) : Except Fault Number :=
  (d.calculator.answer events).bind finiteNumber

/-- Whether a metric fails. -/
def Definition.fails (events : List Entry) (d : Definition) : Bool := !(d.outcome events).isOk

/-- What a failure says, apart from its time. -/
def Failure.cause (f : Failure) : Value × String × String := (f.metric, f.kind, f.message)

@[simp] theorem Failure.cause_ofFault (id : Value) (f : Fault) (now : Stamp) :
    (Failure.ofFault id f now).cause = (id, f.kind, f.report) := rfl

namespace Engine

/-- The failures among the metrics of a registry on a sequence of events, without a deadline. -/
def failuresOn (now : Clock) (events : List Entry) (r : Registry) : List Failure :=
  if events.isEmpty then []
  else r.definitions.filterMap fun d => failureOf now d (d.outcome events)

theorem compute_eq {e : Engine} (h : e.timeout.truthy = false) (now : Clock)
    (events : List Entry) (r : Registry) :
    e.compute now events r = (⟨e.valuesOn events r, failuresOn now events r⟩, e.pool) := by
  unfold compute valuesOn failuresOn
  by_cases hempty : events.isEmpty
  · simp only [if_pos hempty]
  · simp only [if_neg hempty, outcomes_eq h, List.map_map, List.filterMap_map]
    rfl

/-- **A run without a deadline**: its values and failures are those of the metrics one by one. -/
theorem run_eq {e : Engine} (h : e.timeout.truthy = false) (now : Clock) (events : List Entry)
    (override : Option Registry) (d : Disk) :
    (e.run now events override d).1 = ⟨e.valuesOn events (override.getD e.registry),
      failuresOn now events (override.getD e.registry)⟩ := by
  rw [run, compute_eq h]

variable {e : Engine} {events : List Entry} {r : Registry}

/-! ## Failures -/

/-- Every failure is that of a metric of the registry. -/
theorem exists_of_mem_failuresOn {now : Clock} {f : Failure} (h : f ∈ failuresOn now events r) :
    ∃ d ∈ r.definitions, ∃ fault, d.outcome events = .error fault ∧
      f = .ofFault d.id fault now.stamp := by
  unfold failuresOn at h
  split_ifs at h
  · cases h
  · obtain ⟨d, hd, hf⟩ := List.mem_filterMap.1 h
    cases houtcome : d.outcome events with
    | ok n =>
      rw [houtcome] at hf
      cases hf
    | error fault =>
      rw [houtcome] at hf
      exact ⟨d, hd, fault, houtcome, (Option.some.inj hf).symm⟩

/-- The metrics that fail by their outcomes, in the same order. -/
theorem map_metric_filterMap (now : Clock) (results : List (Definition × Except Fault Number)) :
    (results.filterMap fun p => failureOf now p.1 p.2).map Failure.metric =
      (results.filter fun p => !p.2.isOk).map fun p => p.1.id := by
  rw [List.map_filterMap, ← List.filterMap_eq_map, List.filterMap_filter]
  apply List.filterMap_congr
  rintro ⟨d, outcome⟩ -
  cases outcome <;> rfl

/-- The metrics that fail, in the order of the registry. -/
theorem map_metric_failuresOn (h : events ≠ []) (now : Clock) (r : Registry) :
    (failuresOn now events r).map Failure.metric =
      (r.definitions.filter (Definition.fails events)).map Definition.id := by
  have hresults := map_metric_filterMap now (r.definitions.map fun d => (d, d.outcome events))
  rw [List.filterMap_map, List.filter_map, List.map_map] at hresults
  rw [failuresOn, if_neg (mt List.isEmpty_iff.1 h)]
  exact hresults

theorem mem_failedIds (hr : r.Built) (h : events ≠ []) {d : Definition} (hd : d ∈ r.definitions)
    (now : Clock) : d.id ∈ (failuresOn now events r).map Failure.metric ↔ d.fails events := by
  rw [map_metric_failuresOn h, List.mem_map]
  constructor
  · rintro ⟨d', hd', hid⟩
    obtain ⟨hmem, hfails⟩ := List.mem_filter.1 hd'
    exact hr.eq_of_id_eq hmem hd hid ▸ hfails
  · intro hfails
    exact ⟨d, List.mem_filter.2 ⟨hd, hfails⟩, rfl⟩

theorem valuesOn_congr {e' : Engine} (h : e'.defaultValue = e.defaultValue) (events : List Entry)
    (r : Registry) : e'.valuesOn events r = e.valuesOn events r := by
  rw [valuesOn, valuesOn, valueOf_congr h]

end Engine

end TypingTrace
