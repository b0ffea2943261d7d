import TypingTrace.Proofs.Engine.Deadline
import TypingTrace.Proofs.Engine.Failures

/-!
# What the typing metrics see

Each of the typing metrics has a calculator of a number from observations (`exists_ofNumber`), so it
sees no more of an event than `Entry.observe` shows, and it always finishes in time.

**Theorem (`firstValues_observed`).** An engine gives the typing metrics equal values on events that
look alike, whatever else is different about them. Without a deadline a whole run is the same on
them (`run_observed`).
-/

namespace TypingTrace

open Time Log

theorem answer_ofNumber_congr (f : List Observation → Except Fault Number)
    {events events' : List Entry} (h : events.map Entry.observe = events'.map Entry.observe) :
    (Calculator.ofNumber f).answer events = (Calculator.ofNumber f).answer events' := by
  show (f (events.map Entry.observe)).map Value.ofNumber = _
  rw [h]
  rfl

theorem isPrompt_typingRegistry (t : Thresholds) : (typingRegistry t).IsPrompt := by
  intro d hd
  obtain ⟨f, hf⟩ := exists_ofNumber t d hd
  rw [hf]
  rfl

theorem outcome_observed {t : Thresholds} {d : Definition} (hd : d ∈ typingMetrics t)
    {events events' : List Entry} (h : events'.map Entry.observe = events.map Entry.observe) :
    d.outcome events' = d.outcome events := by
  obtain ⟨f, hf⟩ := exists_ofNumber t d hd
  rw [Definition.outcome, Definition.outcome, hf, answer_ofNumber_congr f h]

namespace Engine

theorem firstValues_observed (e : Engine) (t : Thresholds) {events events' : List Entry}
    (h : events.map Entry.observe = events'.map Entry.observe) :
    e.firstValues (typingRegistry t) events = e.firstValues (typingRegistry t) events' := by
  refine e.firstValues_congr ?_ fun d hd => ?_
  · rw [← List.isEmpty_map (f := Entry.observe), h, List.isEmpty_map]
  · obtain ⟨f, hf⟩ := exists_ofNumber t d hd
    rw [hf]
    exact answer_ofNumber_congr f h

/-- A run of the typing metrics sees no more of events than their observations. -/
theorem run_observed {t : Thresholds} {e e' : Engine} {override override' : Option Registry}
    (htimeout : e.timeout.truthy = false) (htimeout' : e'.timeout.truthy = false)
    (hmetrics : override.getD e.registry = typingRegistry t)
    (hmetrics' : override'.getD e'.registry = typingRegistry t)
    (hdefault : e'.defaultValue = e.defaultValue) {events events' : List Entry}
    (hevents : events'.map Entry.observe = events.map Entry.observe) (now : Clock) (d d' : Disk) :
    (e'.run now events' override' d').1 = (e.run now events override d).1 := by
  have hempty : events'.isEmpty = events.isEmpty := by
    rw [← List.isEmpty_map, hevents, List.isEmpty_map]
  have hvalues : e.valuesOn events' (typingRegistry t) = e.valuesOn events (typingRegistry t) := by
    unfold Engine.valuesOn
    rw [hempty]
    refine List.map_congr_left fun d hd => ?_
    show (d.id, if _ then _ else e.valueOf (d.outcome events')) = _
    rw [outcome_observed hd hevents]
    rfl
  have hfailures : failuresOn now events' (typingRegistry t) =
      failuresOn now events (typingRegistry t) := by
    unfold failuresOn
    rw [hempty]
    refine congrArg (ite _ []) (List.filterMap_congr fun d hd => ?_)
    rw [outcome_observed hd hevents]
  rw [run_eq htimeout, run_eq htimeout', hmetrics, hmetrics', valuesOn_congr hdefault, hvalues,
    hfailures]

end Engine

end TypingTrace
