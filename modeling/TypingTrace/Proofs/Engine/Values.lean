import TypingTrace.Engine.Basic

/-!
# What an engine computes without a deadline

**Theorem (`values_run`).** Without a deadline the values of a run are a function of the events, the
registry and the default value. Neither the time, nor what earlier runs left behind in the pool and
the failure log, has any part in them.
-/

namespace TypingTrace

open Time Log

namespace Engine

/-- The values of the metrics of a registry on a sequence of events, without a deadline. -/
def valuesOn (e : Engine) (events : List Entry) (r : Registry) : List (Value × Value) :=
  r.definitions.map fun d => (d.id,
    if events.isEmpty then d.emptyValue
    else e.valueOf ((d.calculator.answer events).bind finiteNumber))

theorem outcomes_eq {e : Engine} (h : e.timeout.truthy = false) (events : List Entry)
    (definitions : List Definition) (pool : Option Pool) :
    e.outcomes events definitions pool =
      (definitions.map fun d => (d, (d.calculator.answer events).bind finiteNumber), pool) := by
  induction definitions with
  | nil => rfl
  | cons d rest ih =>
    have hcall : e.call d.calculator events pool = (d.calculator.answer events, pool) :=
      if_neg (by simp [h])
    simp only [outcomes, invoke, hcall, ih, List.map_cons]

theorem values_compute {e : Engine} (h : e.timeout.truthy = false) (now : Clock)
    (events : List Entry) (r : Registry) :
    (e.compute now events r).1.values = e.valuesOn events r := by
  unfold compute valuesOn
  by_cases hempty : events.isEmpty
  · simp only [if_pos hempty]
  · simp only [if_neg hempty, outcomes_eq h, List.map_map]
    rfl

theorem values_run {e : Engine} (h : e.timeout.truthy = false) (now : Clock) (events : List Entry)
    (override : Option Registry) (d : Disk) :
    (e.run now events override d).1.values = e.valuesOn events (override.getD e.registry) :=
  values_compute h now events (override.getD e.registry)

/-! ## Settings -/

/-- What stays when an engine runs. -/
structure SameSettings (e e' : Engine) : Prop where
  registry : e'.registry = e.registry
  defaultValue : e'.defaultValue = e.defaultValue
  timeout : e'.timeout = e.timeout
  workers : e'.workers = e.workers

theorem SameSettings.refl (e : Engine) : SameSettings e e := ⟨rfl, rfl, rfl, rfl⟩

theorem SameSettings.trans {e e' e'' : Engine} (h : SameSettings e e')
    (h' : SameSettings e' e'') : SameSettings e e'' :=
  ⟨h'.registry.trans h.registry, h'.defaultValue.trans h.defaultValue,
    h'.timeout.trans h.timeout, h'.workers.trans h.workers⟩

theorem sameSettings_run (e : Engine) (now : Clock) (events : List Entry)
    (override : Option Registry) (d : Disk) :
    SameSettings e (e.run now events override d).2.1 := ⟨rfl, rfl, rfl, rfl⟩

/-- The value of an outcome depends on nothing of the engine but the default value. -/
theorem valueOf_congr {e e' : Engine} (h : e'.defaultValue = e.defaultValue) :
    e'.valueOf = e.valueOf := by
  funext outcome
  cases outcome with
  | ok n => rfl
  | error f => exact h

theorem SameSettings.valueOf {e e' : Engine} (h : SameSettings e e') : e'.valueOf = e.valueOf :=
  valueOf_congr h.defaultValue

theorem SameSettings.valuesOn {e e' : Engine} (h : SameSettings e e') (events : List Entry)
    (r : Registry) : e'.valuesOn events r = e.valuesOn events r := by
  simp only [Engine.valuesOn, h.valueOf]

/-- An engine that counts events. -/
def counting : Engine where
  registry := { definitions := [{
    id := .text "events", calculator := .ofNumber fun l => .ok (.int l.length) }] }
  defaultValue := .int 0
  timeout := .null
  workers := .int 4
  log := .absent

end Engine

end TypingTrace
