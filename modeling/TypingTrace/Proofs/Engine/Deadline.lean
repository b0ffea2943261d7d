import TypingTrace.Proofs.Engine.Values

/-!
# What an engine computes of calculators that finish in time

A calculator that exceeds its deadline keeps a worker, and those after it feel that. A registry is
prompt if none of its calculators does so (`Registry.IsPrompt`).

**Theorem (`values_run_of_idle`).** On a prompt registry the values of a run are a function of the
events, the registry and the settings of the engine, with or without a deadline. The pool is either
not started or as it was started, before every call and after it (`call_of_idle`), so every
calculator answers as the first one that the engine calls.
-/

namespace TypingTrace

open Time Log

/-- Whether all calculators of a registry finish in time. -/
def Registry.IsPrompt (r : Registry) : Prop := ∀ d ∈ r.definitions, d.calculator.held = false

/-- A calculator that finishes in time leaves the pool as it finds it. -/
theorem Pool.call_prompt {c : Calculator} (hc : c.held = false) (timeout : Value)
    (events : List Entry) (p : Pool) : (p.call timeout c events).2 = p := by
  unfold Pool.call
  rw [hc]
  rcases Pool.waits timeout with f | _ | _
  · rfl
  · rfl
  · by_cases hworker : !p.hasWorker
    · simp only [if_pos hworker]
    · simp only [if_neg hworker, if_neg Bool.false_ne_true]
      cases c.answer events <;> rfl

namespace Engine

/-- Whether no calculator keeps a worker of a pool: it is not started, or as it was started. -/
def IsIdle (e : Engine) (pool : Option Pool) : Prop :=
  ∀ p, pool = some p → Pool.start e.workers = .ok p

/-- The answer of a calculator that is the first to be called. -/
def firstAnswer (e : Engine) (c : Calculator) (events : List Entry) : Except Fault Value :=
  (e.call c events none).1

/-- The values of the metrics of a registry on a sequence of events, each calculator being the
first. -/
def firstValues (e : Engine) (r : Registry) (events : List Entry) : List (Value × Value) :=
  r.definitions.map fun d => (d.id,
    if events.isEmpty then d.emptyValue
    else e.valueOf ((e.firstAnswer d.calculator events).bind finiteNumber))

variable {e : Engine} {pool : Option Pool}

theorem isIdle_none (e : Engine) : e.IsIdle none := fun _ h => by cases h

theorem call_of_idle {c : Calculator} (hc : c.held = false) (hpool : e.IsIdle pool)
    (events : List Entry) :
    (e.call c events pool).1 = e.firstAnswer c events ∧ e.IsIdle (e.call c events pool).2 := by
  unfold firstAnswer call
  by_cases htimeout : e.timeout.truthy
  · rw [if_pos htimeout, if_pos htimeout]
    cases pool with
    | none =>
      refine ⟨rfl, ?_⟩
      cases hstart : Pool.start e.workers with
      | error f =>
        simp only [Option.elim]
        exact isIdle_none e
      | ok p =>
        simp only [Option.elim, Pool.call_prompt hc]
        rintro q ⟨⟩
        exact hstart
    | some p =>
      have hstart := hpool p rfl
      simp only [Option.elim, hstart, Pool.call_prompt hc, true_and]
      exact hpool
  · rw [if_neg htimeout, if_neg htimeout]
    exact ⟨rfl, hpool⟩

theorem outcomes_of_idle (events : List Entry) {definitions : List Definition}
    (hprompt : ∀ d ∈ definitions, d.calculator.held = false) (hpool : e.IsIdle pool) :
    (e.outcomes events definitions pool).1 =
        definitions.map (fun d => (d, (e.firstAnswer d.calculator events).bind finiteNumber)) ∧
      e.IsIdle (e.outcomes events definitions pool).2 := by
  induction definitions generalizing pool with
  | nil => exact ⟨rfl, hpool⟩
  | cons d rest ih =>
    obtain ⟨hanswer, hidle⟩ := call_of_idle (hprompt d List.mem_cons_self) hpool events
    obtain ⟨hrest, hidle'⟩ := ih (fun d' hd' => hprompt d' (List.mem_cons_of_mem d hd')) hidle
    refine ⟨?_, hidle'⟩
    rw [List.map_cons, ← hanswer, ← hrest]
    rfl

theorem compute_of_idle {r : Registry} (hprompt : r.IsPrompt) (hpool : e.IsIdle e.pool)
    (now : Clock) (events : List Entry) :
    (e.compute now events r).1.values = e.firstValues r events ∧
      e.IsIdle (e.compute now events r).2 := by
  unfold compute firstValues
  by_cases hempty : events.isEmpty
  · simp only [if_pos hempty]
    exact ⟨trivial, hpool⟩
  · obtain ⟨hresults, hidle⟩ := outcomes_of_idle events hprompt hpool
    simp only [if_neg hempty, hresults, List.map_map]
    exact ⟨rfl, hidle⟩

/-- The values of a run on a prompt registry, and a pool that is idle again. -/
theorem values_run_of_idle {override : Option Registry}
    (hprompt : (override.getD e.registry).IsPrompt) (hpool : e.IsIdle e.pool) (now : Clock)
    (events : List Entry) (d : Disk) :
    (e.run now events override d).1.values = e.firstValues (override.getD e.registry) events ∧
      (e.run now events override d).2.1.IsIdle (e.run now events override d).2.1.pool :=
  compute_of_idle hprompt hpool now events

/-! ## Answers and failures -/

/-- What the first calculator returns is what it answers. -/
theorem answer_of_firstAnswer {c : Calculator} {events : List Entry} {v : Value}
    (h : e.firstAnswer c events = .ok v) : c.answer events = .ok v := by
  have hcall : ∀ p : Pool, (p.call e.timeout c events).1 = .ok v → c.answer events = .ok v := by
    intro p hp
    unfold Pool.call at hp
    split at hp
    · cases hp
    · cases hp
    · split at hp
      · cases hp
      · split at hp
        · cases hp
        · cases hanswer : c.answer events with
          | ok w => rwa [hanswer] at hp
          | error f =>
            rw [hanswer] at hp
            cases hp
  unfold firstAnswer call at h
  split at h
  · cases hstart : Pool.start e.workers with
    | error f =>
      rw [Option.elim_none, hstart] at h
      cases h
    | ok p =>
      rw [Option.elim_none, hstart] at h
      exact hcall p h
  · exact h

/-- A run on a prompt registry has a failure exactly if some calculator, called first, gives no
finite number. -/
theorem failures_compute_of_idle {r : Registry} (hprompt : r.IsPrompt) (hpool : e.IsIdle e.pool)
    (now : Clock) (events : List Entry) :
    (e.compute now events r).1.failures ≠ [] ↔
      events ≠ [] ∧ ∃ d ∈ r.definitions, ∃ f,
        (e.firstAnswer d.calculator events).bind finiteNumber = .error f := by
  unfold compute
  by_cases hempty : events.isEmpty
  · simp [List.isEmpty_iff.1 hempty]
  · have hfails : ∀ d : Definition,
        failureOf now d ((e.firstAnswer d.calculator events).bind finiteNumber) ≠ none ↔
          ∃ f, (e.firstAnswer d.calculator events).bind finiteNumber = .error f := by
      intro d
      cases (e.firstAnswer d.calculator events).bind finiteNumber <;> simp [failureOf]
    simp only [if_neg hempty, (outcomes_of_idle events hprompt hpool).1, ← hfails, ne_eq,
      List.filterMap_eq_nil_iff, List.forall_mem_map, Classical.not_forall, exists_prop,
      mt List.isEmpty_iff.2 hempty, not_false_eq_true, true_and]

/-! ## What the values depend on -/

theorem SameSettings.firstAnswer {e e' : Engine} (h : SameSettings e e') (c : Calculator)
    (events : List Entry) : e'.firstAnswer c events = e.firstAnswer c events := by
  unfold Engine.firstAnswer call
  rw [h.timeout, h.workers]

theorem SameSettings.firstValues {e e' : Engine} (h : SameSettings e e') (r : Registry)
    (events : List Entry) : e'.firstValues r events = e.firstValues r events := by
  simp only [Engine.firstValues, h.firstAnswer, h.valueOf]

/-- An engine sees of the events no more than the calculators do. -/
theorem firstValues_congr (e : Engine) {r : Registry} {events events' : List Entry}
    (hempty : events.isEmpty = events'.isEmpty)
    (h : ∀ d ∈ r.definitions, d.calculator.answer events = d.calculator.answer events') :
    e.firstValues r events = e.firstValues r events' := by
  refine List.map_congr_left fun d hd => ?_
  have hanswer : e.firstAnswer d.calculator events = e.firstAnswer d.calculator events' := by
    simp only [firstAnswer, call, Pool.call, h d hd]
  rw [hempty, hanswer]

end Engine

end TypingTrace
