import TypingTrace.Proofs.Engine.Deadline
import TypingTrace.Proofs.Engine.Failures

/-!
# A deadline that every calculator keeps

**Theorem (`run_inTime`).** Let all calculators of a registry finish in time, let a worker be free,
and let the deadline be one that can be waited for. Then a run under the deadline gives the same
values as one without, and the same metrics fail. If no calculator raises a timeout of its own, the
two runs agree in everything but the times of the failures.

A worker that is free stays free, because a calculator that finishes in time gives it back
(`HasRoom`, `call_of_room`). So every calculator is answered, and its fault passes through
`Fault.underDeadline`, which changes timeouts and nothing else. That a value is no finite number is
found out only afterwards, and this fault is never a timeout.

Neither condition can be left out. A calculator that raises a timeout is reported to have exceeded
the deadline, whatever it said (`selfTimed_disagrees`), and where there is no waiting for the
deadline every calculator fails (`overlong_disagrees`).
-/

namespace TypingTrace

open Time Log

/-! ## Faults under a deadline -/

/-- The fault that is reported of a calculator with a deadline. -/
def Fault.underDeadline (timeout : Value) (f : Fault) : Fault :=
  if f.isTimeout then .deadlineExceeded timeout else f

theorem Fault.underDeadline_of_not {f : Fault} (h : f.isTimeout = false) (timeout : Value) :
    f.underDeadline timeout = f := if_neg (by simp [h])

theorem Number.isTimeout_of_toFloat {n : Number} {f : Fault} (h : n.toFloat = .error f) :
    f.isTimeout = false := by
  cases n with
  | float x => cases h
  | scalar s => cases h
  | int n =>
    simp only [toFloat] at h
    split at h
    · cases h
    · cases h
      rfl
  | fraction q =>
    simp only [toFloat] at h
    split at h
    · cases h
    · cases h
      rfl

/-- That a value is no finite number is no timeout. -/
theorem isTimeout_of_finiteNumber {v : Value} {f : Fault} (h : finiteNumber v = .error f) :
    f.isTimeout = false := by
  have hnumber : ∀ {n m : Number}, (n.toFloat.map fun _ => m) = .error f →
      f.isTimeout = false := by
    intro n m hn
    cases hfloat : n.toFloat with
    | ok x => rw [hfloat] at hn; cases hn
    | error f' =>
      rw [hfloat] at hn
      cases hn
      exact Number.isTimeout_of_toFloat hfloat
  unfold finiteNumber at h
  split at h
  · exact hnumber h
  · exact hnumber h
  · split_ifs at h
    cases h
    rfl
  · cases h
    rfl

/-- A metric fails with a timeout only if its calculator raises one. -/
theorem isTimeout_of_outcome {d : Definition} {events : List Entry} {f : Fault}
    (hanswer : ∀ f, d.calculator.answer events = .error f → f.isTimeout = false)
    (h : d.outcome events = .error f) : f.isTimeout = false := by
  unfold Definition.outcome at h
  cases hd : d.calculator.answer events with
  | ok v =>
    rw [hd] at h
    exact isTimeout_of_finiteNumber h
  | error fault =>
    rw [hd] at h
    exact Except.error.inj h ▸ hanswer fault hd

/-- The fault of a calculator is changed before its value is looked at, and that makes no
difference. -/
theorem bind_mapError_underDeadline (timeout : Value) (answer : Except Fault Value) :
    (answer.mapError (Fault.underDeadline timeout)).bind finiteNumber =
      (answer.bind finiteNumber).mapError (Fault.underDeadline timeout) := by
  cases answer with
  | error f => rfl
  | ok v =>
    change finiteNumber v = (finiteNumber v).mapError (Fault.underDeadline timeout)
    cases hv : finiteNumber v with
    | ok n => rfl
    | error f =>
      exact congrArg Except.error
        (Fault.underDeadline_of_not (isTimeout_of_finiteNumber hv) timeout).symm

/-! ## Pools with a whole number of workers -/

theorem Number.lt_int (a b : Int) : (Number.int a).lt (.int b) = decide (a < b) := by
  show decide ((a : Rat) < b) = decide (a < b)
  exact decide_eq_decide.2 Rat.intCast_lt_intCast

namespace Pool

theorem start_of_pos {workers : Value} {W : Nat} (h : workers.number? = some (.int W))
    (hW : 1 ≤ W) : start workers = .ok ⟨workers, 0⟩ := by
  have hcompare : workers.compare .le (.int 0) = .ok false := by
    rw [Value.compare_numbers h rfl, Comparison.numbers, Number.le_int]
    exact congrArg Except.ok (decide_eq_false (by omega))
  rw [start, hcompare]
  rfl

theorem hasWorker_iff {p : Pool} {W : Nat} (h : p.workers.number? = some (.int W)) :
    p.hasWorker ↔ p.blocked < W := by
  rw [hasWorker, h]
  simp only [Number.lt_int, decide_eq_true_eq]
  omega

/-- A calculator that gets a worker and finishes in time. -/
theorem call_of_free {p : Pool} (hworker : p.hasWorker) {c : Calculator} (hc : c.held = false)
    {timeout : Value} (hwaits : waits timeout = .ok true) (events : List Entry) :
    p.call timeout c events = ((c.answer events).mapError (Fault.underDeadline timeout), p) := by
  unfold call
  rw [hwaits, hworker, hc]
  cases c.answer events <;> rfl

/-- A whole number of seconds can be waited for if its nanoseconds can be counted. -/
theorem waits_int {n : Int} : waits (.int n) = .ok true ↔ 0 < n ∧ n * 1000000000 < clockLimit := by
  have hcompare : (Value.int n).compare .gt (.int 0) = .ok (decide (0 < n)) := by
    rw [Value.compare_numbers rfl rfl, Comparison.numbers, Number.lt_int]
  rw [waits, hcompare]
  by_cases hpos : 0 < n <;> by_cases hlimit : n * 1000000000 < clockLimit <;>
    simp [hpos, hlimit, checkSeconds, bind, Except.bind, pure, Except.pure]

end Pool

/-! ## Runs in which every calculator gets a worker -/

namespace Engine

/-- Whether a calculator that is called gets a worker. -/
def HasRoom (e : Engine) (pool : Option Pool) : Prop :=
  ∃ p, pool.elim (Pool.start e.workers) .ok = .ok p ∧ p.hasWorker

variable {e : Engine} {pool : Option Pool} {events : List Entry}

/-- A pool that has a free worker, or none yet. -/
theorem hasRoom_of_forall {W : Nat} (hworkers : e.workers.number? = some (.int W)) (hW : 1 ≤ W)
    (hpool : ∀ p ∈ pool, p.hasWorker) : e.HasRoom pool := by
  cases pool with
  | none =>
    refine ⟨⟨e.workers, 0⟩, Pool.start_of_pos hworkers hW, ?_⟩
    rw [Pool.hasWorker_iff hworkers]
    exact hW
  | some p => exact ⟨p, rfl, hpool p rfl⟩

theorem call_of_room (htimeout : e.timeout.truthy) (hwaits : Pool.waits e.timeout = .ok true)
    (hroom : e.HasRoom pool) {c : Calculator} (hc : c.held = false) (events : List Entry) :
    (e.call c events pool).1 = (c.answer events).mapError (Fault.underDeadline e.timeout) ∧
      e.HasRoom (e.call c events pool).2 := by
  obtain ⟨p, hp, hworker⟩ := hroom
  unfold call
  simp only [if_pos htimeout, hp, Pool.call_of_free hworker hc hwaits, true_and]
  exact ⟨p, rfl, hworker⟩

theorem outcomes_of_room (htimeout : e.timeout.truthy)
    (hwaits : Pool.waits e.timeout = .ok true) {definitions : List Definition}
    (hprompt : ∀ d ∈ definitions, d.calculator.held = false) (hroom : e.HasRoom pool) :
    (e.outcomes events definitions pool).1 =
      definitions.map fun d =>
        (d, (d.outcome events).mapError (Fault.underDeadline e.timeout)) := by
  induction definitions generalizing pool with
  | nil => rfl
  | cons d rest ih =>
    obtain ⟨hanswer, hroom'⟩ :=
      call_of_room htimeout hwaits hroom (hprompt d List.mem_cons_self) events
    have hrest := ih (fun d' hd' => hprompt d' (List.mem_cons_of_mem d hd')) hroom'
    rw [List.map_cons, Definition.outcome, ← bind_mapError_underDeadline, ← hanswer, ← hrest]
    rfl

theorem valueOf_mapError (e : Engine) (change : Fault → Fault) (outcome : Except Fault Number) :
    e.valueOf (outcome.mapError change) = e.valueOf outcome := by
  cases outcome <;> rfl

/-- A run in which every calculator gets a worker and finishes in time. -/
theorem run_of_room (htimeout : e.timeout.truthy) (hwaits : Pool.waits e.timeout = .ok true)
    (hroom : e.HasRoom e.pool) {override : Option Registry}
    (hprompt : (override.getD e.registry).IsPrompt) (now : Clock)
    (events : List Entry) (d : Disk) :
    (e.run now events override d).1 = ⟨e.valuesOn events (override.getD e.registry),
      if events.isEmpty then []
      else (override.getD e.registry).definitions.filterMap fun d =>
        failureOf now d ((d.outcome events).mapError (Fault.underDeadline e.timeout))⟩ := by
  simp only [run, compute, valuesOn]
  by_cases hempty : events.isEmpty
  · simp only [if_pos hempty]
  · simp only [if_neg hempty, outcomes_of_room htimeout hwaits hprompt hroom, List.map_map,
      List.filterMap_map]
    congr 1
    refine List.map_congr_left fun d _ => ?_
    simp only [Function.comp, valueOf_mapError, Definition.outcome]

/-- The metrics that fail are the same, whatever becomes of their faults. -/
theorem metric_failureOf_mapError (now now' : Clock) (change : Fault → Fault) (d : Definition)
    (outcome : Except Fault Number) :
    (failureOf now d (outcome.mapError change)).map Failure.metric =
      (failureOf now' d outcome).map Failure.metric := by
  cases outcome with
  | ok n => rfl
  | error f => simp only [failureOf, Except.mapError, Option.map_some, Failure.ofFault]

/-- A failure says the same under every deadline, unless it is a timeout. -/
theorem cause_failureOf_mapError (now now' : Clock) (timeout : Value) (d : Definition)
    {outcome : Except Fault Number} (h : ∀ f, outcome = .error f → f.isTimeout = false) :
    (failureOf now d (outcome.mapError (Fault.underDeadline timeout))).map Failure.cause =
      (failureOf now' d outcome).map Failure.cause := by
  cases outcome with
  | ok n => rfl
  | error f =>
    simp only [failureOf, Except.mapError, Option.map_some, Failure.cause_ofFault,
      Fault.underDeadline_of_not (h f rfl)]

/-- **A deadline that is kept is hardly noticed**: under one that can be waited for and that every
calculator keeps, a run gives the values of a run without a deadline, and the same metrics fail. If
no calculator raises a timeout, the failures say the same. -/
theorem run_inTime {e e' : Engine} {W : Nat} (htimeout : e.timeout.truthy)
    (hwaits : Pool.waits e.timeout = .ok true) (hworkers : e.workers.number? = some (.int W))
    (hW : 1 ≤ W) (hpool : ∀ p ∈ e.pool, p.hasWorker) (hplain : e'.timeout.truthy = false)
    (hdefault : e'.defaultValue = e.defaultValue)
    {override override' : Option Registry} (hprompt : (override.getD e.registry).IsPrompt)
    (hregistry : override'.getD e'.registry = override.getD e.registry)
    (now now' : Clock) (events : List Entry) (disk disk' : Disk) :
    let timed := (e.run now events override disk).1
    let plain := (e'.run now' events override' disk').1
    timed.values = plain.values ∧
    timed.failures.map Failure.metric = plain.failures.map Failure.metric ∧
    ((∀ d ∈ (override.getD e.registry).definitions, ∀ f, d.calculator.answer events = .error f →
        f.isTimeout = false) →
      timed.failures.map Failure.cause = plain.failures.map Failure.cause) := by
  intro timed plain
  have hroom : e.HasRoom e.pool := hasRoom_of_forall hworkers hW hpool
  have htimed := run_of_room htimeout hwaits hroom hprompt now events disk
  have hplain' := run_eq hplain now' events override' disk'
  refine ⟨?values, ?metrics, fun hkind => ?causes⟩
  case values =>
    simp only [timed, plain, htimed, hplain', hregistry]
    exact (valuesOn_congr hdefault events _).symm
  case metrics =>
    simp only [timed, plain, htimed, hplain', hregistry, failuresOn]
    split_ifs with hempty
    · rfl
    · simp only [List.map_filterMap, metric_failureOf_mapError now now']
  case causes =>
    simp only [timed, plain, htimed, hplain', hregistry, failuresOn]
    split_ifs with hempty
    · rfl
    · rw [List.map_filterMap, List.map_filterMap]
      exact List.filterMap_congr fun d hd => cause_failureOf_mapError now now' e.timeout d
        fun f => isTimeout_of_outcome (hkind d hd)

/-! ### Runs that a deadline changes -/

/-- The counting engine with a deadline of five seconds. -/
def timed : Engine := { counting with timeout := .int 5 }

/-- Two metrics that fail for other reasons than the deadline. -/
def punctual : Registry where
  definitions := [
    { id := .text "flag", calculator := ⟨fun _ => .ok (.bool true), false⟩ },
    { id := .text "broken"
      calculator := ⟨fun _ => .error (.raised "ValueError" (some "x")), false⟩ }]

theorem run_inTime_punctual :
    let events := [Entry.loose ⟨none, none, none, none, none⟩]
    let result := (timed.run ⟨5⟩ events (some punctual) {}).1
    let plain := (counting.run ⟨6⟩ events (some punctual) {}).1
    result.values = plain.values ∧
    result.failures.map Failure.cause = plain.failures.map Failure.cause ∧
    plain.failures.map Failure.cause = [
      (.text "flag", "TypeError", "Calculator returned non-numeric value True"),
      (.text "broken", "ValueError", "x")] := by
  intro events result plain
  have hprompt : ((some punctual).getD timed.registry).IsPrompt := by
    simp [Registry.IsPrompt, punctual]
  have hwaits : Pool.waits timed.timeout = .ok true := Pool.waits_int.2 (by decide)
  have hworkers : timed.workers.number? = some (.int (4 : Nat)) := rfl
  have hplain : counting.timeout.truthy = false := rfl
  obtain ⟨hvalues, -, hcauses⟩ := run_inTime rfl hwaits hworkers (by decide)
    (fun p hp => by cases hp) hplain rfl hprompt rfl ⟨5⟩ ⟨6⟩ events {} {}
  refine ⟨hvalues, hcauses ?_, rfl⟩
  intro d hd f hf
  simp only [Option.getD_some, punctual, List.mem_cons, List.not_mem_nil, or_false] at hd
  rcases hd with rfl | rfl
  · cases hf
  · cases hf
    rfl

/-- A metric whose calculator finishes at once and raises a timeout. -/
def selfTimed : Registry where
  definitions := [
    { id := .text "a"
      calculator := ⟨fun _ => .error (.raised "TimeoutError" (some "x") true), false⟩ }]

/-- A timeout that a calculator raises is reported in other words with a deadline than without. -/
theorem selfTimed_disagrees :
    let events := [Entry.loose ⟨none, none, none, none, none⟩]
    selfTimed.IsPrompt ∧
    (timed.run ⟨0⟩ events (some selfTimed) {}).1.failures.map Failure.cause =
      [(.text "a", "TimeoutError", "Calculator exceeded 5s deadline")] ∧
    (counting.run ⟨0⟩ events (some selfTimed) {}).1.failures.map Failure.cause =
      [(.text "a", "TimeoutError", "x")] := by
  refine ⟨?_, ?_, ?_⟩
  · simp [Registry.IsPrompt, selfTimed]
  · rfl
  · rfl

/-- The counting engine with a deadline of more than three hundred years. -/
def overlong : Engine := { counting with timeout := .int 10000000000 }

/-- Under a deadline that is too long to wait for, a calculator that finishes fails all the same. -/
theorem overlong_disagrees :
    let events := [Entry.loose ⟨none, none, none, none, none⟩]
    counting.registry.IsPrompt ∧ overlong.timeout.truthy ∧
    (overlong.run ⟨0⟩ events none {}).1.failures.map Failure.cause =
      [(.text "events", "OverflowError", "timestamp too large to convert to C _PyTime_t")] ∧
    (counting.run ⟨0⟩ events none {}).1.failures = [] := by
  refine ⟨?_, ?_, ?_, ?_⟩
  · simp [Registry.IsPrompt, counting, Calculator.ofNumber]
  · rfl
  · rfl
  · rfl

end Engine

end TypingTrace
