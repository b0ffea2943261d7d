import TypingTrace.Proofs.Engine.Workers

/-!
# Calculators that keep their workers

**Theorem (`occupancy`).** Take an engine with a deadline that can be waited for and `W` workers
from its first call on: its metrics are called one after the other, in runs or alone, failures are
recorded and written, the engine is closed now and then, and calculators that were held may answer
at last. Between any two calls, as many workers of the current pool are kept as the engine counts,
and never more than `W`.

* If fewer than `W` are kept, a calculator that is called is begun. If it is not held, its outcome
  is the one it has when it is the first that the engine calls, and no more workers are kept after
  it. If it is held, it exceeds the deadline and keeps one worker more.
* If `W` are kept, a calculator that is called exceeds the deadline. It is cancelled before it is
  begun, and stays so, whatever happens later.
* When the engine has been closed, no worker is kept. Where closing is refused, since the failure
  log cannot be written, everything stays as it is.

The invariant is `Sound`: the crew of every pool, that of the current one and those that were given
up, is at rest between calls, and the engine's count is that of the current crew (`Counts`). A call
of a crew at rest is what `Crew.call_iff` says, so the engine's outcome of a metric is that of the
workers (`invoke_eq`). What is cancelled stays where it is (`Keeps`), because a worker takes what
waits and nothing else.
-/

namespace TypingTrace

open Time Log
open Relation (ReflTransGen)

/-! ## The count of an engine -/

namespace Engine

/-- An outcome depends on the deadline and the number of workers alone. -/
theorem outcomes_congr {e e' : Engine} (htimeout : e'.timeout = e.timeout)
    (hworkers : e'.workers = e.workers) (events : List Entry) (definitions : List Definition)
    (pool : Option Pool) :
    e'.outcomes events definitions pool = e.outcomes events definitions pool := by
  induction definitions generalizing pool with
  | nil => rfl
  | cons d rest ih => simp only [outcomes, invoke, call, htimeout, hworkers, ih]

/-- How many calculators keep a worker of the current pool, as the engine counts them. -/
def blocked (e : Engine) : Nat := e.pool.elim 0 Pool.blocked

/-- Whether a pool, or that there is none yet, is what an engine knows of a crew. -/
def Counts (e : Engine) (pool : Option Pool) (w : Crew) : Prop :=
  pool = none ∧ w.running = 0 ∨ pool = some ⟨e.workers, w.running⟩

variable {e : Engine} {pool : Option Pool} {w : Crew}

/-- The outcome of a metric is that of its calculator among the workers. -/
theorem invoke_eq (htimeout : e.timeout.truthy) (hwaits : Pool.waits e.timeout = .ok true)
    (hworkers : e.workers.number? = some (.int w.size)) (hsize : 1 ≤ w.size)
    (hcounts : e.Counts pool w) (d : Definition) (events : List Entry) :
    e.invoke d events pool = ((w.result e.timeout d.calculator events).bind finiteNumber,
      some ⟨e.workers, (w.after d.calculator events).running⟩) := by
  have hpool : pool.elim (Pool.start e.workers) .ok = .ok ⟨e.workers, w.running⟩ := by
    rcases hcounts with ⟨rfl, hrunning⟩ | rfl
    · rw [hrunning]
      exact Pool.start_of_pos hworkers hsize
    · rfl
  unfold invoke call
  simp only [if_pos htimeout, hpool, Crew.call_eq hworkers hwaits]

end Engine

/-! ## An engine and its workers -/

/-- An engine, the workers of its pool, and those of the pools that it gave up, first to last. -/
structure Site where
  engine : Engine
  crew : Crew
  retired : List Crew := []

namespace Site

def crews (s : Site) : List Crew := s.retired ++ [s.crew]

/-- What is at a place: that of a crew, and the place in it. -/
def given? (s : Site) (place : Nat × Nat) : Option Assignment :=
  s.crews[place.1]?.bind fun w => w.given[place.2]?

/-- The place of the calculator that is called next. -/
def next (s : Site) : Nat × Nat := (s.retired.length, s.crew.given.length)

/-- An engine whose workers have not been given anything. -/
def start (e : Engine) (W : Nat) : Site where
  engine := e
  crew := { size := W }

/-- An engine that is closed leaves its workers to themselves. -/
def close (now : Clock) (d : Disk) (s : Site) : Site :=
  match s.engine.close now d with
  | (.ok (), engine, _) => { engine, crew := { size := s.crew.size }, retired := s.crews }
  | (.error _, engine, _) => { s with engine }

/-- A metric has an outcome. Its calculator is given to the workers, and the engine keeps its
count. -/
inductive Invocation (s : Site) (d : Definition) (events : List Entry) :
    Except Fault Number → Site → Prop
  | mk {answer : Except Fault Value} {w : Crew} :
      s.crew.Call s.engine.timeout d.calculator events answer w →
      Invocation s d events (answer.bind finiteNumber)
        { s with
          engine := { s.engine with pool := (s.engine.invoke d events s.engine.pool).2 }
          crew := w }

/-- The metrics of a run have their outcomes, one after the other. -/
inductive Invocations (events : List Entry) :
    Site → List Definition → List (Definition × Except Fault Number) → Site → Prop
  | nil (s : Site) : Invocations events s [] [] s
  | cons {s s' s'' : Site} {d : Definition} {rest : List Definition}
      {outcome : Except Fault Number} {outcomes : List (Definition × Except Fault Number)} :
      s.Invocation d events outcome s' → Invocations events s' rest outcomes s'' →
      Invocations events s (d :: rest) ((d, outcome) :: outcomes) s''

/-- What can happen to an engine and all workers that it ever had. Recording failures and writing
them changes the log alone. -/
inductive Step (s : Site) : Site → Prop
  | invoke {d : Definition} {events : List Entry} {outcome : Except Fault Number} {s' : Site} :
      s.Invocation d events outcome s' → Step s s'
  | record (log : FailureLog) : Step s { s with engine := { s.engine with log } }
  | close (now : Clock) (d : Disk) : Step s (s.close now d)
  | work {w : Crew} : s.crew.Work w → Step s { s with crew := w }
  | release {w : Crew} : s.crew.Release w → Step s { s with
      engine := { s.engine with pool := s.engine.pool.map (Pool.release 1) }
      crew := w }
  | retired {i : Nat} {w w' : Crew} : s.retired[i]? = some w → w.Work w' ∨ w.Release w' →
      Step s { s with retired := s.retired.set i w' }

/-- Whether one site can become another. -/
def Reaches : Site → Site → Prop := ReflTransGen Step

variable {e : Engine} {W : Nat} {s s' : Site} {d : Definition} {events : List Entry}
  {outcome : Except Fault Number}

/-- Closing, whether it is refused or not. -/
theorem close_cases (now : Clock) (disk : Disk) (s : Site) : ∃ log,
    (s.engine.close now disk).1 = .ok () ∧ s.close now disk = {
        engine := { s.engine with log, pool := none }
        crew := { size := s.crew.size }
        retired := s.crews } ∨
      ∃ f, (s.engine.close now disk).1 = .error f ∧
        s.close now disk = { s with engine := { s.engine with log } } := by
  unfold Site.close Engine.close Engine.flush
  rcases s.engine.log.flush now disk with ⟨f | ⟨⟩, log, rest⟩
  · exact ⟨log, .inr ⟨f, rfl, rfl⟩⟩
  · exact ⟨log, .inl ⟨rfl, rfl⟩⟩

/-! ## Places -/

theorem given?_eq_some_iff {place : Nat × Nat} {a : Assignment} : s.given? place = some a ↔
    ∃ w, s.crews[place.1]? = some w ∧ w.given[place.2]? = some a := Option.bind_eq_some_iff

theorem getElem?_crews_length (s : Site) : s.crews[s.retired.length]? = some s.crew := by
  simp [crews]

/-- Whether what was cancelled is where it was. -/
def Keeps (s s' : Site) : Prop :=
  ∀ (place : Nat × Nat) (a : Assignment), s.given? place = some a → a.phase = .cancelled →
    s'.given? place = some a

theorem Keeps.refl (s : Site) : s.Keeps s := fun _ _ hgiven _ => hgiven

theorem Keeps.trans {s'' : Site} (h : s.Keeps s') (h' : s'.Keeps s'') : s.Keeps s'' :=
  fun place a hgiven hphase => h' place a (h place a hgiven hphase) hphase

/-- Crews that come new change nothing. -/
theorem keeps_of_append {more : List Crew} (h : s'.crews = s.crews ++ more) : s.Keeps s' := by
  intro place a hgiven _
  obtain ⟨w, hw, ha⟩ := given?_eq_some_iff.1 hgiven
  refine given?_eq_some_iff.2 ⟨w, ?_, ha⟩
  rw [h, List.getElem?_append_left (List.getElem?_eq_some_iff.1 hw).1, hw]

/-- When a crew is exchanged for one that keeps what was cancelled, so does the site. -/
theorem keeps_of_set {i : Nat} {w w' : Crew} (hi : s.crews[i]? = some w) (hkeeps : w.Keeps w')
    (hset : s'.crews = s.crews.set i w') : s.Keeps s' := by
  intro place a hgiven hphase
  obtain ⟨v, hv, ha⟩ := given?_eq_some_iff.1 hgiven
  rw [given?_eq_some_iff, hset]
  by_cases heq : i = place.1
  · subst heq
    obtain rfl : w = v := Option.some.inj (hi.symm.trans hv)
    exact ⟨w', List.getElem?_set_self (List.getElem?_eq_some_iff.1 hi).1, hkeeps _ a ha hphase⟩
  · exact ⟨v, (List.getElem?_set_ne heq).trans hv, ha⟩

theorem crews_exchange (s : Site) (engine : Engine) (w : Crew) :
    ({ s with engine, crew := w } : Site).crews = s.crews.set s.retired.length w := by
  simp [crews]

/-! ## The invariant -/

/-- What a site keeps of the engine that it started with. -/
structure Sound (e : Engine) (W : Nat) (s : Site) : Prop where
  timeout : s.engine.timeout = e.timeout
  workers : s.engine.workers = e.workers
  size : s.crew.size = W
  settled : s.crew.Settled
  retired : ∀ w ∈ s.retired, w.Settled
  counts : e.Counts s.engine.pool s.crew

theorem sound_start (hpool : e.pool = none) : Sound e W (start e W) where
  timeout := rfl
  workers := rfl
  size := rfl
  settled := Crew.settled_new W
  retired _ hw := absurd hw List.not_mem_nil
  counts := .inl ⟨hpool, rfl⟩

namespace Sound

theorem blocked_eq (h : Sound e W s) : s.engine.blocked = s.crew.running := by
  unfold Engine.blocked
  rcases h.counts with ⟨hpool, hrunning⟩ | hpool <;> rw [hpool]
  · exact hrunning.symm
  · rfl

theorem running_le (h : Sound e W s) : s.crew.running ≤ W := h.size ▸ h.settled.running_le

/-- The current crew may be exchanged for another one at rest that the engine's pool counts. -/
theorem exchange (h : Sound e W s) {w : Crew} (hw : w.Settled) (hsize : w.size = s.crew.size)
    {pool : Option Pool} (hcounts : e.Counts pool w) :
    Sound e W { s with engine := { s.engine with pool }, crew := w } where
  timeout := h.timeout
  workers := h.workers
  size := hsize.trans h.size
  settled := hw
  retired := h.retired
  counts := hcounts

theorem withLog (h : Sound e W s) (log : FailureLog) :
    Sound e W { s with engine := { s.engine with log } } :=
  ⟨h.timeout, h.workers, h.size, h.settled, h.retired, h.counts⟩

section

variable (htimeout : e.timeout.truthy) (hwaits : Pool.waits e.timeout = .ok true)
  (hworkers : e.workers.number? = some (.int W)) (hW : 1 ≤ W)

include htimeout hwaits hworkers hW

/-- The outcome of a metric that a sound site invokes, as the engine computes it. -/
theorem invoke_eq (h : Sound e W s) (d : Definition) (events : List Entry) :
    s.engine.invoke d events s.engine.pool =
      ((s.crew.result e.timeout d.calculator events).bind finiteNumber,
        some ⟨e.workers, (s.crew.after d.calculator events).running⟩) := by
  rw [← Engine.invoke_eq htimeout hwaits (h.size ▸ hworkers) (h.size ▸ hW) h.counts d events]
  simp only [Engine.invoke, Engine.call, h.timeout, h.workers]

/-- A metric has one outcome, and it is that of the engine. -/
theorem invocation_iff (h : Sound e W s) : s.Invocation d events outcome s' ↔
    outcome = (s.engine.invoke d events s.engine.pool).1 ∧ s' = { s with
      engine := { s.engine with pool := (s.engine.invoke d events s.engine.pool).2 }
      crew := s.crew.after d.calculator events } := by
  have houtcome := congrArg Prod.fst (h.invoke_eq htimeout hwaits hworkers hW d events)
  constructor
  · rintro ⟨hcall⟩
    obtain ⟨rfl, rfl⟩ := (Crew.call_iff h.settled (h.timeout.symm ▸ hwaits)).1 hcall
    rw [h.timeout]
    exact ⟨houtcome.symm, rfl⟩
  · rintro ⟨rfl, rfl⟩
    rw [houtcome, ← h.timeout]
    exact .mk ((Crew.call_iff h.settled (h.timeout.symm ▸ hwaits)).2 ⟨rfl, rfl⟩)

theorem invocation (h : Sound e W s) (hinvocation : s.Invocation d events outcome s') :
    Sound e W s' := by
  obtain ⟨-, rfl⟩ := (h.invocation_iff htimeout hwaits hworkers hW).1 hinvocation
  refine h.exchange (h.settled.after d.calculator events) rfl (.inr ?_)
  rw [h.invoke_eq htimeout hwaits hworkers hW]

/-- One step keeps the invariant, and all that was cancelled. -/
theorem step (h : Sound e W s) (hstep : Step s s') : Sound e W s' ∧ s.Keeps s' := by
  cases hstep with
  | invoke hinvocation =>
    refine ⟨h.invocation htimeout hwaits hworkers hW hinvocation, ?_⟩
    obtain ⟨-, rfl⟩ := (h.invocation_iff htimeout hwaits hworkers hW).1 hinvocation
    exact keeps_of_set s.getElem?_crews_length (Crew.keeps_add _ s.crew) (s.crews_exchange _ _)
  | record log => exact ⟨h.withLog log, .refl _⟩
  | close now disk =>
    obtain ⟨log, ⟨-, hclose⟩ | ⟨f, -, hclose⟩⟩ := close_cases now disk s <;> rw [hclose]
    · have hretired : ∀ w ∈ s.crews, w.Settled :=
        List.forall_mem_append.2 ⟨h.retired, List.forall_mem_singleton.2 h.settled⟩
      exact ⟨⟨h.timeout, h.workers, h.size, Crew.settled_new s.crew.size, hretired,
        .inl ⟨rfl, rfl⟩⟩, keeps_of_append rfl⟩
    · exact ⟨h.withLog log, .refl _⟩
  | work hwork => exact absurd hwork h.settled.not_work
  | @release w hrelease =>
    obtain ⟨hsettled, hsize, hrunning⟩ := h.settled.release hrelease
    refine ⟨h.exchange hsettled hsize ?_,
      keeps_of_set s.getElem?_crews_length hrelease.keeps (s.crews_exchange _ _)⟩
    rcases h.counts with ⟨-, hnone⟩ | hpool
    · omega
    · rw [hpool, hrunning]
      exact .inr rfl
  | @retired i w w' hi hmove =>
    have hw : w.Settled := h.retired w (List.mem_of_getElem? hi)
    have hrelease : w.Release w' := hmove.resolve_left hw.not_work
    have hlt : i < s.retired.length := (List.getElem?_eq_some_iff.1 hi).1
    refine ⟨⟨h.timeout, h.workers, h.size, h.settled, fun v hv => ?_, h.counts⟩,
      keeps_of_set ((List.getElem?_append_left hlt).trans hi) hrelease.keeps
        (List.set_append_left i w' hlt).symm⟩
    rcases List.mem_or_eq_of_mem_set hv with hv | rfl
    · exact h.retired v hv
    · exact (hw.release hrelease).1

theorem reaches (h : Sound e W s) (hreaches : Reaches s s') : Sound e W s' ∧ s.Keeps s' := by
  induction hreaches with
  | refl => exact ⟨h, .refl s⟩
  | tail _ hstep ih =>
    obtain ⟨hsound, hkeeps⟩ := ih.1.step htimeout hwaits hworkers hW hstep
    exact ⟨hsound, ih.2.trans hkeeps⟩

/-! ### What comes of a metric that is invoked -/

theorem invocation_spec (h : Sound e W s) (hinvocation : s.Invocation d events outcome s') :
    s'.given? s.next = some ⟨d.calculator, events, s.crew.fate d.calculator⟩ ∧
      outcome = (s.crew.result e.timeout d.calculator events).bind finiteNumber ∧
      s'.engine.blocked =
        s.crew.running + if s.crew.running < W ∧ d.calculator.held then 1 else 0 := by
  obtain ⟨rfl, rfl⟩ := (h.invocation_iff htimeout hwaits hworkers hW).1 hinvocation
  rw [h.invoke_eq htimeout hwaits hworkers hW, ← h.size, ← Crew.running_after _ _ events]
  refine ⟨given?_eq_some_iff.2 ⟨_, getElem?_crews_length _, ?_⟩, rfl, rfl⟩
  exact Crew.getElem?_add_length _ _

/-- A worker is free, and the calculator finishes in time. -/
theorem invocation_prompt (h : Sound e W s) (hinvocation : s.Invocation d events outcome s')
    (hfree : s.engine.blocked < W) (hprompt : d.calculator.held = false) :
    s'.given? s.next = some ⟨d.calculator, events, .ended⟩ ∧
      outcome = (e.invoke d events none).1 ∧ s'.engine.blocked = s.engine.blocked := by
  obtain ⟨hplace, houtcome, hafter⟩ := h.invocation_spec htimeout hwaits hworkers hW hinvocation
  rw [h.blocked_eq] at hfree ⊢
  have hfate : s.crew.fate d.calculator = .ended :=
    Crew.fate_of_free (h.size.symm ▸ hfree) hprompt
  have hfresh : Crew.fate { size := W } d.calculator = .ended := Crew.fate_of_free hW hprompt
  have hfirst := Engine.invoke_eq (w := { size := W }) htimeout hwaits hworkers hW
    (.inl ⟨rfl, rfl⟩) d
    events
  refine ⟨hfate ▸ hplace, ?_, by simpa [hprompt] using hafter⟩
  rw [houtcome, hfirst, Crew.result, Crew.result, hfate, hfresh]

/-- A worker is free, and the calculator keeps it. -/
theorem invocation_held (h : Sound e W s) (hinvocation : s.Invocation d events outcome s')
    (hfree : s.engine.blocked < W) (hheld : d.calculator.held) :
    s'.given? s.next = some ⟨d.calculator, events, .running⟩ ∧
      outcome = .error (.deadlineExceeded e.timeout) ∧
      s'.engine.blocked = s.engine.blocked + 1 := by
  obtain ⟨hplace, houtcome, hafter⟩ := h.invocation_spec htimeout hwaits hworkers hW hinvocation
  rw [h.blocked_eq] at hfree ⊢
  have hfate : s.crew.fate d.calculator = .running :=
    Crew.fate_of_held (h.size.symm ▸ hfree) hheld
  refine ⟨hfate ▸ hplace, ?_, by simpa [hfree, hheld] using hafter⟩
  rw [houtcome, Crew.result, hfate]
  rfl

/-- No worker is free. -/
theorem invocation_full (h : Sound e W s) (hinvocation : s.Invocation d events outcome s')
    (hfull : s.engine.blocked = W) : outcome = .error (.deadlineExceeded e.timeout) ∧
      s'.engine.blocked = s.engine.blocked ∧
      ∀ s'', Reaches s' s'' →
        s''.given? s.next = some ⟨d.calculator, events, .cancelled⟩ := by
  obtain ⟨hplace, houtcome, hafter⟩ := h.invocation_spec htimeout hwaits hworkers hW hinvocation
  rw [h.blocked_eq] at hfull ⊢
  have hfate : s.crew.fate d.calculator = .cancelled :=
    Crew.fate_of_full (Nat.le_of_eq (h.size.trans hfull.symm))
  refine ⟨?_, by simpa [hfull] using hafter, fun s'' hlater => ?_⟩
  · rw [houtcome, Crew.result, hfate]
    rfl
  · have hsound := h.invocation htimeout hwaits hworkers hW hinvocation
    exact (hsound.reaches htimeout hwaits hworkers hW hlater).2 _ _ (hfate ▸ hplace) rfl

/-! ### Runs -/

/-- The metrics of a run have the outcomes that the engine computes. -/
theorem invocations (h : Sound e W s) (events : List Entry) (definitions : List Definition) :
    let computed := s.engine.outcomes events definitions s.engine.pool
    ∃ s', s.Invocations events definitions computed.1 s' ∧
      s'.engine = { s.engine with pool := computed.2 } ∧ Reaches s s' := by
  induction definitions generalizing s with
  | nil => exact ⟨s, .nil s, rfl, .refl⟩
  | cons d rest ih =>
    have hinvocation : s.Invocation d events _ _ :=
      (h.invocation_iff htimeout hwaits hworkers hW).2 ⟨rfl, rfl⟩
    obtain ⟨s', hrest, hengine, hreaches⟩ :=
      ih (h.invocation htimeout hwaits hworkers hW hinvocation)
    -- the engine that goes on with the rest differs in its pool alone
    have hcomputed : ∀ pool pool', { s.engine with pool }.outcomes events rest pool' =
        s.engine.outcomes events rest pool' := by
      intro pool pool'
      apply Engine.outcomes_congr <;> rfl
    simp only [hcomputed] at hrest hengine
    exact ⟨s', .cons hinvocation hrest, hengine, .head (.invoke hinvocation) hreaches⟩

/-- A run reports the outcomes of its metrics, and leaves the engine as they do, but for its log. -/
theorem run (h : Sound e W s) (now : Clock) (events : List Entry) (override : Option Registry)
    (disk : Disk) (hempty : events.isEmpty = false) :
    let run := s.engine.run now events override disk
    ∃ outcomes s',
      s.Invocations events (override.getD s.engine.registry).definitions outcomes s' ∧
      run.1 = ⟨outcomes.map fun (d, outcome) => (d.id, s.engine.valueOf outcome),
        outcomes.filterMap fun (d, outcome) => Engine.failureOf now d outcome⟩ ∧
      Reaches s { s' with engine := run.2.1 } := by
  intro run
  obtain ⟨s', hinvocations, hengine, hreaches⟩ := h.invocations htimeout hwaits hworkers hW events
    (override.getD s.engine.registry).definitions
  have hcompute : s.engine.compute now events (override.getD s.engine.registry) = _ :=
    if_neg (by simp [hempty])
  refine ⟨_, s', hinvocations, ?_, .tail hreaches ?_⟩
  · simp only [run, Engine.run, hcompute]
  · have hlogged : run.2.1 = { s'.engine with log := run.2.1.log } := by
      simp only [run, Engine.run, hcompute, hengine]
    rw [hlogged]
    exact .record _

end

end Sound

/-- **Calculators that keep their workers**, from the first call of an engine with `W` workers on.
In any state between two calls:

* the engine counts the workers that are kept, which are at most `W`;
* a metric that is invoked has an outcome;
* this is the outcome that the engine computes, and it depends on what is kept as follows. If a
  worker is free, the calculator has been taken by one: it ends with the outcome of a fresh engine,
  or it exceeds the deadline and goes on. If no worker is free it exceeds the deadline, and is
  cancelled for good;
* after the engine has been closed no worker is kept, and one that could not be closed keeps them;
* a run invokes its metrics one after the other, and reports their outcomes. -/
theorem occupancy (htimeout : e.timeout.truthy) (hwaits : Pool.waits e.timeout = .ok true)
    (hworkers : e.workers.number? = some (.int W)) (hW : 1 ≤ W) (hpool : e.pool = none)
    (hreaches : Reaches (start e W) s) :
    (s.engine.blocked = s.crew.running ∧ s.engine.blocked ≤ W) ∧
    (∀ d events, ∃ outcome s', s.Invocation d events outcome s') ∧
    (∀ d events outcome s', s.Invocation d events outcome s' →
      outcome = (s.engine.invoke d events s.engine.pool).1 ∧
      (s.engine.blocked < W → d.calculator.held = false →
        s'.given? s.next = some ⟨d.calculator, events, .ended⟩ ∧
        outcome = (e.invoke d events none).1 ∧ s'.engine.blocked = s.engine.blocked) ∧
      (s.engine.blocked < W → d.calculator.held →
        s'.given? s.next = some ⟨d.calculator, events, .running⟩ ∧
        outcome = .error (.deadlineExceeded e.timeout) ∧
        s'.engine.blocked = s.engine.blocked + 1) ∧
      (s.engine.blocked = W →
        outcome = .error (.deadlineExceeded e.timeout) ∧ s'.engine.blocked = s.engine.blocked ∧
        ∀ s'', Reaches s' s'' →
          s''.given? s.next = some ⟨d.calculator, events, .cancelled⟩)) ∧
    (∀ now disk, (s.close now disk).engine.blocked =
      if (s.engine.close now disk).1 matches .ok () then 0 else s.engine.blocked) ∧
    (∀ now events override disk, events.isEmpty = false →
      let run := s.engine.run now events override disk
      ∃ outcomes s',
        s.Invocations events (override.getD s.engine.registry).definitions outcomes s' ∧
        run.1 = ⟨outcomes.map fun (d, outcome) => (d.id, s.engine.valueOf outcome),
          outcomes.filterMap fun (d, outcome) => Engine.failureOf now d outcome⟩ ∧
        Reaches s { s' with engine := run.2.1 }) := by
  have h : Sound e W s := ((sound_start hpool).reaches htimeout hwaits hworkers hW hreaches).1
  refine ⟨⟨h.blocked_eq, h.blocked_eq ▸ h.running_le⟩, fun d events => ?_, ?_, ?_,
    h.run htimeout hwaits hworkers hW⟩
  · exact ⟨_, _, (h.invocation_iff htimeout hwaits hworkers hW).2 ⟨rfl, rfl⟩⟩
  · intro d events outcome s' hinvocation
    exact ⟨((h.invocation_iff htimeout hwaits hworkers hW).1 hinvocation).1,
      h.invocation_prompt htimeout hwaits hworkers hW hinvocation,
      h.invocation_held htimeout hwaits hworkers hW hinvocation,
      h.invocation_full htimeout hwaits hworkers hW hinvocation⟩
  · intro now disk
    obtain ⟨log, ⟨hok, hclose⟩ | ⟨f, herror, hclose⟩⟩ := close_cases now disk s
    · rw [hok, hclose]
      rfl
    · rw [herror, hclose]
      rfl

/-! ### One worker -/

/-- An engine with a deadline of five seconds and one worker. -/
def lone : Engine := { Engine.timed with workers := .int 1 }

/-- A metric whose calculator does not finish in time. -/
def hung : Definition := { id := .text "hung", calculator := ⟨fun _ => .ok (.int 1), true⟩ }

/-- A metric whose calculator finishes at once. -/
def quick : Definition := { id := .text "quick", calculator := ⟨fun _ => .ok (.int 2), false⟩ }

theorem occupancy_lone :
    let events := [Entry.loose ⟨none, none, none, none, none⟩]
    ∃ s s' : Site,
      (start lone 1).Invocation hung events (.error (.deadlineExceeded (.int 5))) s ∧
      s.engine.blocked = 1 ∧
      s.Invocation quick events (.error (.deadlineExceeded (.int 5))) s' ∧
      (∀ s'', Reaches s' s'' → s''.given? (0, 1) = some ⟨quick.calculator, events, .cancelled⟩) ∧
      (s.close ⟨0⟩ {}).engine.blocked = 0 := by
  intro events
  have hworkers : lone.workers.number? = some (.int (1 : Nat)) := rfl
  have hwaits : Pool.waits lone.timeout = .ok true := Pool.waits_int.2 (by decide)
  obtain ⟨-, hinvokes, hspec, -⟩ :=
    occupancy (e := lone) rfl hwaits hworkers (Nat.le_refl 1) rfl .refl
  obtain ⟨outcome, s, hfirst⟩ := hinvokes hung events
  obtain ⟨-, -, hheld, -⟩ := hspec hung events outcome s hfirst
  obtain ⟨hplace, rfl, hblocked⟩ := hheld Nat.zero_lt_one rfl
  obtain ⟨-, rfl⟩ := 
    ((sound_start rfl).invocation_iff rfl hwaits hworkers (Nat.le_refl 1)).1 hfirst
  obtain ⟨-, hinvokes', hspec', hclosed, -⟩ :=
    occupancy (e := lone) rfl hwaits hworkers (Nat.le_refl 1) rfl (.single (.invoke hfirst))
  obtain ⟨outcome', s', hsecond⟩ := hinvokes' quick events
  obtain ⟨-, -, -, hfull⟩ := hspec' quick events outcome' s' hsecond
  obtain ⟨rfl, -, hcancelled⟩ := hfull hblocked
  exact ⟨_, s', hfirst, hblocked, hsecond, hcancelled, hclosed ⟨0⟩ {}⟩

/-! ### A deadline that is too long -/

/-- One worker, and a deadline that is too long to wait for. -/
def patient : Engine := { lone with timeout := .int 10000000000 }

/-- An engine with a busy worker, and a failure log that waits to be written but has half of a
surrogate pair in it. -/
def unwritten : Engine := { lone with
  pool := some ⟨.int 1, 1⟩
  log := .writing {
    path := "failures.jsonl"
    batchSize := .int 10
    flushInterval := .int 0
    buffer := [[("message", .text (String.singleton (Text.ofHalf 0xd800)))]]
    lastFlush := ⟨0⟩ } }

/-- **Workers that are kept otherwise.** Under a deadline that is too long to wait for, a calculator
that keeps a worker fails with another fault than a timeout. One that is called while no worker is
free is not cancelled, and is done when the worker has become free. An engine that could not be
closed keeps its workers. -/
theorem occupancy_patient :
    let events := [Entry.loose ⟨none, none, none, none, none⟩]
    (∃ s s' s'' : Site, (start patient 1).Invocation hung events (.error .tooManySeconds) s ∧
      s.engine.blocked = 1 ∧ s.Invocation quick events (.error .tooManySeconds) s' ∧
      Reaches s' s'' ∧ s''.given? (0, 1) = some ⟨quick.calculator, events, .ended⟩) ∧
    ∃ f, (unwritten.close ⟨0⟩ {}).1 = .error f ∧ (unwritten.close ⟨0⟩ {}).2.1.blocked = 1 := by
  intro events
  have hrefused : Pool.waits patient.timeout = .error .tooManySeconds := by rfl
  let full : Crew := { size := 1, given := [⟨hung.calculator, events, .running⟩] }
  let queued : Crew := full.add ⟨quick.calculator, events, .waiting⟩
  have hfirst : Crew.Call patient.timeout hung.calculator events { size := 1 }
      (.error .tooManySeconds) full :=
    .refused hrefused (.single (.take (i := 0) rfl (by simp) (by decide))) (by decide)
  have hsecond : Crew.Call patient.timeout quick.calculator events full
      (.error .tooManySeconds) queued := .refused hrefused .refl (by decide)
  have hreleased : queued.Release (queued.change 0 .ended) := .mk rfl rfl rfl
  have htaken : (queued.change 0 .ended).Work ((queued.change 0 .ended).change 1 .running) :=
    .take rfl (by decide) (by decide)
  have hanswered : ((queued.change 0 .ended).change 1 .running).Work
      (((queued.change 0 .ended).change 1 .running).change 1 .ended) := .answer rfl rfl rfl
  let first : Site := { engine := { patient with pool := some ⟨.int 1, 1⟩ }, crew := full }
  let second : Site := { first with crew := queued }
  have hrun : (start patient 1).Invocation hung events (.error .tooManySeconds) first :=
    Invocation.mk (s := start patient 1) (d := hung) hfirst
  have hqueue : first.Invocation quick events (.error .tooManySeconds) second :=
    Invocation.mk (s := first) (d := quick) hsecond
  have hlater : Reaches second _ :=
    .tail (.tail (.single (.release hreleased)) (.work htaken)) (.work hanswered)
  exact ⟨⟨first, second, _, hrun, rfl, hqueue, hlater, rfl⟩, _, rfl, rfl⟩

end Site

end TypingTrace
