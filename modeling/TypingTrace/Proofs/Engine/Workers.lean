import Mathlib.Logic.Relation
import TypingTrace.Proofs.Engine.Agreement

/-!
# The workers of a pool, one by one

The engine counts the calculators that keep a worker, and nothing else (`Pool.call`). What it stands
for is a crew of workers with a queue. A calculator with a deadline is put at the end of the queue.
A free worker takes the first calculator that waits, and keeps it until it has answered. The caller
waits until the calculator has answered or the deadline is over, and then takes it back if it still
waits. There may be no time to wait; and a caller who cannot wait for a deadline fails, and leaves
the calculator where it is.

Of time it is assumed that a deadline that can be waited for is over only when no worker can go on:
whatever waits and could be taken has been taken by then, and whatever does not block has answered.

**Theorem (`Crew.call_iff`).** Let there be time to wait, let nothing wait in the queue, and let
every calculator that runs be held. Then a call has one result, and the calculator one fate: it has
run if a worker is free and it is not held, it runs on if a worker is free and it is held, and it
was cancelled if no worker is free. The result is that of the engine's count (`Crew.call_eq`).

During such a call nothing changes but the phase of the new calculator (`Crew.exists_phase`). What
was there is at rest, because it neither waits nor can answer.
-/

namespace TypingTrace

open Relation (ReflTransGen)

/-- What became of a calculator that was given to the workers. -/
inductive Phase
  | waiting
  /-- Taken back before a worker took it. -/
  | cancelled
  | running
  | ended
  deriving DecidableEq

/-- A calculator that was given to the workers. -/
structure Assignment where
  calculator : Calculator
  events : List Entry
  phase : Phase := .waiting

/-- A number of workers, and what they were ever given, first to last. -/
structure Crew where
  size : Nat
  given : List Assignment := []

namespace Crew

variable {w w' : Crew} {a : Assignment} {c : Calculator} {events : List Entry} {i : Nat}

/-- What became of the calculator at a place. -/
def phase? (w : Crew) (i : Nat) : Option Phase := w.given[i]?.map (·.phase)

/-- How many workers are busy. -/
def running (w : Crew) : Nat := w.given.countP (·.phase = .running)

def change (i : Nat) (p : Phase) (w : Crew) : Crew :=
  { w with given := w.given.modify i fun a => { a with phase := p } }

def add (a : Assignment) (w : Crew) : Crew := { w with given := w.given ++ [a] }

/-- Takes a calculator back, which only one that waits allows. -/
def cancel (i : Nat) (w : Crew) : Crew :=
  if w.phase? i = some .waiting then w.change i .cancelled else w

/-- What a worker can do: take the first calculator that waits if it is free, or have the answer of
one that is not held. -/
inductive Work (w : Crew) : Crew → Prop
  | take {i : Nat} : w.phase? i = some .waiting → (∀ j < i, w.phase? j ≠ some .waiting) →
      w.running < w.size → Work w (w.change i .running)
  | answer {i : Nat} {a : Assignment} : w.given[i]? = some a → a.phase = .running →
      a.calculator.held = false → Work w (w.change i .ended)

/-- A calculator that is held answers at last, long after its deadline. -/
inductive Release (w : Crew) : Crew → Prop
  | mk {i : Nat} {a : Assignment} : w.given[i]? = some a → a.phase = .running →
      a.calculator.held → Release w (w.change i .ended)

/-- A call of a calculator with a deadline. -/
inductive Call (timeout : Value) (c : Calculator) (events : List Entry) (w : Crew) :
    Except Fault Value → Crew → Prop
  | answered {w' : Crew} : ReflTransGen Work (w.add ⟨c, events, .waiting⟩) w' →
      w'.phase? w.given.length = some .ended →
      Call timeout c events w ((c.answer events).mapError (Fault.underDeadline timeout)) w'
  | expired {waits : Bool} {w' : Crew} : Pool.waits timeout = .ok waits →
      ReflTransGen Work (w.add ⟨c, events, .waiting⟩) w' → (waits → ∀ w'', ¬ Work w' w'') →
      w'.phase? w.given.length ≠ some .ended →
      Call timeout c events w (.error (.deadlineExceeded timeout)) (w'.cancel w.given.length)
  | refused {f : Fault} {w' : Crew} : Pool.waits timeout = .error f →
      ReflTransGen Work (w.add ⟨c, events, .waiting⟩) w' →
      w'.phase? w.given.length ≠ some .ended → Call timeout c events w (.error f) w'

/-! ## One calculator more, and one phase changed -/

@[simp] theorem size_add (a : Assignment) (w : Crew) : (w.add a).size = w.size := rfl

theorem running_add (a : Assignment) (w : Crew) :
    (w.add a).running = w.running + if a.phase = .running then 1 else 0 := by
  simp [running, add, List.countP_append, List.countP_cons]

theorem getElem?_add_length (a : Assignment) (w : Crew) :
    (w.add a).given[w.given.length]? = some a := by
  simp [add]

theorem getElem?_add_of_some {b : Assignment} (h : w.given[i]? = some b) (a : Assignment) :
    (w.add a).given[i]? = some b := by
  rwa [add, List.getElem?_append_left (List.getElem?_eq_some_iff.1 h).1]

theorem phase?_add_length (a : Assignment) (w : Crew) :
    (w.add a).phase? w.given.length = some a.phase := by
  rw [phase?, getElem?_add_length, Option.map_some]

theorem phase?_add_of_lt (a : Assignment) (h : i < w.given.length) :
    (w.add a).phase? i = w.phase? i := by
  simp only [phase?, add, List.getElem?_append_left h]

/-- A place is that of the new calculator or an earlier one. -/
theorem getElem?_add {b : Assignment} (h : (w.add a).given[i]? = some b) :
    w.given[i]? = some b ∨ i = w.given.length ∧ b = a := by
  rw [add] at h
  rcases Nat.lt_or_ge i w.given.length with hi | hi
  · rw [List.getElem?_append_left hi] at h
    exact .inl h
  · rw [List.getElem?_append_right hi, List.getElem?_singleton] at h
    split_ifs at h with heq
    exact .inr ⟨by omega, (Option.some.inj h).symm⟩

/-- The new calculator changes its phase. -/
theorem change_add (a : Assignment) (w : Crew) (p : Phase) :
    (w.add a).change w.given.length p = w.add { a with phase := p } := by
  simp [change, add, List.modify_eq_set_getElem?]

/-- A change, with what is before it and what is after it. -/
theorem exists_change (h : w.given[i]? = some a) (p : Phase) : ∃ before after,
    w.given = before ++ a :: after ∧
      (w.change i p).given = before ++ { a with phase := p } :: after := by
  obtain ⟨hlt, hget⟩ := List.getElem?_eq_some_iff.1 h
  obtain ⟨before, b, after, hsplit, hlength, hmodify⟩ :=
    List.exists_of_modify (fun a : Assignment => { a with phase := p }) hlt
  have hb : b = a := by
    simp only [hsplit, ← hlength, List.getElem_append_right (Nat.le_refl _), Nat.sub_self,
      List.getElem_cons_zero] at hget
    exact hget
  exact ⟨before, after, hb ▸ hsplit, hb ▸ hmodify⟩

/-! ## Crews at rest -/

/-- Whether nothing waits, and all that runs is held. -/
structure Settled (w : Crew) : Prop where
  taken : ∀ a ∈ w.given, a.phase ≠ .waiting
  held : ∀ a ∈ w.given, a.phase = .running → a.calculator.held
  running_le : w.running ≤ w.size

theorem settled_new (size : Nat) : Settled { size } :=
  ⟨by simp, by simp, by simp [running]⟩

namespace Settled

theorem phase?_ne (h : w.Settled) (i : Nat) : w.phase? i ≠ some .waiting := by
  intro hi
  obtain ⟨a, ha, hphase⟩ := Option.map_eq_some_iff.1 hi
  exact h.taken a (List.mem_of_getElem? ha) hphase

theorem held_ne_false (h : w.Settled) (ha : w.given[i]? = some a) (hphase : a.phase = .running) :
    a.calculator.held ≠ false := by
  simp [h.held a (List.mem_of_getElem? ha) hphase]

/-- No worker of a crew at rest can go on. -/
theorem not_work (h : w.Settled) : ¬ Work w w' := by
  rintro (⟨hi, -, -⟩ | ⟨ha, hphase, hprompt⟩)
  · exact h.phase?_ne _ hi
  · exact h.held_ne_false ha hphase hprompt

/-- One calculator more, which does not wait, and is held and has a worker if it runs. -/
theorem add (h : w.Settled) (htaken : a.phase ≠ .waiting)
    (hheld : a.phase = .running → a.calculator.held ∧ w.running < w.size) :
    (w.add a).Settled where
  taken := List.forall_mem_append.2 ⟨h.taken, List.forall_mem_singleton.2 htaken⟩
  held := List.forall_mem_append.2
    ⟨h.held, List.forall_mem_singleton.2 fun hphase => (hheld hphase).1⟩
  running_le := by
    rw [running_add, size_add]
    have := h.running_le
    split_ifs with hphase
    · exact (hheld hphase).2
    · omega

/-- What is at rest stays so when a calculator that was held has answered, and a worker is free. -/
theorem release (h : w.Settled) (hrelease : Release w w') :
    w'.Settled ∧ w'.size = w.size ∧ w.running = w'.running + 1 := by
  obtain @⟨i, a, ha, hphase, -⟩ := hrelease
  obtain ⟨before, after, hbefore, hafter⟩ := exists_change ha .ended
  have hrunning : w.running = (w.change i .ended).running + 1 := by
    simp only [running, hbefore, hafter, List.countP_append, List.countP_cons, hphase]
    simp [Nat.add_assoc]
  have hmem : ∀ b ∈ (w.change i .ended).given, b ∈ w.given ∨ b.phase = .ended := by
    intro b hb
    simp only [hafter, List.mem_append, List.mem_cons] at hb
    simp only [hbefore, List.mem_append, List.mem_cons]
    rcases hb with hb | rfl | hb
    · exact .inl (.inl hb)
    · exact .inr rfl
    · exact .inl (.inr (.inr hb))
  refine ⟨⟨fun b hb => ?_, fun b hb hb' => ?_, ?_⟩, rfl, hrunning⟩
  · rcases hmem b hb with hb | hb
    · exact h.taken b hb
    · simp [hb]
  · rcases hmem b hb with hb | hb
    · exact h.held b hb hb'
    · simp [hb] at hb'
  · have hle : w.running ≤ w.size := h.running_le
    rw [hrunning] at hle
    exact Nat.le_of_succ_le hle

end Settled

/-- Whether what was cancelled is where it was. -/
def Keeps (w w' : Crew) : Prop :=
  ∀ (i : Nat) (a : Assignment), w.given[i]? = some a → a.phase = .cancelled → w'.given[i]? = some a

theorem keeps_add (a : Assignment) (w : Crew) : Keeps w (w.add a) :=
  fun _ _ hi _ => getElem?_add_of_some hi a

theorem Release.keeps (h : Release w w') : Keeps w w' := by
  intro i a hi hphase
  obtain @⟨j, b, hb, hrunning, -⟩ := h
  have hne : j ≠ i := by
    rintro rfl
    obtain rfl : b = a := Option.some.inj (hb.symm.trans hi)
    rw [hphase] at hrunning
    cases hrunning
  simpa [change, List.getElem?_modify, hne] using hi

/-! ## A call -/

/-- What becomes of a calculator that is called while a crew is at rest. -/
def fate (w : Crew) (c : Calculator) : Phase :=
  if w.running < w.size then (if c.held then .running else .ended) else .cancelled

theorem fate_of_free (h : w.running < w.size) (hc : c.held = false) : w.fate c = .ended := by
  simp [fate, h, hc]

theorem fate_of_held (h : w.running < w.size) (hc : c.held) : w.fate c = .running := by
  simp [fate, h, hc]

theorem fate_of_full (h : w.size ≤ w.running) : w.fate c = .cancelled := by
  simp [fate, Nat.not_lt.2 h]

/-- The crew after a call. -/
def after (w : Crew) (c : Calculator) (events : List Entry) : Crew :=
  w.add ⟨c, events, w.fate c⟩

/-- The result of a call. -/
def result (w : Crew) (timeout : Value) (c : Calculator) (events : List Entry) :
    Except Fault Value :=
  if w.fate c = .ended then (c.answer events).mapError (Fault.underDeadline timeout)
  else .error (.deadlineExceeded timeout)

namespace Settled

/-- The workers can do nothing but take the new calculator and have its answer. -/
theorem work_add (h : w.Settled) (hwork : Work (w.add a) w') :
    a.phase = .waiting ∧ w.running < w.size ∧ w' = w.add { a with phase := .running } ∨
      a.phase = .running ∧ a.calculator.held = false ∧ w' = w.add { a with phase := .ended } := by
  cases hwork with
  | @take i hi _ hfree =>
    obtain ⟨b, hb, hphase⟩ := Option.map_eq_some_iff.1 hi
    rcases getElem?_add hb with hb | ⟨rfl, rfl⟩
    · exact absurd hphase (h.taken b (List.mem_of_getElem? hb))
    · rw [running_add, hphase, if_neg (by decide)] at hfree
      exact .inl ⟨hphase, hfree, change_add b w .running⟩
  | @answer i b hb hphase hprompt =>
    rcases getElem?_add hb with hb | ⟨rfl, rfl⟩
    · exact absurd hprompt (h.held_ne_false hb hphase)
    · exact .inr ⟨hphase, hprompt, change_add b w .ended⟩

theorem take_add (h : w.Settled) (hfree : w.running < w.size) :
    Work (w.add ⟨c, events, .waiting⟩) (w.add ⟨c, events, .running⟩) := by
  rw [← change_add ⟨c, events, .waiting⟩ w .running]
  refine .take (phase?_add_length _ w) (fun j hj => ?_) ?_
  · rw [phase?_add_of_lt _ hj]
    exact h.phase?_ne j
  · rwa [running_add, if_neg (by simp)]

theorem answer_add (hprompt : c.held = false) :
    Work (w.add ⟨c, events, .running⟩) (w.add ⟨c, events, .ended⟩) := by
  rw [← change_add ⟨c, events, .running⟩ w .ended]
  exact .answer (getElem?_add_length _ w) rfl hprompt

end Settled

/-- Whether a calculator that is called while a crew is at rest can be in a phase before the
deadline. -/
def Allows (w : Crew) (c : Calculator) : Phase → Prop
  | .waiting => True
  | .cancelled => False
  | .running => w.running < w.size
  | .ended => w.running < w.size ∧ c.held = false

/-- During a call nothing but the phase of the new calculator changes. -/
theorem exists_phase (h : w.Settled)
    (hwork : ReflTransGen Work (w.add ⟨c, events, .waiting⟩) w') :
    ∃ p, w' = w.add ⟨c, events, p⟩ ∧ w.Allows c p := by
  induction hwork with
  | refl => exact ⟨.waiting, rfl, trivial⟩
  | tail _ hstep ih =>
    obtain ⟨p, rfl, hallows⟩ := ih
    rcases h.work_add hstep with ⟨-, hfree, rfl⟩ | ⟨hrunning, hprompt, rfl⟩
    · exact ⟨.running, rfl, hfree⟩
    · obtain rfl : p = .running := hrunning
      exact ⟨.ended, rfl, hallows, hprompt⟩

/-- However the workers go on, a call has the same result and leaves the same crew. -/
theorem eq_of_call (h : w.Settled) {timeout : Value} (hwaits : Pool.waits timeout = .ok true)
    {answer : Except Fault Value} (hcall : Call timeout c events w answer w') :
    answer = w.result timeout c events ∧ w' = w.after c events := by
  cases hcall with
  | answered hwork hended =>
    obtain ⟨p, rfl, hallows⟩ := exists_phase h hwork
    obtain rfl : p = .ended := by simpa [phase?_add_length] using hended
    have hfate := fate_of_free hallows.1 hallows.2
    simp [result, after, hfate]
  | expired htime hwork hrest hlate =>
    obtain rfl := Except.ok.inj (hwaits.symm.trans htime)
    replace hrest := hrest rfl
    obtain ⟨p, rfl, hallows⟩ := exists_phase h hwork
    cases p with
    | waiting =>
      -- it is left waiting only if no worker could take it
      have hfull : w.size ≤ w.running := Nat.le_of_not_lt fun hfree => hrest _ (h.take_add hfree)
      have hfate : w.fate c = .cancelled := fate_of_full hfull
      simp [result, after, hfate, cancel, phase?_add_length, change_add]
    | cancelled => exact hallows.elim
    | running =>
      have hheld : c.held := by
        by_contra hprompt
        exact hrest _ (Settled.answer_add (by simpa using hprompt))
      have hfate := fate_of_held hallows hheld
      simp [result, after, hfate, cancel, phase?_add_length]
    | ended => exact absurd (phase?_add_length _ w) hlate
  | refused hfault => cases hwaits.symm.trans hfault

/-- The workers can go on so that a call has a result. -/
theorem call_after (h : w.Settled) {timeout : Value} (hwaits : Pool.waits timeout = .ok true)
    (c : Calculator) (events : List Entry) :
    Call timeout c events w (w.result timeout c events) (w.after c events) := by
  rcases Nat.lt_or_ge w.running w.size with hfree | hfull
  · have htaken : ReflTransGen Work (w.add ⟨c, events, .waiting⟩) (w.add ⟨c, events, .running⟩) :=
      .single (h.take_add hfree)
    cases hc : c.held with
    | false =>
      simp only [result, after, fate_of_free hfree hc]
      exact .answered (htaken.tail (Settled.answer_add hc)) (phase?_add_length _ w)
    | true =>
      have hrest : (w.add ⟨c, events, .running⟩).Settled := h.add (by simp) fun _ => ⟨hc, hfree⟩
      have hcall : Call timeout c events w _ _ :=
        .expired hwaits htaken (fun _ _ => hrest.not_work) (by simp [phase?_add_length])
      simpa [result, after, fate_of_held hfree hc, cancel, phase?_add_length] using hcall
  · have hrest : ∀ w', ¬ Work (w.add ⟨c, events, .waiting⟩) w' := by
      intro w' hwork
      rcases h.work_add hwork with ⟨-, hfree, -⟩ | ⟨hrunning, -⟩
      · omega
      · cases hrunning
    have hcall : Call timeout c events w _ _ :=
      .expired hwaits .refl (fun _ => hrest) (by simp [phase?_add_length])
    simpa [result, after, fate_of_full hfull, cancel, phase?_add_length, change_add] using hcall

/-- **A call of a crew at rest** has one result, and the calculator has one fate. -/
theorem call_iff (h : w.Settled) {timeout : Value} (hwaits : Pool.waits timeout = .ok true)
    {answer : Except Fault Value} :
    Call timeout c events w answer w' ↔
      answer = w.result timeout c events ∧ w' = w.after c events := by
  refine ⟨eq_of_call h hwaits, ?_⟩
  rintro ⟨rfl, rfl⟩
  exact call_after h hwaits c events

/-- A crew at rest is at rest again after a call. -/
theorem Settled.after (h : w.Settled) (c : Calculator) (events : List Entry) :
    (w.after c events).Settled := by
  refine h.add ?_ fun hphase => ?_
  · unfold fate
    split_ifs <;> simp
  · unfold fate at hphase
    split_ifs at hphase with hfree hheld
    exact ⟨hheld, hfree⟩

theorem running_after (w : Crew) (c : Calculator) (events : List Entry) :
    (w.after c events).running =
      w.running + if w.running < w.size ∧ c.held then 1 else 0 := by
  rw [after, running_add]
  by_cases hfree : w.running < w.size <;> cases hc : c.held <;> simp [fate, hfree, hc]

/-- **Counting is enough**: the engine's pool gives the result of the call, and counts the workers
that are busy after it. -/
theorem call_eq {workers : Value} (hworkers : workers.number? = some (.int w.size))
    {timeout : Value} (hwaits : Pool.waits timeout = .ok true) (c : Calculator)
    (events : List Entry) :
    Pool.call timeout c events ⟨workers, w.running⟩ =
      (w.result timeout c events, ⟨workers, (w.after c events).running⟩) := by
  have hfree : Pool.hasWorker ⟨workers, w.running⟩ ↔ w.running < w.size :=
    Pool.hasWorker_iff hworkers
  rw [running_after]
  rcases Nat.lt_or_ge w.running w.size with hlt | hge
  · cases hc : c.held with
    | false =>
      rw [Pool.call_of_free (hfree.2 hlt) hc hwaits]
      simp [result, fate_of_free hlt hc]
    | true =>
      simp [Pool.call, hwaits, hfree.2 hlt, hc, result, fate_of_held hlt hc, hlt, Pool.keep]
  · have hnone : Pool.hasWorker ⟨workers, w.running⟩ = false := by
      rw [← Bool.not_eq_true, hfree]
      omega
    simp [Pool.call, hwaits, hnone, result, fate_of_full hge, Nat.not_lt.2 hge]

end Crew

end TypingTrace
