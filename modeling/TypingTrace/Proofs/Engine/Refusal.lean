import TypingTrace.Proofs.Engine.Publication

/-!
# Triggers that are refused

**Theorem (`publication_of_refusals`).** A background that is closed refuses every trigger. A
refused trigger asks for no run, and leaves what is published, what was discarded and all runs as
they are, but it counts: the generation goes up by one. So it overtakes the runs that are still to
end. Each of them is discarded, the newest that was accepted included, and nothing is published any
more. As long as no trigger is refused, the newest run is published when it ends.

What a refusal leads to is `Overtaken`: the background is closed, and all runs that wait or run are
older than the generation. No event leads out of it, because a closed background accepts no run.
-/

namespace TypingTrace

namespace Background

variable {σ ρ : Type} {Gives : σ → ρ → Prop} {es fs : List (Event σ ρ)} {b c : Background σ ρ}

/-! ## The newest run -/

/-- The generation of the newest run that was accepted, the events being listed last to first. -/
def newestOfReverse : List (Event σ ρ) → Option Nat
  | [] => none
  | .trigger _ :: earlier => some ((asked earlier).length + 1)
  | _ :: earlier => newestOfReverse earlier

/-- The generation of the newest run that was accepted. -/
def newest (es : List (Event σ ρ)) : Option Nat := newestOfReverse es.reverse

theorem newest_snoc_trigger (es : List (Event σ ρ)) (events : σ) :
    newest (es ++ [.trigger events]) = some ((asked es).length + 1) := by
  simp [newest, newestOfReverse, asked, List.filterMap_reverse]

theorem newest_snoc_of_ne (es : List (Event σ ρ)) {e : Event σ ρ}
    (h : ∀ events, e ≠ .trigger events) : newest (es ++ [e]) = newest es := by
  cases e with
  | trigger events => exact absurd rfl (h events)
  | _ => simp [newest, newestOfReverse]

/-- Every trigger counts, and nothing else does. -/
theorem generation_of_step {e : Event σ ρ} (hstep : Step Gives b e c) :
    c.generation = b.generation + e.asked?.toList.length := by
  cases hstep with
  | trigger hn => rw [trigger_of_open (closed_of_trigger_ok hn)]; rfl
  | refusal hf => rw [trigger_of_closed (closed_of_trigger_error hf)]; rfl
  | start => rcases b.start_cases with heq | ⟨_, _, -, heq⟩ <;> rw [heq] <;> rfl
  | @finish job result =>
    by_cases heq : job.generation = b.generation
    · rw [finish_of_eq heq]; rfl
    · rw [finish_of_ne heq]; rfl
  | close => rfl

theorem generation_of_trace (h : Trace Gives b fs c) :
    c.generation = b.generation + (asked fs).length := by
  induction h with
  | nil => rfl
  | snoc _ hstep ih =>
    rw [generation_of_step hstep, ih, asked_snoc, List.length_append]
    omega

/-- While no trigger is refused, the newest run is that of the newest generation. -/
theorem newest_eq_some_iff {workers : Value} (h : Trace Gives { workers } es b)
    (hnone : ∀ events, .refusal events ∉ es) (g : Nat) :
    newest es = some g ↔ g = b.generation ∧ 1 ≤ g := by
  induction h with
  | nil =>
    have hnewest : newest ([] : List (Event σ ρ)) = none := rfl
    rw [hnewest]
    simp
  | @snoc es e b c htrace hstep ih =>
    have ih := ih fun events hmem => hnone events (List.mem_append_left _ hmem)
    have hgeneration := generation_of_step hstep
    cases e with
    | trigger events =>
      rw [newest_snoc_trigger, ← (recorded htrace).generation, hgeneration, Option.some_inj]
      simp only [Event.asked?, Option.toList_some, List.length_singleton]
      omega
    | refusal events => exact absurd (List.mem_append_right _ List.mem_cons_self) (hnone events)
    | start => rwa [newest_snoc_of_ne es (by simp), hgeneration]
    | finish job result => rwa [newest_snoc_of_ne es (by simp), hgeneration]
    | close => rwa [newest_snoc_of_ne es (by simp), hgeneration]

/-! ## Backgrounds that were overtaken -/

/-- Whether a background is closed and nothing that it still runs is of the newest generation. -/
structure Overtaken (b : Background σ ρ) : Prop where
  closed : b.closed = true
  older : ∀ job ∈ b.pendingJobs, job.generation < b.generation

/-- A refused trigger overtakes every run. -/
theorem Recorded.overtaken (h : Recorded Gives es b) {events : σ} {f : Fault}
    (hf : (b.trigger events).1 = .error f) : Overtaken (b.trigger events).2 := by
  have hclosed := closed_of_trigger_error hf
  rw [trigger_of_closed hclosed]
  refine ⟨hclosed, fun job hjob => ?_⟩
  exact Nat.lt_succ_of_le (h.generation_le (List.mem_append_left _ hjob))

namespace Overtaken

/-- Nothing is published by an event that comes after a refusal, and a run that ends is discarded.
-/
theorem step (h : Overtaken b) {e : Event σ ρ} (hstep : Step Gives b e c) :
    Overtaken c ∧ c.latest = b.latest ∧ c.published = b.published ∧
      c.discarded = b.discarded + e.ended?.toList.length := by
  cases hstep with
  | trigger hn => exact absurd (closed_of_trigger_ok hn) (by simp [h.closed])
  | refusal hf =>
    rw [trigger_of_closed h.closed]
    exact ⟨⟨h.closed, fun job hjob => Nat.lt_succ_of_lt (h.older job hjob)⟩, rfl, rfl, rfl⟩
  | start =>
    rcases b.start_cases with heq | ⟨job, rest, hqueue, heq⟩ <;> rw [heq]
    · exact ⟨h, rfl, rfl, rfl⟩
    · refine ⟨⟨h.closed, fun j hj => h.older j ?_⟩, rfl, rfl, rfl⟩
      simp only [pendingJobs, hqueue, List.mem_append, List.mem_cons, List.not_mem_nil,
        or_false] at hj ⊢
      tauto
  | @finish job result hjob hgives =>
    have hlt := h.older job (List.mem_append_right _ hjob)
    rw [finish_of_ne (Nat.ne_of_lt hlt)]
    refine ⟨⟨h.closed, fun j hj => h.older j ?_⟩, rfl, rfl, rfl⟩
    exact (List.Sublist.append_left List.filter_sublist b.queue).subset hj
  | close => exact ⟨⟨rfl, h.older⟩, rfl, rfl, rfl⟩

/-- After a refusal nothing is published any more, and every run that ends is discarded. -/
theorem trace (h : Overtaken b) (htrace : Trace Gives b fs c) :
    Overtaken c ∧ c.latest = b.latest ∧ c.published = b.published ∧
      c.discarded = b.discarded + (ended fs).length := by
  induction htrace with
  | nil => exact ⟨h, rfl, rfl, rfl⟩
  | snoc _ hstep ih =>
    obtain ⟨hover, hlatest, hpublished, hdiscarded⟩ := ih
    obtain ⟨hover', hlatest', hpublished', hdiscarded'⟩ := hover.step hstep
    refine ⟨hover', hlatest'.trans hlatest, hpublished'.trans hpublished, ?_⟩
    rw [hdiscarded', hdiscarded, ended_snoc, List.length_append, Nat.add_assoc]

end Overtaken

theorem overtaken_of_mem {workers : Value} (h : Trace Gives { workers } es b) {events : σ}
    (hmem : .refusal events ∈ es) : Overtaken b := by
  induction h with
  | nil => exact absurd hmem List.not_mem_nil
  | @snoc es e b c htrace hstep ih =>
    rcases List.mem_append.1 hmem with hearlier | hlast
    · exact ((ih hearlier).step hstep).1
    · obtain rfl := List.mem_singleton.1 hlast
      cases hstep with
      | refusal hf => exact (recorded htrace).overtaken hf

/-! ## What a refusal does -/

/-- **A refusal counts, and nothing more.** In every state that a background reaches from its start:

* a trigger that is refused leaves everything as it is but the generation, which goes up by one,
  and from then on nothing is published and every run that ends is discarded;
* when the newest run that was accepted ends, it is published if no trigger was refused so far, and
  else it is discarded. -/
theorem publication_of_refusals {workers : Value} (h : Trace Gives { workers } es b) :
    (∀ events f, (b.trigger events).1 = .error f →
      f = .schedulerClosed ∧ (b.trigger events).2 = { b with generation := b.generation + 1 } ∧
      ∀ fs c, Trace Gives (b.trigger events).2 fs c →
        c.latest = b.latest ∧ c.published = b.published ∧
          c.discarded = b.discarded + (ended fs).length) ∧
    ∀ job result c, newest es = some job.generation → Step Gives b (.finish job result) c →
      ((∀ events, .refusal events ∉ es) →
        c.latest = some result ∧ c.published = job.generation ∧ c.discarded = b.discarded) ∧
      ((∃ events, .refusal events ∈ es) →
        c.latest = b.latest ∧ c.published = b.published ∧ c.discarded = b.discarded + 1) := by
  refine ⟨?refused, ?newest⟩
  case refused =>
    intro events f hf
    have hclosed := closed_of_trigger_error hf
    have hstate := trigger_of_closed hclosed events
    refine ⟨?_, hstate, ?_⟩
    · simp only [trigger, hclosed, if_pos] at hf
      exact (Except.error.inj hf).symm
    · intro fs c htrace
      obtain ⟨-, hkept⟩ := ((recorded h).overtaken hf).trace htrace
      rwa [hstate] at hkept
  case newest =>
    intro job result c hnewest hstep
    refine ⟨fun hnone => ?_, ?_⟩
    · have hgeneration := ((newest_eq_some_iff h hnone job.generation).1 hnewest).1
      cases hstep with
      | finish hjob hgives =>
        rw [finish_of_eq hgeneration]
        exact ⟨rfl, rfl, rfl⟩
    · rintro ⟨events, hmem⟩
      exact ((overtaken_of_mem h hmem).step hstep).2

/-! ### A run that a refused trigger overtakes -/

/-- A run goes on while the background is closed, and a trigger is refused before it ends. -/
def dismissed : List (Event (List Entry) Run) :=
  [.trigger [keystroke], .start, .close, .refusal [],
    .finish ⟨1, [keystroke]⟩ (counted [keystroke])]

/-- One worker whose run is going on, with the background closed. -/
def closing : Background (List Entry) Run where
  workers := .int 1
  generation := 1
  running := [⟨1, [keystroke]⟩]
  closed := true

theorem trace_closing : Trace (EngineGives .counting) { workers := .int 1 }
    [.trigger [keystroke], .start, .close] closing :=
  ((Trace.nil.snoc (.trigger (rfl : (trigger [keystroke] _).1 = .ok 1))).snoc (.start _)).snoc
    (.close _)

theorem publication_of_refusals_closing :
    Trace (EngineGives .counting) { workers := .int 1 }
      [.trigger [keystroke], .start, .close] closing ∧
    (closing.trigger []).2 = { closing with generation := 2 } ∧
    ((closing.trigger []).2.finish ⟨1, [keystroke]⟩ (counted [keystroke])).discarded = 1 ∧
    (closing.finish ⟨1, [keystroke]⟩ (counted [keystroke])).published = 1 := by
  obtain ⟨hrefused, hnewest⟩ := publication_of_refusals trace_closing
  obtain ⟨-, hstate, hkept⟩ := hrefused [] .schedulerClosed rfl
  have hended : Step (EngineGives .counting) (closing.trigger []).2
      (.finish ⟨1, [keystroke]⟩ (counted [keystroke])) _ :=
    .finish List.mem_cons_self (engineGives_counted [keystroke])
  have hended' : Step (EngineGives .counting) closing
      (.finish ⟨1, [keystroke]⟩ (counted [keystroke])) _ :=
    .finish List.mem_cons_self (engineGives_counted [keystroke])
  obtain ⟨-, -, hdiscarded⟩ := hkept _ _ (Trace.nil.snoc hended)
  obtain ⟨hpublished, -⟩ := hnewest _ _ _ rfl hended'
  exact ⟨trace_closing, hstate, hdiscarded, (hpublished (by simp)).2.1⟩

/-- A refused trigger changes the generation, and the run that was accepted last is not published
when it ends. -/
theorem dismissed_unpublished :
    let b := (closing.trigger []).2.finish ⟨1, [keystroke]⟩ (counted [keystroke])
    Trace (EngineGives .counting) { workers := .int 1 } dismissed b ∧ newest dismissed = some 1 ∧
      (closing.trigger []).1 = .error .schedulerClosed ∧
      closing.generation = 1 ∧ (closing.trigger []).2.generation = 2 ∧
      b.queue = [] ∧ b.running = [] ∧ b.latest = none ∧ b.published = 0 ∧ b.discarded = 1 := by
  intro b
  have hrefusal := trace_closing.snoc
    (.refusal (rfl : (closing.trigger []).1 = .error .schedulerClosed))
  have hended : Step (EngineGives .counting) (closing.trigger []).2
      (.finish ⟨1, [keystroke]⟩ (counted [keystroke])) b :=
    .finish List.mem_cons_self (engineGives_counted [keystroke])
  exact ⟨hrefusal.snoc hended, rfl, rfl, rfl, rfl, rfl, rfl, rfl, rfl, rfl⟩

end Background

end TypingTrace
