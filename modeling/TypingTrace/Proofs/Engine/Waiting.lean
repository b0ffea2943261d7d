import TypingTrace.Proofs.Engine.Refusal

/-!
# What a caller that waits is given

A caller reads which run is the newest, waits until it has ended, and is then given what is
published. These are three moments, and anything may happen between them.

**Theorem (`waited_spec`).** What the caller is given is the result of the trigger whose generation
is published when it returns. Either this is a trigger not before the newest one at the call, or
nothing has been published since the call and the caller is given what it could have had without
waiting, which may be nothing at all. The first holds for sure if no trigger was refused before the
call and none came between the call and the end of the run that the caller waits for.

A step publishes the newest generation or nothing (`published_of_step`), so what is published
between the call and the return is never older than the call. The run that is waited for can end
unpublished only because a trigger came first: until then its generation is the newest one
(`exists_finish_of_waited`).
-/

namespace TypingTrace

namespace Background

variable {σ ρ : Type} {Gives : σ → ρ → Prop} {es fs : List (Event σ ρ)} {b c : Background σ ρ}

/-! ## What is published meanwhile -/

/-- A step publishes the newest generation or nothing. -/
theorem published_of_step {e : Event σ ρ} (hstep : Step Gives b e c) :
    c.published = b.generation ∨ c.latest = b.latest ∧ c.published = b.published := by
  cases he : e.ended? with
  | none =>
    obtain ⟨hlatest, hpublished, -⟩ := published_of_ended?_eq_none hstep he
    exact .inr ⟨hlatest, hpublished⟩
  | some _ =>
    cases hstep with
    | @finish job result =>
      by_cases heq : job.generation = b.generation
      · rw [finish_of_eq heq]
        exact .inl heq
      · rw [finish_of_ne heq]
        exact .inr ⟨rfl, rfl⟩
    | _ => simp [Event.ended?] at he

/-- What is published after a moment is not older than that moment, unless nothing was. -/
theorem published_of_trace (h : Trace Gives b fs c) :
    b.generation ≤ c.published ∨ c.latest = b.latest ∧ c.published = b.published := by
  induction h with
  | nil => exact .inr ⟨rfl, rfl⟩
  | snoc htrace hstep ih =>
    rcases published_of_step hstep with hnewest | ⟨hlatest, hpublished⟩
    · refine .inl ?_
      rw [hnewest, generation_of_trace htrace]
      exact Nat.le_add_right _ _
    · rwa [hlatest, hpublished]

/-! ## The run that is waited for -/

theorem isPending_iff {g : Nat} : b.isPending g ↔ ∃ job ∈ b.pendingJobs, job.generation = g := by
  simp only [isPending, pendingJobs, List.any_eq_true, beq_iff_eq]

/-- A run is pending until it ends. -/
theorem isPending_of_step {e : Event σ ρ} {g : Nat} (hstep : Step Gives b e c)
    (h : b.isPending g) : c.isPending g ∨ ∃ job result, e = .finish job result ∧
      job.generation = g := by
  obtain ⟨j, hj, rfl⟩ := isPending_iff.1 h
  cases hstep with
  | trigger hn =>
    refine .inl (isPending_iff.2 ⟨j, ?_, rfl⟩)
    rw [trigger_of_open (closed_of_trigger_ok hn)]
    simp only [pendingJobs, List.mem_append] at hj ⊢
    tauto
  | refusal hf =>
    rw [trigger_of_closed (closed_of_trigger_error hf)]
    exact .inl h
  | start =>
    refine .inl (isPending_iff.2 ⟨j, ?_, rfl⟩)
    rcases b.start_cases with heq | ⟨job, rest, hqueue, heq⟩ <;> rw [heq]
    · exact hj
    · simp only [pendingJobs, hqueue, List.mem_append, List.mem_cons, List.not_mem_nil,
        or_false] at hj ⊢
      tauto
  | @finish job result =>
    by_cases hsame : job.generation = j.generation
    · exact .inr ⟨job, result, rfl, hsame⟩
    · refine .inl (isPending_iff.2 ⟨j, ?_, rfl⟩)
      have hkept : j ∈ b.queue ++ b.running.filter fun j => j.generation != job.generation := by
        refine (List.mem_append.1 hj).elim (List.mem_append_left _) fun hrunning => ?_
        exact List.mem_append_right _ (List.mem_filter.2 ⟨hrunning, by simpa using Ne.symm hsame⟩)
      by_cases heq : job.generation = b.generation
      · rw [finish_of_eq heq]
        exact hkept
      · rw [finish_of_ne heq]
        exact hkept
  | close => exact .inl h

/-- A run that was pending and is so no more has ended in between. -/
theorem exists_finish (h : Trace Gives b fs c) {g : Nat} (hb : b.isPending g)
    (hc : c.isPending g = false) : ∃ pre job result post m m',
      fs = pre ++ .finish job result :: post ∧ job.generation = g ∧ Trace Gives b pre m ∧
      Step Gives m (.finish job result) m' ∧ Trace Gives m' post c := by
  induction h with
  | nil => simp [hb] at hc
  | @snoc fs e m c htrace hstep ih =>
    cases hm : m.isPending g with
    | false =>
      obtain ⟨pre, job, result, post, k, k', rfl, hgen, hpre, hfinish, hpost⟩ := ih hm
      exact ⟨pre, job, result, post ++ [e], k, k', by simp, hgen, hpre, hfinish, hpost.snoc hstep⟩
    | true =>
      rcases isPending_of_step hstep hm with hpending | ⟨job, result, rfl, hgen⟩
      · rw [hpending] at hc
        cases hc
      · exact ⟨fs, job, result, [], m, c, rfl, hgen, htrace, hstep, .nil⟩

theorem waited_eq_some_iff {awaited : Option Nat} {answer : Option ρ} :
    b.waited awaited = some answer ↔
      (∀ g, awaited = some g → b.isPending g = false) ∧ answer = b.latest := by
  unfold waited
  cases awaited with
  | none => simpa using eq_comm
  | some g =>
    cases hg : b.isPending g with
    | false => simpa [hg] using eq_comm
    | true => simp [hg]

/-- If no trigger comes before the end of the newest run, it is published by the time its end is
noticed, or a newer one is. -/
theorem generation_le_published (h : Recorded Gives es b)
    (hnone : ∀ events, .refusal events ∉ es) (hfs : Trace Gives b fs c)
    (hc : c.isPending b.generation = false)
    (hquiet : ∀ pre job result post, fs = pre ++ .finish job result :: post →
      job.generation = b.generation → asked pre = []) : b.generation ≤ c.published := by
  rcases h.newest hnone with hpublished | ⟨job, hjob, hgen⟩
  · rcases published_of_trace hfs with hle | ⟨-, heq⟩
    · exact hle
    · exact Nat.le_of_eq (hpublished.symm.trans heq.symm)
  · have hb : b.isPending b.generation := isPending_iff.2 ⟨job, hjob, hgen⟩
    obtain ⟨pre, job, result, post, m, m', hsplit, hgen, hpre, hfinish, hpost⟩ :=
      exists_finish hfs hb hc
    -- up to its end the run is of the newest generation, so its end is published
    have hm : m.generation = b.generation := by
      rw [generation_of_trace hpre, hquiet pre job result post hsplit hgen]
      rfl
    cases hfinish with
    | finish =>
      have heq : job.generation = m.generation := hgen.trans hm.symm
      rcases published_of_trace hpost with hle | ⟨-, hkept⟩
      · rw [finish_of_eq heq, hm] at hle
        exact hle
      · rw [hkept, finish_of_eq heq]
        exact Nat.le_of_eq hgen.symm

/-! ## What the caller is given -/

/-- **Waiting.** Let a caller come in a state `b`, wait for the newest run, and be answered in a
state `c`:

* it is given the result of the trigger whose generation is published then, and nothing if none is;
* this trigger is the newest one at the call or a later one, or else nothing has been published
  since the call;
* it is the newest one at the call or a later one if there was one, none was refused by then, and
  none came before the end of the run that the caller waited for. -/
theorem waited_spec {workers : Value} (h : Trace Gives { workers } es b)
    (hfs : Trace Gives b fs c) {answer : Option ρ} (hanswer : c.waited (newest es) = some answer) :
    ((answer = none ↔ c.published = 0) ∧ ∀ result, answer = some result →
      ∃ events, (asked (es ++ fs))[c.published - 1]? = some events ∧ Gives events result) ∧
    (b.generation ≤ c.published ∨ answer = b.latest ∧ c.published = b.published) ∧
    (1 ≤ b.generation → (∀ events, .refusal events ∉ es) →
      (∀ pre job result post, fs = pre ++ .finish job result :: post →
        job.generation = b.generation → asked pre = []) → b.generation ≤ c.published) := by
  obtain ⟨hended, rfl⟩ := waited_eq_some_iff.1 hanswer
  have hc := recorded (h.append hfs)
  refine ⟨⟨hc.none_iff, ?_⟩, published_of_trace hfs, ?_⟩
  · intro result hresult
    obtain ⟨job, later, hgen, ⟨earlier, hasked, hnumber⟩, hgives, -⟩ := hc.latest result hresult
    refine ⟨job.events, ?_, hgives⟩
    rw [hasked, ← hgen, hnumber]
    simp
  · intro hpos hnone hquiet
    have hnewest := (newest_eq_some_iff h hnone b.generation).2 ⟨rfl, hpos⟩
    exact generation_le_published (recorded h) hnone hfs (hended _ hnewest) hquiet

/-! ### A caller that waits for the first run -/

/-- The first run has been asked for and goes on. -/
def begun : List (Event (List Entry) Run) := [.trigger [], .start]

/-- One worker, which has the first run. -/
def atWork : Background (List Entry) Run where
  workers := .int 1
  generation := 1
  running := [⟨1, []⟩]

theorem trace_begun : Trace (EngineGives .counting) { workers := .int 1 } begun atWork :=
  (Trace.nil.snoc (.trigger (rfl : (trigger [] _).1 = .ok 1))).snoc (.start _)

/-- The first run ends, and then a second trigger comes. -/
def ending : List (Event (List Entry) Run) :=
  [.finish ⟨1, []⟩ (counted []), .trigger [keystroke]]

/-- One worker, the result of the first run, and a second run that waits. -/
def replaced : Background (List Entry) Run where
  workers := .int 1
  generation := 2
  published := 1
  latest := some (counted [])
  queue := [⟨2, [keystroke]⟩]

theorem trace_ending : Trace (EngineGives .counting) atWork ending replaced :=
  (Trace.nil.snoc (.finish List.mem_cons_self (engineGives_counted []))).snoc
    (.trigger (rfl : (trigger [keystroke] _).1 = .ok 2))

theorem waited_spec_ending :
    Trace (EngineGives .counting) { workers := .int 1 } begun atWork ∧
      Trace (EngineGives .counting) atWork ending replaced ∧
      replaced.waited (newest begun) = some (some (counted [])) ∧
      atWork.generation ≤ replaced.published ∧ EngineGives .counting [] (counted []) := by
  have hanswer : replaced.waited (newest begun) = some (some (counted [])) := rfl
  obtain ⟨⟨-, hresult⟩, -, hfresh⟩ := waited_spec trace_begun trace_ending hanswer
  obtain ⟨events, hasked, hgives⟩ := hresult _ rfl
  obtain rfl : [] = events := Option.some.inj hasked
  refine ⟨trace_begun, trace_ending, hanswer, hfresh (Nat.le_refl 1) (by simp [begun]) ?_, hgives⟩
  rintro (_ | ⟨e, pre⟩) job result post hsplit -
  · rfl
  · simp only [ending, List.cons_append, List.cons.injEq] at hsplit
    simp [List.singleton_eq_append_iff] at hsplit

/-- A second trigger comes, and then the first run ends. -/
def overrunning : List (Event (List Entry) Run) :=
  [.trigger [keystroke], .finish ⟨1, []⟩ (counted [])]

/-- One worker, nothing published, and a second run that waits. -/
def overrun : Background (List Entry) Run where
  workers := .int 1
  generation := 2
  discarded := 1
  queue := [⟨2, [keystroke]⟩]

theorem trace_overrunning : Trace (EngineGives .counting) atWork overrunning overrun :=
  (Trace.nil.snoc (.trigger (rfl : (trigger [keystroke] _).1 = .ok 2))).snoc
    (.finish List.mem_cons_self (engineGives_counted []))

/-- The only run has ended, and then a trigger is refused. -/
def shutting : List (Event (List Entry) Run) :=
  [.trigger [], .start, .finish ⟨1, []⟩ (counted []), .close, .refusal [keystroke]]

/-- One worker, the result of the first run, and the generation of a trigger that was refused. -/
def shut : Background (List Entry) Run where
  workers := .int 1
  generation := 2
  published := 1
  latest := some (counted [])
  closed := true

theorem trace_shutting : Trace (EngineGives .counting) { workers := .int 1 } shutting shut := by
  have hended := trace_begun.snoc (.finish List.mem_cons_self (engineGives_counted []))
  exact (hended.snoc (.close _)).snoc
    (.refusal (rfl : (trigger [keystroke] _).1 = .error .schedulerClosed))

/-- A caller that waits for the first run is given nothing if a second trigger comes before the end
of that run, and a caller that comes after a refused trigger is given an older result. -/
theorem waits_in_vain :
    (Trace (EngineGives .counting) { workers := .int 1 } begun atWork ∧ atWork.generation = 1 ∧
      Trace (EngineGives .counting) atWork overrunning overrun ∧
      overrun.waited (newest begun) = some none) ∧
    (Trace (EngineGives .counting) { workers := .int 1 } shutting shut ∧ shut.generation = 2 ∧
      shut.waited (newest shutting) = some (some (counted [])) ∧ shut.published = 1) :=
  ⟨⟨trace_begun, rfl, trace_overrunning, rfl⟩, trace_shutting, rfl, rfl, rfl⟩

end Background

end TypingTrace
