import Mathlib.Data.List.Nodup
import TypingTrace.Engine.Background
import TypingTrace.Proofs.Engine.Values

/-!
# Only the newest run is published

**Theorem (`publication`).** Let triggers, starts of waiting runs, ends of running ones and the
closing happen in any order, with any number of workers. Then what is published is the result of
the run of exactly the trigger whose generation is published, a run is published if and only if no
trigger came after its own before it ended, and once nothing waits or runs any more the newest
trigger's result is published, unless a trigger was refused.

A trace lists the events by which a background came into its state. The proof is an induction over
traces with the invariant `Recorded`, which ties every run that waits or runs to the trigger that
asked for it. As to the last part: while no trigger is refused, the newest trigger's run is waiting
or running, or it has ended as the newest and is published (`Recorded.newest`).
-/

namespace TypingTrace

namespace Background

variable {σ ρ : Type}

/-! ## What the operations do -/

theorem closed_of_trigger_ok {b : Background σ ρ} {events : σ} {n : Nat}
    (h : (b.trigger events).1 = .ok n) : b.closed = false := by
  cases hc : b.closed with
  | false => rfl
  | true => simp [trigger, hc] at h

theorem closed_of_trigger_error {b : Background σ ρ} {events : σ} {f : Fault}
    (h : (b.trigger events).1 = .error f) : b.closed = true := by
  cases hc : b.closed with
  | true => rfl
  | false => simp [trigger, hc] at h

theorem trigger_of_open {b : Background σ ρ} (h : b.closed = false) (events : σ) :
    (b.trigger events).2 = { b with
      generation := b.generation + 1
      queue := b.queue ++ [⟨b.generation + 1, events⟩] } := by
  simp [trigger, h]

theorem trigger_of_closed {b : Background σ ρ} (h : b.closed = true) (events : σ) :
    (b.trigger events).2 = { b with generation := b.generation + 1 } := by
  simp [trigger, h]

/-- Starting a run only moves it from those that wait to those that run. -/
theorem start_cases (b : Background σ ρ) : b.start = b ∨ ∃ job rest, b.queue = job :: rest ∧
    b.start = { b with queue := rest, running := b.running ++ [job] } := by
  unfold start
  split
  · rename_i job rest hqueue
    split_ifs
    · exact .inr ⟨job, rest, hqueue, rfl⟩
    · exact .inl rfl
  · exact .inl rfl

theorem finish_of_eq {b : Background σ ρ} {job : Job σ} (h : job.generation = b.generation)
    (result : ρ) : b.finish job result = { b with
      running := b.running.filter fun j => j.generation != job.generation
      latest := some result
      published := job.generation } := by
  simp [finish, publish, h]

theorem finish_of_ne {b : Background σ ρ} {job : Job σ} (h : job.generation ≠ b.generation)
    (result : ρ) : b.finish job result = { b with
      running := b.running.filter fun j => j.generation != job.generation
      discarded := b.discarded + 1 } := by
  simp [finish, publish, h]

/-! ## Traces -/

/-- What happens to a background. A refusal is a trigger that comes after the closing. -/
inductive Event (σ ρ : Type) where
  | trigger (events : σ)
  | refusal (events : σ)
  | start
  | finish (job : Job σ) (result : ρ)
  | close

/-- One event, where `Gives events result` says that a run on `events` may have that result. -/
inductive Step (Gives : σ → ρ → Prop) : Background σ ρ → Event σ ρ → Background σ ρ → Prop
  | trigger {b : Background σ ρ} {events : σ} {n : Nat} : (b.trigger events).1 = .ok n →
      Step Gives b (.trigger events) (b.trigger events).2
  | refusal {b : Background σ ρ} {events : σ} {f : Fault} : (b.trigger events).1 = .error f →
      Step Gives b (.refusal events) (b.trigger events).2
  | start (b : Background σ ρ) : Step Gives b .start b.start
  | finish {b : Background σ ρ} {job : Job σ} {result : ρ} : job ∈ b.running →
      Gives job.events result → Step Gives b (.finish job result) (b.finish job result)
  | close (b : Background σ ρ) : Step Gives b .close b.close

/-- The events, first to last, that lead from one state to another. -/
inductive Trace (Gives : σ → ρ → Prop) (a : Background σ ρ) :
    List (Event σ ρ) → Background σ ρ → Prop
  | nil : Trace Gives a [] a
  | snoc {es : List (Event σ ρ)} {e : Event σ ρ} {b c : Background σ ρ} :
      Trace Gives a es b → Step Gives b e c → Trace Gives a (es ++ [e]) c

theorem Trace.append {Gives : σ → ρ → Prop} {a b c : Background σ ρ} {es fs : List (Event σ ρ)}
    (h : Trace Gives a es b) (h' : Trace Gives b fs c) : Trace Gives a (es ++ fs) c := by
  induction h' with
  | nil => rwa [List.append_nil]
  | snoc _ hstep ih =>
    rw [← List.append_assoc]
    exact ih.snoc hstep

/-- The sequence that a trigger is given, whether it is refused or not. -/
def Event.asked? : Event σ ρ → Option σ
  | trigger events => some events
  | refusal events => some events
  | _ => none

/-- The run that an event ends. -/
def Event.ended? : Event σ ρ → Option (Job σ)
  | finish job _ => some job
  | _ => none

/-- The sequences of all triggers so far; the first is that of generation one. -/
def asked (es : List (Event σ ρ)) : List σ := es.filterMap Event.asked?

/-- The runs that have ended. -/
def ended (es : List (Event σ ρ)) : List (Job σ) := es.filterMap Event.ended?

/-- A run that the trigger of its generation asked for, before the `later` ones. -/
def AskedFor (asked : List σ) (job : Job σ) (later : List σ) : Prop :=
  ∃ earlier, asked = earlier ++ job.events :: later ∧ job.generation = earlier.length + 1

theorem AskedFor.append {l later : List σ} {job : Job σ} (h : AskedFor l job later)
    (more : List σ) : AskedFor (l ++ more) job (later ++ more) := by
  obtain ⟨earlier, rfl, hgen⟩ := h
  exact ⟨earlier, by simp, hgen⟩

theorem AskedFor.length {l later : List σ} {job : Job σ} (h : AskedFor l job later) :
    l.length = job.generation + later.length := by
  obtain ⟨earlier, rfl, hgen⟩ := h
  simp only [List.length_append, List.length_cons]
  omega

/-- The runs that have not ended: those that wait, then those that run. -/
def pendingJobs (b : Background σ ρ) : List (Job σ) := b.queue ++ b.running

/-! ## The invariant -/

/-- What a state has to do with the events that led to it. -/
structure Recorded (Gives : σ → ρ → Prop) (es : List (Event σ ρ)) (b : Background σ ρ) : Prop where
  generation : b.generation = (asked es).length
  /-- Every run was asked for by the trigger of its generation. -/
  askedFor : ∀ job ∈ b.pendingJobs ++ ended es, ∃ later, AskedFor (asked es) job later
  /-- No run is there twice, and none that has ended is there again. -/
  once : ((b.pendingJobs ++ ended es).map Job.generation).Nodup
  published_le : b.published ≤ b.generation
  none_iff : b.latest = none ↔ b.published = 0
  latest : ∀ result, b.latest = some result → ∃ job later, job.generation = b.published ∧
    AskedFor (asked es) job later ∧ Gives job.events result ∧ .finish job result ∈ es
  newest : (∀ events, .refusal events ∉ es) → b.published = b.generation ∨
    ∃ job ∈ b.pendingJobs, job.generation = b.generation

theorem asked_snoc (es : List (Event σ ρ)) (e : Event σ ρ) :
    asked (es ++ [e]) = asked es ++ e.asked?.toList := by
  cases e <;> simp [asked, Event.asked?]

theorem ended_snoc (es : List (Event σ ρ)) (e : Event σ ρ) :
    ended (es ++ [e]) = ended es ++ e.ended?.toList := by
  cases e <;> simp [ended, Event.ended?]

theorem recorded_nil (Gives : σ → ρ → Prop) (workers : Value) :
    Recorded Gives [] ({ workers } : Background σ ρ) where
  generation := rfl
  askedFor := by simp [pendingJobs, ended]
  once := by simp [pendingJobs, ended]
  published_le := Nat.le_refl 0
  none_iff := by simp
  latest := by simp
  newest := fun _ => .inl rfl

/-- Ending a run takes just that run off a list in which generations are distinct. -/
theorem perm_cons_filter {l : List (Job σ)} {job : Job σ} (hmem : job ∈ l)
    (hl : (l.map Job.generation).Nodup) :
    l.Perm (job :: l.filter fun j => j.generation != job.generation) := by
  induction l with
  | nil => exact absurd hmem List.not_mem_nil
  | cons a l ih =>
    rw [List.map_cons, List.nodup_cons] at hl
    rcases List.mem_cons.1 hmem with rfl | hmem
    · have hkeep : l.filter (fun j => j.generation != job.generation) = l := by
        refine List.filter_eq_self.2 fun j hj => ?_
        rw [bne_iff_ne]
        intro heq
        exact hl.1 (heq ▸ List.mem_map_of_mem hj)
      rw [List.filter_cons_of_neg (by simp), hkeep]
    · have hne : a.generation ≠ job.generation := fun heq =>
        hl.1 (heq ▸ List.mem_map_of_mem hmem)
      rw [List.filter_cons_of_pos (by simpa using hne)]
      exact ((ih hmem hl.2).cons a).trans (.swap ..)

namespace Recorded

variable {Gives : σ → ρ → Prop} {es : List (Event σ ρ)} {b : Background σ ρ}

/-- The generation of a run is one that was given out. -/
theorem generation_le (h : Recorded Gives es b) {job : Job σ}
    (hjob : job ∈ b.pendingJobs ++ ended es) : job.generation ≤ b.generation := by
  obtain ⟨later, hlater⟩ := h.askedFor job hjob
  have := hlater.length
  have := h.generation
  omega

theorem pos_of_mem (h : Recorded Gives es b) {job : Job σ}
    (hjob : job ∈ b.pendingJobs ++ ended es) : 0 < job.generation := by
  obtain ⟨later, earlier, -, hgen⟩ := h.askedFor job hjob
  omega

theorem askedFor_snoc (h : Recorded Gives es b) (e : Event σ ρ) {job : Job σ}
    (hjob : job ∈ b.pendingJobs ++ ended es) : ∃ later, AskedFor (asked (es ++ [e])) job later := by
  obtain ⟨later, hlater⟩ := h.askedFor job hjob
  rw [asked_snoc]
  exact ⟨_, hlater.append _⟩

/-- What is published is still the result of the same run after a further event. -/
theorem latest_snoc (h : Recorded Gives es b) (e : Event σ ρ) {result : ρ}
    (hresult : b.latest = some result) : ∃ job later, job.generation = b.published ∧
      AskedFor (asked (es ++ [e])) job later ∧ Gives job.events result ∧
      .finish job result ∈ es ++ [e] := by
  obtain ⟨job, later, hgen, hlater, hgives, hfinish⟩ := h.latest result hresult
  rw [asked_snoc]
  exact ⟨job, _, hgen, hlater.append _, hgives, List.mem_append_left _ hfinish⟩

/-- An event that publishes nothing and loses no run keeps what is recorded. -/
theorem moved (h : Recorded Gives es b) {e : Event σ ρ} {c : Background σ ρ}
    (hasked : e.asked? = none)
    (hall : (c.pendingJobs ++ ended (es ++ [e])).Perm (b.pendingJobs ++ ended es))
    (hnewest : ∀ job ∈ b.pendingJobs, job.generation = b.generation → job ∈ c.pendingJobs)
    (hgen : c.generation = b.generation) (hpub : c.published = b.published)
    (hlatest : c.latest = b.latest) : Recorded Gives (es ++ [e]) c where
  generation := by simp [hgen, asked_snoc, hasked, h.generation]
  askedFor job hjob := h.askedFor_snoc e (hall.mem_iff.1 hjob)
  once := (hall.map Job.generation).nodup_iff.2 h.once
  published_le := by
    rw [hpub, hgen]
    exact h.published_le
  none_iff := by
    rw [hlatest, hpub]
    exact h.none_iff
  latest result hresult := by
    rw [hpub]
    exact h.latest_snoc e (hlatest ▸ hresult)
  newest hnone := by
    rw [hpub, hgen]
    refine (h.newest fun events hmem => hnone events (List.mem_append_left _ hmem)).imp_right ?_
    rintro ⟨job, hjob, hnew⟩
    exact ⟨job, hnewest job hjob hnew, hnew⟩

theorem start (h : Recorded Gives es b) : Recorded Gives (es ++ [.start]) b.start := by
  rcases b.start_cases with heq | ⟨job, rest, hqueue, heq⟩ <;> rw [heq]
  · refine h.moved rfl ?_ (fun job hjob _ => hjob) rfl rfl rfl
    simp [ended_snoc, Event.ended?]
  · have hperm : (rest ++ (b.running ++ [job])).Perm b.pendingJobs := by
      rw [pendingJobs, hqueue, ← List.append_assoc]
      exact List.perm_append_singleton job (rest ++ b.running)
    refine h.moved rfl ?_ (fun j hj _ => hperm.mem_iff.2 hj) rfl rfl rfl
    simpa [ended_snoc, Event.ended?, pendingJobs] using hperm.append_right (ended es)

theorem close (h : Recorded Gives es b) : Recorded Gives (es ++ [.close]) b.close := by
  refine h.moved rfl ?_ (fun job hjob _ => hjob) rfl rfl rfl
  simp [ended_snoc, Event.ended?, Background.close, pendingJobs]

theorem trigger (h : Recorded Gives es b) {events : σ} {n : Nat}
    (hn : (b.trigger events).1 = .ok n) :
    Recorded Gives (es ++ [.trigger events]) (b.trigger events).2 := by
  rw [trigger_of_open (closed_of_trigger_ok hn)]
  let new : Job σ := ⟨b.generation + 1, events⟩
  have hasked : asked (es ++ [.trigger events]) = asked es ++ [events] := asked_snoc es _
  have hended : ended (es ++ [.trigger events]) = ended es := by simp [ended_snoc, Event.ended?]
  have hperm : ((b.queue ++ [new] ++ b.running) ++ ended es).Perm
      (new :: (b.pendingJobs ++ ended es)) := by
    simp [pendingJobs]
  refine ⟨?_, ?_, ?_, ?_, h.none_iff, fun _ => h.latest_snoc _, ?_⟩
  · simp [hasked, h.generation]
  · intro job hjob
    rw [hended] at hjob
    rcases List.mem_cons.1 (hperm.mem_iff.1 hjob) with rfl | hjob
    · exact ⟨[], asked es, hasked, by simp [new, h.generation]⟩
    · exact h.askedFor_snoc _ hjob
  · rw [hended]
    refine (hperm.map Job.generation).nodup_iff.2 (List.nodup_cons.2 ⟨?_, h.once⟩)
    intro hmem
    obtain ⟨job, hjob, heq⟩ := List.mem_map.1 hmem
    have := h.generation_le hjob
    simp only [new] at heq
    omega
  · exact Nat.le_succ_of_le h.published_le
  · intro _
    exact .inr ⟨new, by simp [pendingJobs, new], rfl⟩

theorem refusal (h : Recorded Gives es b) {events : σ} {f : Fault}
    (hf : (b.trigger events).1 = .error f) :
    Recorded Gives (es ++ [.refusal events]) (b.trigger events).2 := by
  rw [trigger_of_closed (closed_of_trigger_error hf)]
  have hended : ended (es ++ [.refusal events]) = ended es := by simp [ended_snoc, Event.ended?]
  refine ⟨?_, ?_, hended ▸ h.once, ?_, h.none_iff, fun _ => h.latest_snoc _, ?_⟩
  · simp [asked_snoc, Event.asked?, h.generation]
  · intro job hjob
    exact h.askedFor_snoc _ (hended ▸ hjob)
  · exact Nat.le_succ_of_le h.published_le
  · intro hnone
    exact absurd (List.mem_append_right _ List.mem_cons_self) (hnone events)

/-- The runs that are left when one ends, with that one. -/
theorem pendingJobs_finish (h : Recorded Gives es b) {job : Job σ} (hjob : job ∈ b.running)
    (result : ρ) : b.pendingJobs.Perm (job :: (b.finish job result).pendingJobs) := by
  have hrunning : (b.running.map Job.generation).Nodup := by
    refine h.once.sublist (List.Sublist.map _ ?_)
    exact (List.sublist_append_right _ _).trans (List.sublist_append_left _ _)
  have hleft : (b.finish job result).pendingJobs =
      b.queue ++ b.running.filter fun j => j.generation != job.generation := by
    by_cases heq : job.generation = b.generation
    · rw [finish_of_eq heq]
      rfl
    · rw [finish_of_ne heq]
      rfl
  rw [hleft]
  exact ((perm_cons_filter hjob hrunning).append_left b.queue).trans List.perm_middle

theorem finish (h : Recorded Gives es b) {job : Job σ} {result : ρ} (hjob : job ∈ b.running)
    (hgives : Gives job.events result) :
    Recorded Gives (es ++ [.finish job result]) (b.finish job result) := by
  have hperm := h.pendingJobs_finish hjob result
  have hall : ((b.finish job result).pendingJobs ++
      ended (es ++ [Event.finish job result])).Perm (b.pendingJobs ++ ended es) := by
    rw [ended_snoc, Event.ended?, Option.toList_some, ← List.append_assoc]
    exact (List.perm_append_singleton _ _).trans (hperm.append_right _).symm
  by_cases heq : job.generation = b.generation
  · have hmem : job ∈ b.pendingJobs ++ ended es :=
      List.mem_append_left _ (List.mem_append_right _ hjob)
    rw [finish_of_eq heq] at hall ⊢
    refine ⟨?_, fun j hj => h.askedFor_snoc _ (hall.mem_iff.1 hj),
      (hall.map Job.generation).nodup_iff.2 h.once, Nat.le_of_eq heq, ?_, ?_, fun _ => .inl heq⟩
    · simp [asked_snoc, Event.asked?, h.generation]
    · have := h.pos_of_mem hmem
      simp only [reduceCtorEq, false_iff]
      omega
    · rintro _ ⟨⟩
      obtain ⟨later, hlater⟩ := h.askedFor_snoc (.finish job result) hmem
      exact ⟨job, later, rfl, hlater, hgives, List.mem_append_right _ List.mem_cons_self⟩
  · rw [finish_of_ne heq] at hperm hall ⊢
    refine h.moved rfl hall (fun j hj hnew => ?_) rfl rfl rfl
    rcases List.mem_cons.1 (hperm.mem_iff.1 hj) with rfl | hj
    · exact absurd hnew heq
    · exact hj

theorem step (h : Recorded Gives es b) {e : Event σ ρ} {c : Background σ ρ}
    (hstep : Step Gives b e c) : Recorded Gives (es ++ [e]) c := by
  cases hstep with
  | trigger hn => exact h.trigger hn
  | refusal hf => exact h.refusal hf
  | start => exact h.start
  | finish hjob hgives => exact h.finish hjob hgives
  | close => exact h.close

end Recorded

theorem recorded {Gives : σ → ρ → Prop} {workers : Value} {es : List (Event σ ρ)}
    {b : Background σ ρ} (h : Trace Gives { workers } es b) : Recorded Gives es b := by
  induction h with
  | nil => exact recorded_nil Gives workers
  | snoc _ hstep ih => exact ih.step hstep

/-! ## Publication -/

variable {Gives : σ → ρ → Prop} {es : List (Event σ ρ)} {b c : Background σ ρ}

theorem generation_le_of_step {e : Event σ ρ} (hstep : Step Gives b e c) :
    b.generation ≤ c.generation := by
  cases hstep with
  | trigger hn =>
    rw [trigger_of_open (closed_of_trigger_ok hn)]
    exact Nat.le_succ _
  | refusal hf =>
    rw [trigger_of_closed (closed_of_trigger_error hf)]
    exact Nat.le_succ _
  | start =>
    rcases b.start_cases with heq | ⟨_, _, -, heq⟩ <;>
      exact Nat.le_of_eq (congrArg generation heq).symm
  | @finish job result =>
    by_cases heq : job.generation = b.generation
    · exact Nat.le_of_eq (congrArg generation (finish_of_eq heq result)).symm
    · exact Nat.le_of_eq (congrArg generation (finish_of_ne heq result)).symm
  | close => exact Nat.le_refl _

/-- Only the end of a run changes what is published and how many runs were discarded. -/
theorem published_of_ended?_eq_none {e : Event σ ρ} (hstep : Step Gives b e c)
    (he : e.ended? = none) :
    c.latest = b.latest ∧ c.published = b.published ∧ c.discarded = b.discarded := by
  cases hstep with
  | trigger hn =>
    rw [trigger_of_open (closed_of_trigger_ok hn)]
    exact ⟨rfl, rfl, rfl⟩
  | refusal hf =>
    rw [trigger_of_closed (closed_of_trigger_error hf)]
    exact ⟨rfl, rfl, rfl⟩
  | start =>
    rcases b.start_cases with heq | ⟨_, _, -, heq⟩ <;> rw [heq] <;> exact ⟨rfl, rfl, rfl⟩
  | finish => simp [Event.ended?] at he
  | close => exact ⟨rfl, rfl, rfl⟩

theorem published_le_of_step (h : Recorded Gives es b) {e : Event σ ρ}
    (hstep : Step Gives b e c) : b.published ≤ c.published := by
  cases he : e.ended? with
  | none => exact Nat.le_of_eq (published_of_ended?_eq_none hstep he).2.1.symm
  | some _ =>
    cases hstep with
    | @finish job result =>
      by_cases heq : job.generation = b.generation
      · rw [finish_of_eq heq]
        exact heq ▸ h.published_le
      · exact Nat.le_of_eq (congrArg published (finish_of_ne heq result)).symm
    | _ => simp [Event.ended?] at he

/-- What the end of a run does: it is published if its trigger is the newest one, and else it is
discarded. -/
theorem fate_of_finish (h : Recorded Gives es b) {job : Job σ} {result : ρ}
    (hstep : Step Gives b (.finish job result) c) :
    ∃ later, AskedFor (asked es) job later ∧
      (later = [] → c.latest = some result ∧ c.published = job.generation ∧
        c.discarded = b.discarded) ∧
      (later ≠ [] → c.latest = b.latest ∧ c.published = b.published ∧
        c.discarded = b.discarded + 1) := by
  cases hstep with
  | finish hjob hgives =>
    obtain ⟨later, hlater⟩ := h.askedFor job
      (List.mem_append_left _ (List.mem_append_right _ hjob))
    have hlength := hlater.length
    rw [← h.generation] at hlength
    refine ⟨later, hlater, ?_, ?_⟩
    · rintro rfl
      rw [finish_of_eq (by simpa using hlength.symm)]
      exact ⟨rfl, rfl, rfl⟩
    · intro hne
      have := List.length_pos_iff.2 hne
      rw [finish_of_ne (by omega)]
      exact ⟨rfl, rfl, rfl⟩

/-- **Publication.** In every state that a background reaches from its start:

* the published generation is at most the newest one, and neither ever decreases;
* there is a published result unless that generation is zero, and it is the result of the run on
  exactly the sequence that the trigger of that generation was given;
* no run ends twice; one that ends is published if no trigger came after its own, and else it is
  discarded and counted; nothing else changes what is published or counted;
* when no run waits or runs and no trigger was refused, the newest generation is published. -/
theorem publication {workers : Value} (h : Trace Gives { workers } es b) :
    (b.published ≤ b.generation ∧ ∀ fs c, Trace Gives b fs c →
      b.generation ≤ c.generation ∧ b.published ≤ c.published) ∧
    ((b.latest = none ↔ b.published = 0) ∧ ∀ result, b.latest = some result →
      ∃ events, (asked es)[b.published - 1]? = some events ∧ Gives events result ∧
        .finish ⟨b.published, events⟩ result ∈ es) ∧
    (((ended es).map Job.generation).Nodup ∧
      (∀ job result c, Step Gives b (.finish job result) c →
        job.generation ∉ (ended es).map Job.generation ∧
        ∃ earlier later, asked es = earlier ++ job.events :: later ∧
          job.generation = earlier.length + 1 ∧
          (later = [] → c.latest = some result ∧ c.published = job.generation ∧
            c.discarded = b.discarded) ∧
          (later ≠ [] → c.latest = b.latest ∧ c.published = b.published ∧
            c.discarded = b.discarded + 1)) ∧
      ∀ e c, Step Gives b e c → e.ended? = none →
        c.latest = b.latest ∧ c.published = b.published ∧ c.discarded = b.discarded) ∧
    (b.queue = [] → b.running = [] → (∀ events, .refusal events ∉ es) →
      b.published = b.generation) := by
  have hb := recorded h
  refine ⟨⟨hb.published_le, ?_⟩, ⟨hb.none_iff, ?_⟩, ⟨?_, ?_, ?_⟩, ?_⟩
  · intro fs c htrace
    induction htrace with
    | nil => exact ⟨Nat.le_refl _, Nat.le_refl _⟩
    | snoc hfs hstep ih =>
      exact ⟨Nat.le_trans ih.1 (generation_le_of_step hstep),
        Nat.le_trans ih.2 (published_le_of_step (recorded (h.append hfs)) hstep)⟩
  · intro result hresult
    obtain ⟨job, later, hgen, ⟨earlier, hasked, hnumber⟩, hgives, hmem⟩ := hb.latest result hresult
    refine ⟨job.events, ?_, hgives, hgen ▸ hmem⟩
    rw [hasked, ← hgen, hnumber]
    simp
  · exact hb.once.sublist ((List.sublist_append_right _ _).map _)
  · intro job result c hstep
    obtain ⟨later, ⟨earlier, hasked, hnumber⟩, hfate⟩ := fate_of_finish hb hstep
    refine ⟨?_, earlier, later, hasked, hnumber, hfate⟩
    have hc := (recorded (h.snoc hstep)).once.sublist ((List.sublist_append_right _ _).map _)
    rw [ended_snoc, List.map_append] at hc
    intro hmem
    exact List.disjoint_of_nodup_append hc hmem (by simp [Event.ended?])
  · intro e c hstep he
    exact published_of_ended?_eq_none hstep he
  · intro hqueue hrunning hnone
    rcases hb.newest hnone with hpub | ⟨job, hjob, -⟩
    · exact hpub
    · simp [pendingJobs, hqueue, hrunning] at hjob

/-! ### An overtaken run -/

/-- What an engine may give for a sequence of events, whatever time it is and whatever became of
its workers. -/
def EngineGives (e : Engine) (events : List Entry) (result : Run) : Prop :=
  ∃ now pool, ({ e with pool }.compute now events e.registry).1 = result

/-- One keystroke, as calculators are given it. -/
def keystroke : Entry := .event (.plain { kind := .keydown, time := .ofInstant 5 })

/-- The counting engine's result on some events, at the beginning of time. -/
def counted (events : List Entry) : Run :=
  (Engine.counting.compute ⟨0⟩ events Engine.counting.registry).1

theorem engineGives_counted (events : List Entry) :
    EngineGives .counting events (counted events) := ⟨⟨0⟩, none, rfl⟩

/-- Two runs go on at once, and the one that was asked for first ends last. -/
def overtaken : List (Event (List Entry) Run) := [
  .trigger [], .trigger [keystroke], .start, .start,
  .finish ⟨2, [keystroke]⟩ (counted [keystroke]), .finish ⟨1, []⟩ (counted [])]

/-- Two workers, and the published result of the second of two triggers. -/
def settled : Background (List Entry) Run where
  workers := .int 2
  generation := 2
  published := 2
  latest := some (counted [keystroke])
  discarded := 1

theorem trace_overtaken :
    Trace (EngineGives .counting) { workers := .int 2 } overtaken settled := by
  have h₀ : Trace (EngineGives .counting) { workers := .int 2 } [] { workers := .int 2 } := .nil
  have h₂ := (h₀.snoc (.trigger (rfl : (trigger [] _).1 = .ok 1))).snoc
    (.trigger (rfl : (trigger [keystroke] _).1 = .ok 2))
  have h₄ := (h₂.snoc (.start _)).snoc (.start _)
  have hnewer : (⟨2, [keystroke]⟩ : Job (List Entry)) ∈ [⟨1, []⟩, ⟨2, [keystroke]⟩] :=
    List.mem_cons_of_mem _ List.mem_cons_self
  have h₅ := h₄.snoc (.finish hnewer (engineGives_counted [keystroke]))
  have holder : (⟨1, []⟩ : Job (List Entry)) ∈ [⟨1, []⟩] := List.mem_cons_self
  exact h₅.snoc (.finish holder (engineGives_counted []))

theorem publication_overtaken :
    Trace (EngineGives .counting) { workers := .int 2 } overtaken settled ∧
      (asked overtaken)[settled.published - 1]? = some [keystroke] ∧
      EngineGives .counting [keystroke] (counted [keystroke]) ∧
      settled.published = settled.generation := by
  obtain ⟨-, ⟨-, hlatest⟩, -, hnewest⟩ := publication trace_overtaken
  obtain ⟨events, hasked, hgives, -⟩ := hlatest _ rfl
  obtain rfl : [keystroke] = events := Option.some.inj hasked
  exact ⟨trace_overtaken, hasked, hgives, hnewest rfl rfl (by simp [overtaken])⟩

end Background

end TypingTrace
