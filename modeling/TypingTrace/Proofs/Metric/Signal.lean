import TypingTrace.Proofs.Engine.Failures
import TypingTrace.Proofs.Metric.Timing

/-!
# The signal in a sequence of events

What the typing metrics take from a sequence of events is its signal (`SameSignal`): the kinds of
the events, except for released keys and selections; the times between the keys that produced a
character, between all presses of keys, and between keys and inputs; the number of pasted
characters; the time from the first event to the last; and the length of the last text.

**Theorem (`run_sameSignal`).** An engine gives the typing metrics equal values and equal failures
on sequences of the same signal, whatever the thresholds are, with or without a deadline, and also
when some workers are kept.

Each metric is read off the signal (`isOfSignal_typingMetrics`), so every calculator answers the
same, and the engine goes through the same states.
-/

namespace TypingTrace

open Time Log

/-! ## Signals -/

/-- Whether a kind tells a metric something. -/
def EventKind.isSignal (k : EventKind) : Bool := k != .keyup && k != .select

/-- The kinds of the events that tell a metric something. -/
def signalKinds (events : List Observation) : List EventKind :=
  (events.filterMap Observation.kind?).filter EventKind.isSignal

/-- The number of characters that were pasted. -/
def pastedTotal (events : List Observation) : Nat :=
  (ofKind .paste events).foldr (fun o total => o.pastedLength + total) 0

/-- As many observations, with the same times between them. -/
structure SameTimes (events events' : List Observation) : Prop where
  length : events'.length = events.length
  gaps : gaps events' = gaps events
  span : span events' = span events

/-- Two sequences of the same signal. -/
structure SameSignal (events events' : List Observation) : Prop where
  kinds : signalKinds events' = signalKinds events
  characters : SameTimes (characterKeys events) (characterKeys events')
  presses : SameTimes (keyPresses events) (keyPresses events')
  keysAndInputs : SameTimes (keysAndInputs events) (keysAndInputs events')
  pasted : pastedTotal events' = pastedTotal events
  span : span events' = span events
  lastText : lastTextLength events' = lastTextLength events

theorem SameTimes.refl (events : List Observation) : SameTimes events events := ⟨rfl, rfl, rfl⟩

/-- Whether a quantity is a function of the signal. -/
def ReadsSignal {α : Type} (f : List Observation → α) : Prop :=
  ∀ events events', SameSignal events events' → f events' = f events

/-- What is made of quantities read off the signal is read off it, too. -/
theorem ReadsSignal.map {α β : Type} {f : List Observation → α} (h : ReadsSignal f) (g : α → β) :
    ReadsSignal fun events => g (f events) :=
  fun events events' hsignal => congrArg g (h events events' hsignal)

/-! ## Counts -/

/-- The count of a family of kinds that tell something. -/
theorem countOf_isAmong {family : EventKind → Bool} (hkeyup : family .keyup = false)
    (hselect : family .select = false) (events : List Observation) :
    countOf (Observation.isAmong family) events = (signalKinds events).countP family := by
  have hsignal : ∀ k, (family k && k.isSignal) = family k := by
    intro k
    cases k <;> simp [EventKind.isSignal, hkeyup, hselect]
  unfold countOf signalKinds
  rw [List.countP_filter, ← List.countP_eq_length_filter]
  simp only [hsignal]
  induction events with
  | nil => rfl
  | cons o rest ih =>
    rw [List.countP_cons, ih, List.filterMap_cons]
    unfold Observation.isAmong
    cases o.kind? with
    | none => simp
    | some k => simp [List.countP_cons]

theorem readsSignal_countOf {family : EventKind → Bool} (hkeyup : family .keyup = false)
    (hselect : family .select = false) : ReadsSignal (countOf (Observation.isAmong family)) := by
  intro events events' h
  rw [countOf_isAmong hkeyup hselect, countOf_isAmong hkeyup hselect, h.kinds]

theorem isKind_eq_isAmong (k : EventKind) :
    Observation.isKind k = Observation.isAmong (· == k) := by
  funext o
  unfold Observation.isKind Observation.isAmong
  cases o.kind? <;> rfl

theorem readsSignal_ofKind {k : EventKind} (hkeyup : k ≠ .keyup) (hselect : k ≠ .select) :
    ReadsSignal fun events => (ofKind k events).length := by
  have hcount : (fun events => (ofKind k events).length) =
      countOf (Observation.isAmong (· == k)) := by
    funext events
    rw [← isKind_eq_isAmong]
    rfl
  rw [hcount]
  exact readsSignal_countOf (beq_false_of_ne hkeyup.symm) (beq_false_of_ne hselect.symm)

theorem readsSignal_focusChanges : ReadsSignal focusChanges := by
  have hcount : focusChanges =
      countOf (Observation.isAmong fun k => k == .focus || k == .blur) := by
    funext events
    refine congrArg (countOf · events) ?_
    funext o
    unfold Observation.isKind Observation.isAmong
    cases o.kind? <;> rfl
  rw [hcount]
  exact readsSignal_countOf rfl rfl

theorem readsSignal_formattingActions : ReadsSignal formattingActions := by
  have hcount : formattingActions =
      countOf (Observation.isAmong fun k => k.isFormatting || k.isStructural) := by
    funext events
    refine congrArg (countOf · events) ?_
    funext o
    unfold Observation.isAmong
    cases o.kind? <;> rfl
  rw [hcount]
  exact readsSignal_countOf rfl rfl

theorem readsSignal_findReplaceActions : ReadsSignal findReplaceActions :=
  readsSignal_countOf rfl rfl

theorem readsSignal_deletionCount : ReadsSignal deletionCount :=
  readsSignal_ofKind (by decide) (by decide)

/-! ## Corrections -/

/-- The number of runs of deletions, from the kinds alone. -/
def correctionsOf (inside : Bool) : List EventKind → Nat
  | [] => 0
  | k :: rest =>
    if k = .delete then (if inside then 0 else 1) + correctionsOf true rest
    else if k = .keydown then correctionsOf false rest
    else correctionsOf inside rest

theorem correctionsFrom_eq (inside : Bool) (events : List Observation) :
    correctionsFrom inside events = correctionsOf inside (signalKinds events) := by
  induction events generalizing inside with
  | nil => rfl
  | cons o rest ih =>
    have hkind : ∀ k, o.isKind k = (o.kind? == some k) := fun _ => rfl
    unfold signalKinds at ih ⊢
    rw [correctionsFrom, List.filterMap_cons, ih, ih, ih, hkind, hkind]
    cases o.kind? with
    | none => rfl
    | some k => cases k <;> rfl

theorem readsSignal_correctionCount : ReadsSignal correctionCount := by
  intro events events' h
  rw [correctionCount, correctionCount, correctionsFrom_eq, correctionsFrom_eq, h.kinds]

/-! ## Times -/

variable (t : Thresholds)

theorem readsSignal_keyRate (count : Nat → Except Fault Number) :
    ReadsSignal fun events => keyRate events count := by
  intro events events' h
  simp only [keyRate, spanMilliseconds, h.characters.length, h.characters.span]

theorem readsSignal_detectBursts : ReadsSignal (detectBursts t) := by
  intro events events' h
  simp only [detectBursts, intervals, h.characters.length, h.characters.gaps]

theorem readsSignal_burstSpeed : ReadsSignal (burstSpeed t) := by
  intro events events' h
  simp only [burstSpeed, readsSignal_detectBursts t events events' h]

theorem readsSignal_burstTotal : ReadsSignal (burstTotal t) := by
  intro events events' h
  simp only [burstTotal, readsSignal_detectBursts t events events' h]

theorem readsSignal_averageInterval : ReadsSignal averageInterval := by
  intro events events' h
  simp only [averageInterval, intervals, h.presses.length, h.presses.gaps]

theorem readsSignal_detectPauses : ReadsSignal (detectPauses t) := by
  intro events events' h
  simp only [detectPauses, h.keysAndInputs.gaps]

theorem readsSignal_pauseCount : ReadsSignal (pauseCount t) := by
  intro events events' h
  simp only [pauseCount, readsSignal_detectPauses t events events' h]

theorem readsSignal_longestPause : ReadsSignal (longestPause t) := by
  intro events events' h
  simp only [longestPause, readsSignal_detectPauses t events events' h]

theorem readsSignal_activeGaps : ReadsSignal (activeGaps t) := by
  intro events events' h
  simp only [activeGaps, h.presses.gaps]

theorem readsSignal_activeTypingTime : ReadsSignal (activeTypingTime t) := by
  intro events events' h
  simp only [activeTypingTime, readsSignal_activeGaps t events events' h]

theorem readsSignal_typingConsistency : ReadsSignal (typingConsistency t) := by
  intro events events' h
  simp only [typingConsistency, h.presses.length, readsSignal_activeGaps t events events' h]

theorem readsSignal_sessionDuration : ReadsSignal sessionDuration := by
  intro events events' h
  simp only [sessionDuration, spanMilliseconds, h.span]

theorem readsSignal_textGrowthRate : ReadsSignal textGrowthRate := by
  intro events events' h
  simp only [textGrowthRate, h.characters.length, readsSignal_deletionCount events events' h,
    readsSignal_sessionDuration events events' h]

theorem readsSignal_deletionRate : ReadsSignal deletionRate := by
  intro events events' h
  simp only [deletionRate, h.characters.length, readsSignal_deletionCount events events' h]

/-! ## The text -/

theorem readsSignal_lastTextLength : ReadsSignal lastTextLength := fun _ _ h => h.lastText

theorem readsSignal_wordCount : ReadsSignal (wordCount t) := by
  intro events events' h
  simp only [wordCount, h.lastText]

theorem readsSignal_clipboard : ReadsSignal clipboard := by
  intro events events' h
  have hcount {k : EventKind} (hkeyup : k ≠ .keyup) (hselect : k ≠ .select) :
      (ofKind k events').length = (ofKind k events).length :=
    readsSignal_ofKind hkeyup hselect events events' h
  have hpasted : (ofKind .paste events').foldr (fun o total => o.pastedLength + total) 0 =
      (ofKind .paste events).foldr (fun o total => o.pastedLength + total) 0 := h.pasted
  simp only [clipboard, hcount (k := .paste) (by decide) (by decide),
    hcount (k := .copy) (by decide) (by decide), hcount (k := .cut) (by decide) (by decide),
    hpasted, h.lastText]

/-! ## The table -/

/-- A calculator of a number that is read off the signal. -/
def Calculator.IsOfSignal (c : Calculator) : Prop := ∃ f, c = .ofNumber f ∧ ReadsSignal f

theorem Calculator.IsOfSignal.of_reads {f : List Observation → Except Fault Number}
    (h : ReadsSignal f) : (Calculator.ofNumber f).IsOfSignal :=
  ⟨f, rfl, h⟩

theorem Calculator.IsOfSignal.of_count {f : List Observation → Nat} (h : ReadsSignal f) :
    (counting f).IsOfSignal :=
  .of_reads (h.map fun n => Except.ok (Number.int n))

/-- **Every typing metric is read off the signal.** -/
theorem isOfSignal_typingMetrics : ∀ d ∈ typingMetrics t, d.calculator.IsOfSignal := by
  simp only [typingMetrics, List.forall_mem_cons, List.not_mem_nil, false_implies, implies_true,
    and_true]
  exact ⟨
    -- speed
    .of_reads (readsSignal_keyRate _),
    .of_reads (readsSignal_keyRate _),
    .of_reads (readsSignal_burstSpeed t),
    -- timing
    .of_reads readsSignal_averageInterval,
    .of_reads (readsSignal_pauseCount t),
    .of_reads (readsSignal_longestPause t),
    .of_reads (readsSignal_activeTypingTime t),
    -- behaviour and quality
    .of_reads (readsSignal_burstTotal t),
    .of_count readsSignal_focusChanges,
    .of_reads (readsSignal_typingConsistency t),
    .of_count readsSignal_deletionCount,
    .of_reads (readsSignal_deletionRate.map Except.ok),
    .of_count readsSignal_correctionCount,
    .of_count (readsSignal_clipboard.map Clipboard.pastes),
    .of_count (readsSignal_clipboard.map Clipboard.copies),
    .of_count (readsSignal_clipboard.map Clipboard.cuts),
    .of_reads (readsSignal_clipboard.map fun c => Except.ok c.pasteRatio),
    -- session
    .of_reads readsSignal_sessionDuration,
    .of_count readsSignal_lastTextLength,
    .of_reads (readsSignal_wordCount t),
    .of_reads readsSignal_textGrowthRate,
    -- what was done with the text
    .of_count (readsSignal_ofKind (by decide) (by decide)),
    .of_count readsSignal_formattingActions,
    .of_count readsSignal_findReplaceActions⟩

/-! ## Runs -/

namespace Engine

variable {e : Engine} {events events' : List Entry}

theorem call_of_answer {c : Calculator} (h : c.answer events' = c.answer events)
    (pool : Option Pool) : e.call c events' pool = e.call c events pool := by
  simp only [call, Pool.call, h]

theorem outcomes_of_answers {definitions : List Definition}
    (h : ∀ d ∈ definitions, d.calculator.answer events' = d.calculator.answer events)
    (pool : Option Pool) :
    e.outcomes events' definitions pool = e.outcomes events definitions pool := by
  induction definitions generalizing pool with
  | nil => rfl
  | cons d rest ih =>
    have hrest := ih fun d' hd' => h d' (List.mem_cons_of_mem d hd')
    simp only [outcomes, invoke, call_of_answer (h d List.mem_cons_self), hrest]

/-- What a failure says does not depend on when it happens. -/
theorem cause_failureOf (now now' : Clock) (d : Definition) (outcome : Except Fault Number) :
    (failureOf now' d outcome).map Failure.cause = (failureOf now d outcome).map Failure.cause := by
  cases outcome with
  | ok n => rfl
  | error f => simp only [failureOf, Option.map_some, Failure.cause_ofFault]

/-- Calculators that answer the same make the same run, up to the time of its failures. -/
theorem run_of_answers {override : Option Registry} (hempty : events'.isEmpty = events.isEmpty)
    (h : ∀ d ∈ (override.getD e.registry).definitions,
      d.calculator.answer events' = d.calculator.answer events)
    (now now' : Clock) (disk disk' : Disk) :
    let result := (e.run now events override disk).1
    let result' := (e.run now' events' override disk').1
    result'.values = result.values ∧
      result'.failures.map Failure.cause = result.failures.map Failure.cause := by
  intro result result'
  have hrun (now : Clock) (events : List Entry) (disk : Disk) :
      (e.run now events override disk).1 =
        (e.compute now events (override.getD e.registry)).1 := rfl
  simp only [result, result', hrun, compute, hempty]
  by_cases hnone : events.isEmpty
  · simp only [if_pos hnone, and_self]
  · simp only [if_neg hnone, outcomes_of_answers h, List.map_filterMap, true_and]
    refine List.filterMap_congr fun outcome _ => ?_
    exact cause_failureOf now now' outcome.1 outcome.2

/-- **Runs on sequences of the same signal.** -/
theorem run_sameSignal {t : Thresholds} {override : Option Registry}
    (hmetrics : override.getD e.registry = typingRegistry t)
    (hempty : events'.isEmpty = events.isEmpty)
    (h : SameSignal (events.map Entry.observe) (events'.map Entry.observe))
    (now now' : Clock) (disk disk' : Disk) :
    let result := (e.run now events override disk).1
    let result' := (e.run now' events' override disk').1
    result'.values = result.values ∧
      result'.failures.map Failure.cause = result.failures.map Failure.cause := by
  refine run_of_answers hempty (fun d hd => ?_) now now' disk disk'
  rw [hmetrics] at hd
  obtain ⟨f, hf, hreads⟩ := isOfSignal_typingMetrics t d hd
  rw [hf]
  exact congrArg (Except.map Value.ofNumber) (hreads _ _ h)

end Engine

end TypingTrace
