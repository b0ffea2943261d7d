import TypingTrace.Proofs.Metric.Signal

/-!
# Events without signal

**Theorem (`run_padded`).** Released keys, selections and objects that name no kind, put in anywhere
between the first and the last of some checked events, leave all values and failures of the typing
metrics as they are.

Whatever a metric selects by kind, it selects none of these (`Padded.filter_eq`). The length of a
session and its last text do not go by kinds but by places, and the first and the last event keep
theirs.
-/

namespace TypingTrace

open Time Log

/-! ## Padded lists -/

/-- A list, and the same list with items of a sort put in at any places. -/
inductive Padded {α : Type} (p : α → Prop) : List α → List α → Prop
  | nil : Padded p [] []
  | keep (a : α) {l l' : List α} : Padded p l l' → Padded p (a :: l) (a :: l')
  | insert {a : α} {l l' : List α} : p a → Padded p l l' → Padded p l (a :: l')

namespace Padded

variable {α β : Type} {p : α → Prop} {l l' : List α}

theorem append_right (h : Padded p l l') (m : List α) : Padded p (l ++ m) (l' ++ m) := by
  induction h with
  | nil =>
    induction m with
    | nil => exact .nil
    | cons a _ ih => exact ih.keep a
  | keep a _ ih => exact ih.keep a
  | insert ha _ ih => exact ih.insert ha

theorem map {q : β → Prop} (f : α → β) (hf : ∀ a, p a → q (f a)) (h : Padded p l l') :
    Padded q (l.map f) (l'.map f) := by
  induction h with
  | nil => exact .nil
  | keep a _ ih => exact ih.keep (f a)
  | insert ha _ ih => exact ih.insert (hf _ ha)

/-- What takes nothing from the items put in takes the same from both lists. -/
theorem filterMap_eq {f : α → Option β} (h : Padded p l l') (hf : ∀ a, p a → f a = none) :
    l'.filterMap f = l.filterMap f := by
  induction h with
  | nil => rfl
  | keep a _ ih => rw [List.filterMap_cons, List.filterMap_cons, ih]
  | insert ha _ ih => rw [List.filterMap_cons, hf _ ha, ih]

theorem filter_eq {q : α → Bool} (h : Padded p l l') (hq : ∀ a, p a → q a = false) :
    l'.filter q = l.filter q := by
  induction h with
  | nil => rfl
  | keep a _ ih => rw [List.filter_cons, List.filter_cons, ih]
  | insert ha _ ih => rw [List.filter_cons, if_neg (by simp [hq _ ha]), ih]

end Padded

/-! ## Noise -/

/-- Whether an observation tells the metrics nothing. It may have any kind that has no signal, or a
value for its kind that names none, or no kind at all. -/
def Observation.IsNoise (o : Observation) : Prop := ∀ k, o.kind? = some k → k.isSignal = false

namespace Observation.IsNoise

variable {o : Observation}

theorem isKind (h : o.IsNoise) {k : EventKind} (hk : k.isSignal) : o.isKind k = false := by
  unfold Observation.isKind
  rw [beq_eq_false_iff_ne]
  intro hkind
  rw [h k hkind] at hk
  cases hk

theorem isCharacter (h : o.IsNoise) : o.isCharacter = false := by
  rw [Observation.isCharacter, h.isKind rfl, Bool.false_and]

theorem signal (h : o.IsNoise) : o.kind?.filter EventKind.isSignal = none := by
  cases hkind : o.kind? with
  | none => rfl
  | some k => rw [Option.filter_some, h k hkind, if_neg Bool.false_ne_true]

end Observation.IsNoise

theorem signalKinds_padded {events events' : List Observation}
    (h : Padded Observation.IsNoise events events') : signalKinds events' = signalKinds events := by
  unfold signalKinds
  rw [List.filter_filterMap, List.filter_filterMap]
  exact h.filterMap_eq fun o ho => ho.signal

theorem ofKind_padded {events events' : List Observation}
    (h : Padded Observation.IsNoise events events') {k : EventKind} (hk : k.isSignal) :
    ofKind k events' = ofKind k events :=
  h.filter_eq fun _ ho => ho.isKind hk

theorem span_ends (first last : Observation) (middle : List Observation) :
    span (first :: (middle ++ [last])) = first.microsTo last := by
  cases middle with
  | nil => rfl
  | cons second rest =>
    show first.microsTo ((second :: (rest ++ [last])).getLast _) = _
    simp

theorem lastTextLength_ends (first last : Observation) (middle : List Observation) :
    lastTextLength (first :: (middle ++ [last])) = last.textLength := by
  rw [lastTextLength, ← List.cons_append, List.getLast?_concat]
  rfl

theorem sameSignal_padded (first last : Observation) {middle middle' : List Observation}
    (h : Padded Observation.IsNoise middle middle') :
    SameSignal (first :: (middle ++ [last])) (first :: (middle' ++ [last])) := by
  have hall : Padded Observation.IsNoise (first :: (middle ++ [last]))
      (first :: (middle' ++ [last])) := (h.append_right [last]).keep first
  have hcharacters : characterKeys (first :: (middle' ++ [last])) =
      characterKeys (first :: (middle ++ [last])) := hall.filter_eq fun _ ho => ho.isCharacter
  have hpresses : keyPresses (first :: (middle' ++ [last])) =
      keyPresses (first :: (middle ++ [last])) := ofKind_padded hall rfl
  have hinputs : keysAndInputs (first :: (middle' ++ [last])) =
      keysAndInputs (first :: (middle ++ [last])) :=
    hall.filter_eq fun _ ho => by rw [ho.isKind rfl, ho.isKind rfl, Bool.or_false]
  exact {
    kinds := signalKinds_padded hall
    characters := hcharacters ▸ .refl _
    presses := hpresses ▸ .refl _
    keysAndInputs := hinputs ▸ .refl _
    pasted := by rw [pastedTotal, pastedTotal, ofKind_padded hall rfl]
    span := by rw [span_ends, span_ends]
    lastText := by rw [lastTextLength_ends, lastTextLength_ends] }

/-! ## Entries -/

/-- Whether an entry is noise: a released key, a selection, or an object that names no other
kind. -/
def Entry.IsNoise (x : Entry) : Prop := ∀ k, x.observe.kind? = some k → k = .keyup ∨ k = .select

theorem Entry.IsNoise.observe {x : Entry} (h : x.IsNoise) : x.observe.IsNoise := by
  intro k hk
  rcases h k hk with rfl | rfl <;> rfl

/-- **Events without signal do not disturb the metrics.** -/
theorem Engine.run_padded {t : Thresholds} {e : Engine} {override : Option Registry}
    (hmetrics : override.getD e.registry = typingRegistry t) (first last : Row) (middle : List Row)
    {padded : List Entry} (h : Padded Entry.IsNoise (middle.map .event) padded) (now now' : Clock)
    (disk disk' : Disk) :
    let events := Entry.event first :: (middle.map .event ++ [.event last])
    let events' := Entry.event first :: (padded ++ [.event last])
    let result := (e.run now events override disk).1
    let result' := (e.run now' events' override disk').1
    result'.values = result.values ∧
      result'.failures.map Failure.cause = result.failures.map Failure.cause := by
  intro events events'
  have hsignal : SameSignal (events.map Entry.observe) (events'.map Entry.observe) := by
    have hobserved := sameSignal_padded first.observe last.observe
      (h.map Entry.observe fun _ => Entry.IsNoise.observe)
    simpa [events, events', Entry.observe] using hobserved
  have hempty : events'.isEmpty = events.isEmpty := rfl
  exact e.run_sameSignal hmetrics hempty hsignal now now' disk disk'

/-- Three keys; in between one is released, before all others by its time, and there are an object
without attributes and one that has a text for its time. -/
theorem Engine.run_padded_releasedKey :
    let key (micros : Int) (kind : EventKind) : Row :=
      .plain { kind, time := .ofInstant micros, keyChar := .text "a" }
    let bare : Observation := ⟨none, none, none, none, none⟩
    let events := [Entry.event (key 0 .keydown), .event (key 90000 .keydown),
      .event (key 210000 .keydown)]
    let events' := [Entry.event (key 0 .keydown), .loose bare, .event (key 90000 .keydown),
      .event (key (-5) .keyup), .loose { bare with time := some (.text "noon") },
      .event (key 210000 .keydown)]
    let metrics := typingRegistry Settings.defaults.thresholds
    let result := (counting.run ⟨5⟩ events (some metrics) {}).1
    let result' := (counting.run ⟨7⟩ events' (some metrics) {}).1
    result'.values = result.values ∧
      result'.failures.map Failure.cause = result.failures.map Failure.cause := by
  intro key bare events events' metrics
  have hreleased : (Entry.event (key (-5) .keyup)).IsNoise := by
    intro k hk
    exact .inl (Option.some.inj hk).symm
  have h : Padded Entry.IsNoise [Entry.event (key 90000 .keydown)]
      [.loose bare, .event (key 90000 .keydown), .event (key (-5) .keyup),
        .loose { bare with time := some (.text "noon") }] :=
    .insert nofun (.keep _ (.insert hreleased (.insert nofun .nil)))
  exact Engine.run_padded (t := Settings.defaults.thresholds) rfl (key 0 .keydown)
    (key 210000 .keydown) [key 90000 .keydown] h ⟨5⟩ ⟨7⟩ {} {}

end TypingTrace
