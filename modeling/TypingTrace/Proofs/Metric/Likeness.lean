import Mathlib.Data.List.Forall2
import TypingTrace.Proofs.Metric.Signal

/-!
# Events that the metrics cannot tell apart

**Theorem (`run_resembling`).** An engine gives the typing metrics equal values and equal failures
on two sequences of checked events that agree, event by event, on the kind, on whether a character
was typed and on how many were pasted (`Row.Resembles`), if all times are apart by one shift and the
last texts are equally long. So no metric can observe the hour, the offset in which a time was
written, an identity, a project, a time of acceptance, a key code, a position, a target or the text
before.

A shift leaves the differences of times as they are, and selections go by what both sequences show,
so the two have one signal (`sameSignal_of_resembles`).
-/

namespace TypingTrace

open Time Log

/-! ## Shifted times -/

theorem differences_map_add (shift : Int) (instants : List Int) :
    differences (instants.map (· + shift)) = differences instants := by
  unfold differences
  rw [← List.map_tail, List.zipWith_map]
  refine congrArg (List.zipWith · instants instants.tail) ?_
  funext earlier later
  omega

theorem extent_map_add (shift : Int) (instants : List Int) :
    extent (instants.map (· + shift)) = extent instants := by
  unfold extent
  rw [List.getLast?_map, List.head?_map]
  cases instants with
  | nil => rfl
  | cons first rest =>
    rw [List.getLast?_eq_some_getLast (List.cons_ne_nil first rest)]
    generalize (first :: rest).getLast _ = last
    show last + shift - (first + shift) = last - first
    omega

/-! ## Likeness -/

/-- Two events that a metric sees alike, except for their times, which are `shift` apart. -/
structure Row.Resembles (shift : Int) (r r' : Row) : Prop where
  kind : r'.kind = r.kind
  keyChar : r'.interaction.keyChar.truthy = r.interaction.keyChar.truthy
  pasted : r.kind = .paste → (Fields.get "pastedText" r'.interaction.metadata).textLength =
    (Fields.get "pastedText" r.interaction.metadata).textLength
  time : r'.time.instant = r.time.instant + shift

variable {shift : Int} {rows rows' : List Row}

theorem instants_of_resembles (h : List.Forall₂ (Row.Resembles shift) rows rows') :
    instants rows' = (instants rows).map (· + shift) := by
  induction h with
  | nil => rfl
  | @cons r r' rows rows' hr _ ih =>
    show r'.time.instant :: instants rows' = (r.time.instant + shift) :: (instants rows).map _
    rw [ih, hr.time]

theorem sameTimes_of_resembles (h : List.Forall₂ (Row.Resembles shift) rows rows') :
    SameTimes (rows.map Row.observe) (rows'.map Row.observe) where
  length := by rw [List.length_map, List.length_map, h.length_eq]
  gaps := by rw [gaps_observe, gaps_observe, instants_of_resembles h, differences_map_add]
  span := by rw [span_observe, span_observe, instants_of_resembles h, extent_map_add]

/-- A selection by what both events show. -/
theorem sameTimes_filter {p : Row → Bool} (h : List.Forall₂ (Row.Resembles shift) rows rows')
    (hp : ∀ r r', Row.Resembles shift r r' → (p r ↔ p r')) :
    SameTimes ((rows.filter p).map Row.observe) ((rows'.filter p).map Row.observe) :=
  sameTimes_of_resembles (List.rel_filter (fun {_ _} hr => hp _ _ hr) h)

theorem signalKinds_observe (rows : List Row) :
    signalKinds (rows.map Row.observe) = (rows.map Row.kind).filter EventKind.isSignal := by
  unfold signalKinds
  rw [List.filterMap_map, ← List.filterMap_eq_map]
  rfl

theorem kinds_of_resembles (h : List.Forall₂ (Row.Resembles shift) rows rows') :
    rows'.map Row.kind = rows.map Row.kind := by
  induction h with
  | nil => rfl
  | cons hr _ ih => rw [List.map_cons, List.map_cons, hr.kind, ih]

/-- The pasted characters of one event. -/
theorem pastedTotal_cons (r : Row) (rows : List Row) :
    pastedTotal ((r :: rows).map Row.observe) =
      (if r.kind = .paste then (Fields.get "pastedText" r.interaction.metadata).textLength else 0) +
        pastedTotal (rows.map Row.observe) := by
  unfold pastedTotal ofKind
  rw [List.map_cons, List.filter_cons]
  have hkind : Observation.isKind .paste r.observe = (r.kind == .paste) := rfl
  rw [hkind]
  by_cases hpaste : r.kind = .paste
  · rw [if_pos (beq_iff_eq.2 hpaste), if_pos hpaste]
    rfl
  · rw [if_neg (mt beq_iff_eq.1 hpaste), if_neg hpaste, Nat.zero_add]

theorem pastedTotal_of_resembles (h : List.Forall₂ (Row.Resembles shift) rows rows') :
    pastedTotal (rows'.map Row.observe) = pastedTotal (rows.map Row.observe) := by
  induction h with
  | nil => rfl
  | @cons r r' rows rows' hr _ ih =>
    rw [pastedTotal_cons, pastedTotal_cons, ih, hr.kind]
    by_cases hpaste : r.kind = .paste
    · rw [if_pos hpaste, if_pos hpaste, hr.pasted hpaste]
    · rw [if_neg hpaste, if_neg hpaste]

/-- The length of the text after the last event. -/
def lastTextOf (rows : List Row) : Nat :=
  (rows.getLast?.map fun r => r.interaction.textAfter.textLength).getD 0

theorem lastTextLength_observe (rows : List Row) :
    lastTextLength (rows.map Row.observe) = lastTextOf rows := by
  rw [lastTextLength, List.getLast?_map, Option.map_map]
  rfl

theorem sameSignal_of_resembles (h : List.Forall₂ (Row.Resembles shift) rows rows')
    (htext : lastTextOf rows' = lastTextOf rows) :
    SameSignal (rows.map Row.observe) (rows'.map Row.observe) where
  kinds := by rw [signalKinds_observe, signalKinds_observe, kinds_of_resembles h]
  characters := by
    rw [characterKeys_observe, characterKeys_observe]
    refine sameTimes_filter h fun r r' hr => ?_
    rw [Row.typesCharacter, Row.typesCharacter, hr.kind, hr.keyChar]
  presses := by
    rw [keyPresses_observe, keyPresses_observe]
    exact sameTimes_filter h fun r r' hr => by rw [hr.kind]
  keysAndInputs := by
    rw [keysAndInputs_observe, keysAndInputs_observe]
    exact sameTimes_filter h fun r r' hr => by rw [hr.kind]
  pasted := pastedTotal_of_resembles h
  span := (sameTimes_of_resembles h).span
  lastText := by rw [lastTextLength_observe, lastTextLength_observe, htext]

/-- **What the typing metrics can observe.** -/
theorem Engine.run_resembling {t : Thresholds} {e : Engine} {override : Option Registry}
    (hmetrics : override.getD e.registry = typingRegistry t)
    (h : List.Forall₂ (Row.Resembles shift) rows rows')
    (htext : lastTextOf rows' = lastTextOf rows) (now now' : Clock) (disk disk' : Disk) :
    let result := (e.run now (rows.map .event) override disk).1
    let result' := (e.run now' (rows'.map .event) override disk').1
    result'.values = result.values ∧
      result'.failures.map Failure.cause = result.failures.map Failure.cause := by
  refine e.run_sameSignal hmetrics ?_ ?_ now now' disk disk'
  · cases h <;> rfl
  · rw [List.map_map, List.map_map]
    exact sameSignal_of_resembles h htext

/-- A word and a paste, and the same an hour later in another project, written with an offset. -/
theorem Engine.run_resembling_otherProject :
    let at_ (micros : Int) (kind : EventKind) : Interaction := { kind, time := ⟨micros, 0⟩ }
    let rows : List Row := [
      .plain { at_ 0 .keydown with keyChar := .text "a" },
      .plain { at_ 90000 .keydown with keyChar := .text "b" },
      .plain { at_ 500000 .paste with
        metadata := [("pastedText", .text "cd")], textAfter := .text "abcd" }]
    let stored (micros : Int) (kind : EventKind) (e : Interaction → Interaction) : Row :=
      .stored ⟨e { kind, time := ⟨micros, -3600000000⟩, target := .text "body", cursor := some 7 },
        "1", .text "s", .text "p", none⟩
    let rows' : List Row := [
      stored 0 .keydown fun e => { e with keyChar := .text "y" },
      stored 90000 .keydown fun e => { e with keyChar := .text "z" },
      stored 500000 .paste fun e => { e with
        metadata := [("pastedText", .text "12")], textAfter := .text "yz12" }]
    let metrics := typingRegistry Settings.defaults.thresholds
    let result := (counting.run ⟨5⟩ (rows.map .event) (some metrics) {}).1
    let result' := (counting.run ⟨7⟩ (rows'.map .event) (some metrics) {}).1
    result'.values = result.values ∧
      result'.failures.map Failure.cause = result.failures.map Failure.cause := by
  intro at_ rows stored rows' metrics
  have h : List.Forall₂ (Row.Resembles 3600000000) rows rows' :=
    .cons ⟨rfl, rfl, nofun, rfl⟩ (.cons ⟨rfl, rfl, nofun, rfl⟩
      (.cons ⟨rfl, rfl, fun _ => rfl, rfl⟩ .nil))
  exact Engine.run_resembling (t := Settings.defaults.thresholds) rfl h rfl ⟨5⟩ ⟨7⟩ {} {}

end TypingTrace
