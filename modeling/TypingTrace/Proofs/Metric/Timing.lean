import TypingTrace.Metric.Typing

/-!
# Times of checked events

A checked event always has a time, so nothing is refused when the times between such events are
taken. What comes out depends on the instants alone (`gaps_observe`, `span_observe`): the gaps
between neighbours, and the time from the first to the last.
-/

namespace TypingTrace

open Time

/-! ## Instants -/

/-- The differences of neighbours. -/
def differences (instants : List Int) : List Int :=
  List.zipWith (fun earlier later => later - earlier) instants instants.tail

/-- From the first to the last; zero if there are not two. -/
def extent (instants : List Int) : Int := instants.getLast?.getD 0 - instants.head?.getD 0

theorem length_differences (instants : List Int) :
    (differences instants).length = instants.length - 1 := by
  simp [differences]

/-! ## Events -/

/-- The instants of events, in microseconds. -/
def instants (rows : List Row) : List Int := rows.map fun r => r.time.instant

theorem microsTo_observe (a b : Row) :
    a.observe.microsTo b.observe = .ok (b.time.instant - a.time.instant) := rfl

theorem gaps_observe (rows : List Row) :
    gaps (rows.map Row.observe) = .ok (differences (instants rows)) := by
  match rows with
  | [] => rfl
  | [_] => rfl
  | a :: b :: rest =>
    rw [List.map_cons, List.map_cons, gaps, ← List.map_cons, gaps_observe, microsTo_observe]
    rfl

theorem span_observe (rows : List Row) :
    span (rows.map Row.observe) = .ok (extent (instants rows)) := by
  match rows with
  | [] => rfl
  | [a] =>
    show Except.ok 0 = Except.ok (a.time.instant - a.time.instant)
    rw [Int.sub_self]
  | a :: b :: rest =>
    have hlast : ((b :: rest).map Row.observe).getLast (by simp) =
        ((b :: rest).getLast (by simp)).observe := List.getLast_map _
    have hinstant : (instants (a :: b :: rest)).getLast? =
        some ((b :: rest).getLast (by simp)).time.instant := by
      rw [instants, List.getLast?_map, List.getLast?_cons_cons, List.getLast?_eq_some_getLast]
      rfl
    rw [extent, hinstant]
    show a.observe.microsTo (((b :: rest).map Row.observe).getLast _) = _
    rw [hlast]
    rfl

theorem intervals_observe (rows : List Row) :
    intervals (rows.map Row.observe) = .ok ((differences (instants rows)).map milliseconds) := by
  rw [intervals, gaps_observe]
  rfl

theorem spanMilliseconds_observe (rows : List Row) :
    spanMilliseconds (rows.map Row.observe) = .ok (milliseconds (extent (instants rows))) := by
  rw [spanMilliseconds, span_observe]
  rfl

/-! ## Selections of events -/

/-- Whether an event is the press of a key that produced a character. -/
def Row.typesCharacter (r : Row) : Bool := r.kind == .keydown && r.interaction.keyChar.truthy

theorem characterKeys_observe (rows : List Row) :
    characterKeys (rows.map Row.observe) = (rows.filter Row.typesCharacter).map Row.observe :=
  List.filter_map

theorem keyPresses_observe (rows : List Row) :
    keyPresses (rows.map Row.observe) =
      (rows.filter fun r => r.kind == .keydown).map Row.observe :=
  List.filter_map

theorem keysAndInputs_observe (rows : List Row) :
    keysAndInputs (rows.map Row.observe) =
      (rows.filter fun r => r.kind == .keydown || r.kind == .input).map Row.observe :=
  List.filter_map

end TypingTrace
