import TypingTrace.Proofs.Metric.Threshold
import TypingTrace.Proofs.Metric.Timing

/-!
# Pauses and active time share the typing time

**Theorem (`pauses_partition`).** Take checked events in the order of their times, and a threshold
that is not negative. Every interval between presses of keys is either active or a pause, the two
together are the time from the first press to the last, and that is at most the duration of the
session. If there are no inputs, the pauses that are reported are the intervals that are not active.
The longest of them is then the longest interval of all, and it is zero just in case there is none.

Active time and pauses are computed apart, with opposite comparisons that agree (`isActive_eq`).
That the longest pause is the longest interval needs that a longer interval passes the test as well
(`exceeds_mono`). Intervals are counted in microseconds. The metrics compare them with the threshold
in milliseconds as doubles, which is to compare the counts, but for rounding next to a threshold
that is no number of whole seconds (`exceeds_iff`). Such a threshold can be a pause itself
(`threshold_is_pause`).
-/

namespace TypingTrace

open Time

/-! ## Sums of gaps -/

theorem differences_cons_cons (a b : Int) (rest : List Int) :
    differences (a :: b :: rest) = (b - a) :: differences (b :: rest) := rfl

theorem extent_cons_cons (a b : Int) (rest : List Int) :
    extent (a :: b :: rest) = (b - a) + extent (b :: rest) := by
  simp only [extent, List.getLast?_cons_cons, List.head?_cons, Option.getD_some]
  omega

/-- **Telescoping.** The gaps add up to the time from the first to the last. -/
theorem sum_differences (instants : List Int) : (differences instants).sum = extent instants := by
  match instants with
  | [] => rfl
  | [a] => exact (Int.sub_self a).symm
  | a :: b :: rest =>
    rw [differences_cons_cons, extent_cons_cons, List.sum_cons, sum_differences (b :: rest)]

/-- What passes a test and what does not add up to everything. -/
theorem sum_filter_add_sum_filter_not (p : Int → Bool) (l : List Int) :
    (l.filter fun a => !p a).sum + (l.filter p).sum = l.sum := by
  induction l with
  | nil => rfl
  | cons a l ih =>
    by_cases h : p a <;> simp only [List.filter_cons, h, List.sum_cons] <;> simp <;> omega

/-- In an ordered list nothing is outside the time from the first to the last. -/
theorem sub_le_extent {l : List Int} (hordered : l.Pairwise (· ≤ ·)) {a b : Int} (ha : a ∈ l)
    (hb : b ∈ l) : b - a ≤ extent l := by
  have hfirst : l.head?.getD 0 ≤ a := by
    cases l with
    | nil => cases ha
    | cons first rest =>
      rcases List.mem_cons.1 ha with rfl | ha
      · exact le_rfl
      · exact List.rel_of_pairwise_cons hordered ha
  have hlast : b ≤ l.getLast?.getD 0 := by
    rcases List.eq_nil_or_concat l with rfl | ⟨init, last, rfl⟩
    · cases hb
    · rw [List.concat_eq_append] at hb hordered ⊢
      rw [List.getLast?_concat, Option.getD_some]
      rcases List.mem_append.1 hb with hb | hb
      · exact (List.pairwise_append.1 hordered).2.2 b hb last (List.mem_singleton_self last)
      · exact (List.mem_singleton.1 hb).le
  unfold extent
  omega

theorem extent_le_of_subset {l m : List Int} (h : l ⊆ m) (hordered : m.Pairwise (· ≤ ·)) :
    extent l ≤ extent m := by
  cases l with
  | nil =>
    cases m with
    | nil => exact le_rfl
    | cons a rest =>
      have hspan := sub_le_extent hordered List.mem_cons_self List.mem_cons_self
      rwa [Int.sub_self] at hspan
  | cons a rest =>
    have hlast : (a :: rest).getLast?.getD 0 ∈ a :: rest := by
      rw [List.getLast?_eq_some_getLast (List.cons_ne_nil a rest), Option.getD_some]
      exact List.getLast_mem _
    exact sub_le_extent hordered (h List.mem_cons_self) (h hlast)

/-! ## The longest pause -/

theorem longestOf_spec {gaps : List Int} (h : gaps ≠ []) : ∃ gap ∈ gaps,
    (∀ other ∈ gaps, other ≤ gap) ∧ longestOf gaps = .float (milliseconds gap) := by
  cases gaps with
  | nil => exact absurd rfl h
  | cons first rest =>
    have hmax : (first :: rest).max? = some (rest.foldl max first) := List.max?_cons'
    obtain ⟨hmem, hge⟩ := List.max?_eq_some_iff.1 hmax
    exact ⟨_, hmem, hge, rfl⟩

/-- The longest pause is the longest gap of all, because a gap that is longer than a pause is a
pause. -/
theorem longestOf_pauses {threshold : Number} {gaps : List Int}
    (h : gaps.filter (exceeds threshold) ≠ []) : ∃ gap ∈ gaps, (∀ other ∈ gaps, other ≤ gap) ∧
      longestOf (gaps.filter (exceeds threshold)) = .float (milliseconds gap) ∧
      exceeds threshold gap := by
  obtain ⟨gap, hmem, hge, hlongest⟩ := longestOf_spec h
  obtain ⟨hgap, hexceeds⟩ := List.mem_filter.1 hmem
  refine ⟨gap, hgap, fun other hother => ?_, hlongest, hexceeds⟩
  by_contra hlonger
  have hpause : exceeds threshold other := exceeds_mono (Int.le_of_lt (not_le.1 hlonger)) hexceeds
  exact hlonger (hge other (List.mem_filter.2 ⟨hother, hpause⟩))

theorem isZero_longestOf {threshold : Number} (hnonneg : (0 : Number).le threshold)
    (gaps : List Int) : (longestOf (gaps.filter (exceeds threshold))).isZero ↔
      gaps.filter (exceeds threshold) = [] := by
  constructor
  · intro hzero
    by_contra h
    obtain ⟨gap, -, -, hlongest, hexceeds⟩ := longestOf_pauses h
    rw [hlongest, Number.isZero_of_lt hnonneg hexceeds] at hzero
    cases hzero
  · intro h
    rw [h]
    rfl

/-! ## The metrics -/

section Metrics

variable {t : Thresholds} {threshold : Number}

theorem activeGaps_observe (hpause : t.pause.number? = some threshold)
    (hnonneg : (0 : Number).le threshold) (rows : List Row) :
    activeGaps t (rows.map Row.observe) =
      .ok ((differences (instants (rows.filter fun r => r.kind == .keydown))).filter
        fun gap => !exceeds threshold gap) := by
  rw [activeGaps, keyPresses_observe, gaps_observe]
  exact filterM_eq_ok (isActive_eq hpause hnonneg) _

/-- Without inputs, the pauses are those between presses of keys. -/
theorem detectPauses_observe (hpause : t.pause.number? = some threshold) {rows : List Row}
    (hinputs : ∀ r ∈ rows, r.kind ≠ .input) :
    let pauses := (differences (instants (rows.filter fun r => r.kind == .keydown))).filter
      (exceeds threshold)
    detectPauses t (rows.map Row.observe) = .ok ⟨pauses.length, longestOf pauses⟩ := by
  intro pauses
  have hkeys : (rows.filter fun r => r.kind == .keydown || r.kind == .input) =
      rows.filter fun r => r.kind == .keydown := by
    apply List.filter_congr
    intro r hr
    simp [hinputs r hr]
  have hpauses : (differences (instants (rows.filter fun r => r.kind == .keydown))).filterM
      (isPause t) = .ok pauses := filterM_eq_ok (isPause_eq hpause) _
  rw [detectPauses, keysAndInputs_observe, gaps_observe, hkeys]
  show ((differences _).filterM (isPause t)).bind _ = _
  rw [hpauses]
  rfl

/-- **Pauses and active time.** One test decides both; it is that of exact counts, but for rounding,
and the longer of two intervals passes it if the other does. -/
theorem pauses_partition (hpause : t.pause.number? = some threshold)
    (hnonneg : (0 : Number).le threshold) {rows : List Row}
    (hordered : (instants rows).Pairwise (· ≤ ·)) :
    let events := rows.map Row.observe
    let keys := rows.filter fun r => r.kind == .keydown
    let gaps := differences (instants keys)
    let pauses := gaps.filter (exceeds threshold)
    let active := gaps.filter fun gap => !exceeds threshold gap
    (∀ gap, isPause t gap = .ok (exceeds threshold gap) ∧
        isActive t gap = .ok (!exceeds threshold gap)) ∧
      (∀ gap longer, gap ≤ longer → exceeds threshold gap → exceeds threshold longer) ∧
      (∀ q, threshold.doubleKind = none → threshold.place = some (0, q) → q ≤ 2 ^ 41 →
        ∀ gap : Int, (1 ≤ |gap - 1000 * q| ∨ ∃ s : Int, q = s * 1000) →
          (exceeds threshold gap ↔ 1000 * q < gap)) ∧
      activeTypingTime t events = .ok (totalMilliseconds active) ∧
      active.sum + pauses.sum = extent (instants keys) ∧
      sessionDuration events = .ok (.float (milliseconds (extent (instants rows)))) ∧
      extent (instants keys) ≤ extent (instants rows) ∧
      ((∀ r ∈ rows, r.kind ≠ .input) →
        pauseCount t events = .ok (.int pauses.length) ∧
        pauses.length + active.length = keys.length - 1 ∧
        longestPause t events = .ok (longestOf pauses) ∧
        ((longestOf pauses).isZero ↔ pauses.length = 0) ∧
        (pauses.length ≠ 0 → ∃ gap ∈ gaps, (∀ other ∈ gaps, other ≤ gap) ∧
          longestOf pauses = .float (milliseconds gap) ∧ threshold.lt (longestOf pauses))) := by
  intro events keys gaps pauses active
  have hsubset : instants keys ⊆ instants rows :=
    List.map_subset _ List.filter_sublist.subset
  refine ⟨fun gap => ⟨isPause_eq hpause gap, isActive_eq hpause hnonneg gap⟩,
    fun gap longer => exceeds_mono, fun q hplain hplace hq gap haway => ?counts, ?active, ?sum,
    ?duration, extent_le_of_subset hsubset hordered, fun hinputs => ?pauses⟩
  case counts => exact exceeds_iff hplain hplace hnonneg hq haway
  case active =>
    rw [activeTypingTime, activeGaps_observe hpause hnonneg]
    rfl
  case sum => rw [sum_filter_add_sum_filter_not, sum_differences]
  case duration =>
    rw [sessionDuration, spanMilliseconds_observe]
    rfl
  case pauses =>
    have hdetected : detectPauses t events = .ok ⟨pauses.length, longestOf pauses⟩ :=
      detectPauses_observe hpause hinputs
    refine ⟨?_, ?_, ?_, ?_, ?_⟩
    · rw [pauseCount, hdetected]
      rfl
    · have hkeys : keys.length - 1 = gaps.length := by
        rw [length_differences, instants, List.length_map]
      rw [hkeys]
      exact (List.length_eq_length_filter_add _).symm
    · rw [longestPause, hdetected]
      rfl
    · rw [List.length_eq_zero_iff]
      exact isZero_longestOf hnonneg gaps
    · intro hsome
      obtain ⟨gap, hgap, hge, hlongest, hexceeds⟩ :=
        longestOf_pauses (mt List.length_eq_zero_iff.2 hsome)
      refine ⟨gap, hgap, hge, hlongest, ?_⟩
      rw [hlongest]
      exact hexceeds

/-- A gap of just the threshold is active, the longer one behind it a pause. -/
theorem pauses_partition_atThreshold :
    let t : Thresholds := ⟨.int 2000, .int 300, .int 5, .int 5⟩
    let key (ms : Int) (kind : EventKind) : Row :=
      .plain { kind, time := .ofInstant (ms * 1000) }
    let rows := [key 0 .keydown, key 90 .keyup, key 2000 .keydown, key 5000 .keydown,
      key 5500 .keyup]
    let events := rows.map Row.observe
    pauseCount t events = .ok (.int 1) ∧
      longestPause t events = .ok (.float (milliseconds 3000000)) ∧
      activeTypingTime t events = .ok (totalMilliseconds [2000000]) ∧
      sessionDuration events = .ok (.float (milliseconds 5500000)) := by
  intro t key rows events
  have hgaps : differences (instants (rows.filter fun r => r.kind == .keydown)) =
      [2000000, 3000000] := rfl
  have hpauses : [2000000, 3000000].filter (exceeds (.int 2000)) = [3000000] := by decide +kernel
  have hactive : ([2000000, 3000000].filter fun gap => !exceeds (.int 2000) gap) = [2000000] := by
    decide +kernel
  have hnonneg : (0 : Number).le (.int 2000) := by decide +kernel
  have hordered : (instants rows).Pairwise (· ≤ ·) := by decide +kernel
  obtain ⟨-, -, -, htime, -, hduration, -, hcount⟩ := pauses_partition (t := t) rfl hnonneg hordered
  obtain ⟨hnumber, -, hlongest, -⟩ := hcount (by decide +kernel)
  rw [hgaps, hpauses] at hnumber hlongest
  rw [hgaps, hactive] at htime
  exact ⟨hnumber, hlongest, htime, hduration⟩

/-- **A gap of just the threshold that is a pause.** In doubles 2007 milliseconds are rounded up. -/
theorem threshold_is_pause :
    let t : Thresholds := ⟨.int 2007, .int 300, .int 5, .int 5⟩
    let rows : List Row := [0, 2007].map fun ms =>
      .plain { kind := .keydown, time := .ofInstant (ms * 1000) }
    let events := rows.map Row.observe
    differences (instants rows) = [2007 * 1000] ∧ pauseCount t events = .ok (.int 1) ∧
      longestPause t events = .ok (.float (milliseconds (2007 * 1000))) ∧
      activeTypingTime t events = .ok 0 := by
  intro t rows events
  have hkeys : (rows.filter fun r => r.kind == .keydown) = rows := rfl
  have hgaps : differences (instants rows) = [2007 * 1000] := rfl
  have hpause : [2007 * 1000].filter (exceeds (.int 2007)) = [2007 * 1000] := by decide +kernel
  have hactive : ([2007 * 1000].filter fun gap => !exceeds (.int 2007) gap) = [] := by
    decide +kernel
  have hthreshold : t.pause.number? = some (.int 2007) := rfl
  have hinputs : ∀ r ∈ rows, r.kind ≠ .input := by decide +kernel
  have hdetected := detectPauses_observe hthreshold hinputs
  have htime := activeGaps_observe hthreshold (by decide +kernel) rows
  rw [hkeys, hgaps, hpause] at hdetected
  rw [hkeys, hgaps, hactive] at htime
  refine ⟨hgaps, ?_, ?_, ?_⟩
  · rw [pauseCount, hdetected]
    rfl
  · rw [longestPause, hdetected]
    rfl
  · rw [activeTypingTime, htime]
    rfl

end Metrics

end TypingTrace
