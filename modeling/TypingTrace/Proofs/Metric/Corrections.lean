import TypingTrace.Proofs.Metric.Bursts
import TypingTrace.Proofs.Metric.Noise

/-!
# Corrections are maximal runs of deletions

**Theorem (`correctionCount_runs`).** Of any events, checked or not, keep the deletions and the
presses of keys. The number of corrections is the number of maximal runs of deletions among these.
Other events make no difference, wherever they are put in or taken out. There are no more
corrections than deletions, at most one more than presses of keys, and none just in case nothing was
deleted.

The loop over the events knows only whether a run is open, where the counter of bursts knows how
long it is (`burstCount`). With one item as the least length of a run the two count alike
(`correctionsFrom_eq_burstCount`), and that counter counts maximal runs (`burstCount_eq_card`).
-/

namespace TypingTrace

/-! ## Runs of any length -/

/-- The maximal runs of `true`. -/
def maximalRuns (marks : List Bool) : Finset (Nat × Nat) := longRuns 1 marks

theorem mem_maximalRuns {marks : List Bool} {run : Nat × Nat} :
    run ∈ maximalRuns marks ↔ IsMaximalRun marks run.1 run.2 := by
  rw [maximalRuns, mem_longRuns, and_iff_left_iff_imp]
  intro h
  have := h.nonempty
  omega

theorem closedRun_one (current : Nat) : closedRun 1 current = if 0 < current then 1 else 0 := by
  unfold closedRun
  by_cases h : 0 < current
  · rw [if_pos h, if_pos (by omega)]
  · rw [if_neg h, if_neg (by omega)]

/-! ## What corrections are counted from -/

/-- Whether an observation begins, continues or ends a run of deletions. -/
def Observation.isEdit (o : Observation) : Bool := o.isKind .delete || o.isKind .keydown

/-- For each deletion and each press of a key, whether it is a deletion. -/
def deletionMarks (events : List Observation) : List Bool :=
  (events.filter Observation.isEdit).map (Observation.isKind .delete)

theorem deletionMarks_cons (o : Observation) (events : List Observation) :
    deletionMarks (o :: events) =
      if o.isKind .delete then true :: deletionMarks events
      else if o.isKind .keydown then false :: deletionMarks events
      else deletionMarks events := by
  unfold deletionMarks Observation.isEdit
  by_cases hdelete : o.isKind .delete
  · simp [hdelete]
  · by_cases hpress : o.isKind .keydown <;> simp [hdelete, hpress]

/-- **The loop counts runs.** A run is open before the first event just in case it has items. -/
theorem correctionsFrom_eq_burstCount (current : Nat) (events : List Observation) :
    (if 0 < current then 1 else 0) + correctionsFrom (decide (0 < current)) events =
      burstCount 1 current (deletionMarks events) := by
  induction events generalizing current with
  | nil => exact (closedRun_one current).symm
  | cons o rest ih =>
    rw [deletionMarks_cons, correctionsFrom]
    by_cases hdelete : o.isKind .delete
    · have hopen := ih (current + 1)
      rw [if_pos (Nat.succ_pos current), decide_eq_true (Nat.succ_pos current)] at hopen
      rw [if_pos hdelete, if_pos hdelete, burstCount, ← hopen]
      by_cases h : 0 < current <;> simp [h]
    · rw [if_neg hdelete, if_neg hdelete]
      by_cases hpress : o.isKind .keydown
      · have hclosed := ih 0
        simp only [Nat.lt_irrefl, if_false, decide_false, Nat.zero_add] at hclosed
        rw [if_pos hpress, if_pos hpress, burstCount, closedRun_one, hclosed]
      · rw [if_neg hpress, if_neg hpress, ih]

theorem correctionCount_eq_card (events : List Observation) :
    correctionCount events = (maximalRuns (deletionMarks events)).card := by
  have hcount := correctionsFrom_eq_burstCount 0 events
  rw [burstCount_eq_card le_rfl] at hcount
  simpa [correctionCount, maximalRuns] using hcount

theorem deletionMarks_padded {events events' : List Observation}
    (h : Padded (fun o => o.isEdit = false) events events') :
    deletionMarks events' = deletionMarks events := by
  rw [deletionMarks, deletionMarks, h.filter_eq fun _ ho => ho]

/-! ## Bounds -/

theorem deletionCount_cons (o : Observation) (events : List Observation) :
    deletionCount (o :: events) = deletionCount events + if o.isKind .delete then 1 else 0 := by
  unfold deletionCount ofKind
  by_cases h : o.isKind .delete <;> simp [h]

theorem keystrokes_cons (o : Observation) (events : List Observation) :
    keystrokes (o :: events) = keystrokes events + if o.isKind .keydown then 1 else 0 := by
  unfold keystrokes keyPresses ofKind
  by_cases h : o.isKind .keydown <;> simp [h]

theorem correctionsFrom_le_deletionCount (inside : Bool) (events : List Observation) :
    correctionsFrom inside events ≤ deletionCount events := by
  induction events generalizing inside with
  | nil => exact Nat.zero_le _
  | cons o rest ih =>
    rw [correctionsFrom, deletionCount_cons]
    by_cases hdelete : o.isKind .delete
    · have hrest := ih true
      rw [if_pos hdelete, if_pos hdelete]
      split_ifs <;> omega
    · rw [if_neg hdelete, if_neg hdelete, Nat.add_zero]
      by_cases hpress : o.isKind .keydown
      · rw [if_pos hpress]
        exact ih false
      · rw [if_neg hpress]
        exact ih inside

/-- Every run but the first starts behind a press of a key. -/
theorem correctionsFrom_le_keystrokes (inside : Bool) (events : List Observation) :
    correctionsFrom inside events ≤ keystrokes events + if inside then 0 else 1 := by
  induction events generalizing inside with
  | nil => exact Nat.zero_le _
  | cons o rest ih =>
    rw [correctionsFrom, keystrokes_cons]
    by_cases hdelete : o.isKind .delete
    · have hrest := ih true
      rw [if_pos rfl] at hrest
      rw [if_pos hdelete]
      omega
    · rw [if_neg hdelete]
      by_cases hpress : o.isKind .keydown
      · have hrest := ih false
        rw [if_neg Bool.false_ne_true] at hrest
        rw [if_pos hpress, if_pos hpress]
        omega
      · rw [if_neg hpress, if_neg hpress]
        exact ih inside

theorem correctionCount_eq_zero_iff (events : List Observation) :
    correctionCount events = 0 ↔ deletionCount events = 0 := by
  unfold correctionCount
  induction events with
  | nil => rfl
  | cons o rest ih =>
    rw [correctionsFrom, deletionCount_cons]
    by_cases hdelete : o.isKind .delete
    · simp [hdelete]
    · simp [hdelete, ih]

/-- **Corrections.** They are the maximal runs of deletions, whatever other events there are, and
bounded by the deletions and the presses of keys. -/
theorem correctionCount_runs (events : List Observation) :
    correctionCount events = (maximalRuns (deletionMarks events)).card ∧
      (∀ events', Padded (fun o => o.isEdit = false) events events' →
        correctionCount events' = correctionCount events) ∧
      correctionCount events ≤ deletionCount events ∧
      correctionCount events ≤ keystrokes events + 1 ∧
      (correctionCount events = 0 ↔ deletionCount events = 0) := by
  refine ⟨correctionCount_eq_card events, fun events' h => ?_,
    correctionsFrom_le_deletionCount false events, correctionsFrom_le_keystrokes false events,
    correctionCount_eq_zero_iff events⟩
  rw [correctionCount_eq_card, correctionCount_eq_card, deletionMarks_padded h]

/-- An object without attributes and a released key do not divide a run; a pressed key does. -/
theorem correctionCount_runs_bareObject :
    let bare : Observation := ⟨none, none, none, none, none⟩
    let observe (kind : EventKind) : Observation :=
      (Row.plain { kind, time := .ofInstant 0 }).observe
    let events := [observe .delete, observe .delete, observe .keydown, observe .delete]
    let events' := [observe .delete, bare, observe .keyup, observe .delete, observe .keydown,
      observe .delete]
    correctionCount events = 2 ∧ correctionCount events' = 2 := by
  intro bare observe events events'
  obtain ⟨hruns, hpadded, -⟩ := correctionCount_runs events
  have hcard : (maximalRuns (deletionMarks events)).card = 2 := by decide +kernel
  have h : Padded (fun o => o.isEdit = false) events events' :=
    .keep _ (.insert rfl (.insert rfl (.keep _ (.keep _ (.keep _ .nil)))))
  exact ⟨hruns.trans hcard, (hpadded events' h).trans (hruns.trans hcard)⟩

end TypingTrace
