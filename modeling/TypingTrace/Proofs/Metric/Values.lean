import TypingTrace.Proofs.Metric.Rates
import TypingTrace.Proofs.Report.Cells

/-!
# The values of the typing metrics

**Theorem (`presents_typingMetrics`).** Whatever the thresholds are, a report can show every value
that a typing metric has, by the unit of that metric.

A report shows integers and doubles, but no exact fractions, and a threshold may be one. None of
them comes through (`Number.IsRounded`): a rate is a quotient of which one side is a double, all
that is rounded up is an integer, and times are measured in doubles. Deletions per character are
shown in per cent, where an integer that is not too large might become so; the only one that occurs
is zero.
-/

namespace TypingTrace

open Time Log

/-! ## Numbers that are no fractions -/

/-- A number that is not an exact fraction. -/
def Number.IsRounded (a : Number) : Prop := ∀ q, a ≠ .fraction q

theorem Number.isRounded_int (n : Int) : (Number.int n).IsRounded := nofun

theorem Number.isRounded_float (x : Float) : (Number.float x).IsRounded := nofun

theorem Value.Holds.eq_int {m : Int} {n : Number} (h : (Value.int m).Holds n) : n = .int m := by
  cases h
  rfl

theorem Value.Holds.eq_float {x : Float} {n : Number} (h : (Value.float x).Holds n) :
    n = .float x ∧ (exactOf x).isSome := by
  cases h with
  | float hx => exact ⟨rfl, hx⟩

/-- A number that is no fraction holds an integer or a finite double. -/
theorem Number.IsRounded.of_holds {a n : Number} (ha : a.IsRounded)
    (h : (Value.ofNumber a).Holds n) :
    (∃ m, n = .int m) ∨ ∃ x, n = .float x ∧ (exactOf x).isSome := by
  rw [← Value.holds_unwrap] at h
  rcases a with m | x | q | (x | x | m | m | b)
  · exact .inl ⟨m, h.eq_int⟩
  · exact .inr ⟨x, h.eq_float⟩
  · exact absurd rfl (ha q)
  · exact .inr ⟨x, h.eq_float⟩
  · exact .inr ⟨doubleOf x, h.eq_float⟩
  · exact .inl ⟨m, h.eq_int⟩
  · exact .inl ⟨m, h.eq_int⟩
  · cases h

/-- A number that is no fraction can be shown, if it passes the check of values. -/
theorem Number.IsRounded.isShowable {a n : Number} (ha : a.IsRounded) {unit : Value}
    (hunit : unit.asText ≠ some "ratio") (h : finiteNumber (.ofNumber a) = .ok n) :
    (Value.ofNumber n).IsShowable unit := by
  obtain ⟨hholds, hfits⟩ := finiteNumber_eq_ok_iff.1 h
  rcases ha.of_holds hholds with ⟨m, rfl⟩ | ⟨x, rfl, hx⟩
  · exact .int (hfits m rfl) fun hratio => absurd hratio hunit
  · exact .float hx

/-! ## Rates -/

theorem Number.dividePlain_float (a : Number) {y : Float} {n : Number}
    (h : a.dividePlain (.float y) = .ok n) : n.IsRounded := by
  have hplain : a.dividePlain (.float y) = (do
      let x ← a.toFloat
      let y' ← (Number.float y).toFloat
      if (Number.float y).isZero then throw (zeroDivisor a (.float y))
      return .float (x / y')) := by
    cases a <;> rfl
  rw [hplain] at h
  obtain ⟨x, -, h⟩ := exists_of_bind_ok h
  obtain ⟨y', -, h⟩ := exists_of_bind_ok h
  split_ifs at h
  · cases h
  · exact Except.ok.inj h ▸ isRounded_float _

/-- A quotient of any number and a double. -/
theorem Number.divide_float (a : Number) {y : Float} {n : Number}
    (h : a.divide (.float y) = .ok n) : n.IsRounded := by
  unfold divide at h
  split at h
  · obtain ⟨x, -, h⟩ := exists_of_bind_ok h
    obtain ⟨y', -, h⟩ := exists_of_bind_ok h
    exact Except.ok.inj h ▸ nofun
  · obtain ⟨x, -, h⟩ := exists_of_bind_ok h
    obtain ⟨y', -, h⟩ := exists_of_bind_ok h
    exact Except.ok.inj h ▸ nofun
  · exact a.plain.dividePlain_float h

/-- A rate over a time in doubles. -/
theorem isRounded_perMinute {count n : Number} {duration : Float}
    (h : perMinute count (.float duration) = .ok n) : n.IsRounded := by
  rw [perMinute_float] at h
  split_ifs at h
  · exact count.divide_float h
  · exact Except.ok.inj h ▸ Number.isRounded_float _

variable {t : Thresholds} {events : List Observation} {n : Number}

theorem isRounded_keyRate {count : Nat → Except Fault Number}
    (h : keyRate events count = .ok n) : n.IsRounded := by
  unfold keyRate at h
  dsimp only at h
  split_ifs at h
  · exact Except.ok.inj h ▸ Number.isRounded_int 0
  · obtain ⟨total, -, h⟩ := exists_of_bind_ok h
    obtain ⟨duration, -, h⟩ := exists_of_bind_ok h
    exact isRounded_perMinute h

theorem isRounded_burstSpeed (h : burstSpeed t events = .ok n) : n.IsRounded := by
  obtain ⟨bursts, hbursts, h⟩ := exists_of_bind_ok h
  obtain rfl := Except.ok.inj h
  obtain ⟨least, -, hbursts⟩ := exists_of_bind_ok hbursts
  split_ifs at hbursts
  · exact Except.ok.inj hbursts ▸ Number.isRounded_int 0
  · obtain ⟨gaps, -, hbursts⟩ := exists_of_bind_ok hbursts
    obtain ⟨short, -, hbursts⟩ := exists_of_bind_ok hbursts
    obtain ⟨words, -, hbursts⟩ := exists_of_bind_ok hbursts
    obtain ⟨speed, hspeed, hbursts⟩ := exists_of_bind_ok hbursts
    exact Except.ok.inj hbursts ▸ isRounded_perMinute hspeed

theorem isRounded_textGrowthRate (h : textGrowthRate events = .ok n) : n.IsRounded := by
  obtain ⟨duration, hduration, h⟩ := exists_of_bind_ok h
  obtain ⟨x, -, hduration⟩ := exists_of_bind_ok hduration
  obtain rfl := Except.ok.inj hduration
  exact isRounded_perMinute h

/-! ## Times -/

theorem isRounded_averageInterval (h : averageInterval events = .ok n) : n.IsRounded := by
  unfold averageInterval at h
  dsimp only at h
  split_ifs at h
  · exact Except.ok.inj h ▸ Number.isRounded_int 0
  · obtain ⟨gaps, -, h⟩ := exists_of_bind_ok h
    exact Except.ok.inj h ▸ Number.isRounded_float _

theorem isRounded_longestPause (h : longestPause t events = .ok n) : n.IsRounded := by
  obtain ⟨pauses, hpauses, h⟩ := exists_of_bind_ok h
  obtain ⟨gaps, -, hpauses⟩ := exists_of_bind_ok hpauses
  obtain ⟨long, -, hpauses⟩ := exists_of_bind_ok hpauses
  obtain rfl := Except.ok.inj hpauses
  obtain rfl := Except.ok.inj h
  cases long with
  | nil => exact Number.isRounded_int 0
  | cons gap rest => exact Number.isRounded_float _

theorem isRounded_activeTypingTime (h : activeTypingTime t events = .ok n) : n.IsRounded := by
  obtain ⟨active, -, h⟩ := exists_of_bind_ok h
  obtain rfl := Except.ok.inj h
  cases active with
  | nil => exact Number.isRounded_int 0
  | cons gap rest => exact Number.isRounded_float _

theorem isRounded_typingConsistency (h : typingConsistency t events = .ok n) : n.IsRounded := by
  unfold typingConsistency at h
  split_ifs at h
  · exact Except.ok.inj h ▸ Number.isRounded_int 0
  · obtain ⟨active, -, h⟩ := exists_of_bind_ok h
    split_ifs at h
    · exact Except.ok.inj h ▸ Number.isRounded_int 0
    · exact Except.ok.inj h ▸ Number.isRounded_float _

theorem isRounded_sessionDuration (h : sessionDuration events = .ok n) : n.IsRounded := by
  obtain ⟨x, -, h⟩ := exists_of_bind_ok h
  exact Except.ok.inj h ▸ Number.isRounded_float _

/-! ## Counts -/

theorem isRounded_pauseCount (h : pauseCount t events = .ok n) : n.IsRounded := by
  obtain ⟨pauses, -, h⟩ := exists_of_bind_ok h
  exact Except.ok.inj h ▸ Number.isRounded_int _

theorem isRounded_burstTotal (h : burstTotal t events = .ok n) : n.IsRounded := by
  obtain ⟨bursts, -, h⟩ := exists_of_bind_ok h
  exact Except.ok.inj h ▸ Number.isRounded_int _

theorem isRounded_wordCount (h : wordCount t events = .ok n) : n.IsRounded := by
  obtain ⟨words, -, h⟩ := exists_of_bind_ok h
  obtain ⟨rounded, -, h⟩ := exists_of_bind_ok h
  exact Except.ok.inj h ▸ Number.isRounded_int _

/-! ## The table -/

/-- A metric of which a report can show every value. -/
def Definition.Presents (d : Definition) : Prop :=
  ∀ events n, d.outcome events = .ok n → (Value.ofNumber n).IsShowable d.unit

theorem Calculator.exists_of_ofNumber {f : List Observation → Except Fault Number}
    {entries : List Entry} (h : ((ofNumber f).answer entries).bind finiteNumber = .ok n) :
    ∃ a, f (entries.map Entry.observe) = .ok a ∧ finiteNumber (.ofNumber a) = .ok n := by
  obtain ⟨v, hv, h⟩ := exists_of_bind_ok h
  change (f (entries.map Entry.observe)).map Value.ofNumber = .ok v at hv
  cases ha : f (entries.map Entry.observe) with
  | error fault =>
    rw [ha] at hv
    cases hv
  | ok a =>
    rw [ha] at hv
    exact ⟨a, rfl, Except.ok.inj hv ▸ h⟩

theorem Definition.Presents.of_rounded {f : List Observation → Except Fault Number}
    {d : Definition} {unit : String} (hcalculator : d.calculator = .ofNumber f)
    (hunit : d.unit = .text unit) (hshare : unit ≠ "ratio")
    (hf : ∀ {events n}, f events = .ok n → n.IsRounded) :
    d.Presents := by
  intro entries n h
  rw [Definition.outcome, hcalculator] at h
  obtain ⟨a, ha, hn⟩ := Calculator.exists_of_ofNumber h
  refine (hf ha).isShowable ?_ hn
  rw [hunit]
  exact fun h => hshare (Option.some.inj h)

/-- A metric that counts. -/
theorem Definition.Presents.of_count {f : List Observation → Nat} {d : Definition} {unit : String}
    (hcalculator : d.calculator = counting f) (hunit : d.unit = .text unit)
    (hshare : unit ≠ "ratio") : d.Presents :=
  .of_rounded hcalculator hunit hshare fun h => Except.ok.inj h ▸ Number.isRounded_int _

/-- A share that is either zero or a double. -/
theorem Definition.Presents.of_share {f : List Observation → Number} {d : Definition}
    (hcalculator : d.calculator = .ofNumber fun events => .ok (f events))
    (hf : ∀ events, f events = 0 ∨ ∃ x, f events = .float x) : d.Presents := by
  intro entries n h
  rw [Definition.outcome, hcalculator] at h
  obtain ⟨a, ha, hn⟩ := Calculator.exists_of_ofNumber h
  obtain rfl := Except.ok.inj ha
  have hholds := (finiteNumber_eq_ok_iff.1 hn).1
  rcases hf (entries.map Entry.observe) with hzero | ⟨x, hx⟩
  · rw [hzero] at hholds
    rw [hholds.eq_int]
    exact .int (by decide +kernel) fun _ => by decide +kernel
  · rw [hx] at hholds
    obtain ⟨rfl, hfinite⟩ := hholds.eq_float
    exact .float hfinite

theorem deletionRate_cases (events : List Observation) :
    deletionRate events = 0 ∨ ∃ x, deletionRate events = .float x := by
  unfold deletionRate
  dsimp only
  split_ifs
  · exact .inl rfl
  · exact .inr ⟨_, rfl⟩

theorem pasteRatio_cases (events : List Observation) :
    (clipboard events).pasteRatio = 0 ∨ ∃ x, (clipboard events).pasteRatio = .float x := by
  unfold clipboard percentage
  dsimp only
  split_ifs
  · exact .inl rfl
  · exact .inr ⟨_, rfl⟩

theorem emptyValue_typingMetrics (t : Thresholds) :
    ∀ d ∈ typingMetrics t, d.emptyValue = .int 0 := by
  simp only [typingMetrics, List.forall_mem_cons, List.not_mem_nil, false_implies, implies_true,
    and_true]
  and_intros
  all_goals rfl

theorem exists_name_typingMetrics (t : Thresholds) :
    ∀ d ∈ typingMetrics t, ∃ name, d.id = .text name := by
  simp only [typingMetrics, List.forall_mem_cons, List.not_mem_nil, false_implies, implies_true,
    and_true]
  and_intros
  all_goals exact ⟨_, rfl⟩

/-- **Every value of a typing metric can be shown.** -/
theorem presents_typingMetrics (t : Thresholds) : ∀ d ∈ typingMetrics t, d.Presents := by
  have counted {d : Definition} (f : List Observation → Nat) (h : d.calculator = counting f)
      (hunit : d.unit = .text "") : d.Presents := .of_count h hunit (by decide)
  simp only [typingMetrics, List.forall_mem_cons, List.not_mem_nil, false_implies, implies_true,
    and_true]
  exact ⟨
    -- speed
    .of_rounded rfl rfl (by decide) isRounded_keyRate,
    .of_rounded rfl rfl (by decide) isRounded_keyRate,
    .of_rounded rfl rfl (by decide) isRounded_burstSpeed,
    -- timing
    .of_rounded rfl rfl (by decide) isRounded_averageInterval,
    .of_rounded rfl rfl (by decide) isRounded_pauseCount,
    .of_rounded rfl rfl (by decide) isRounded_longestPause,
    .of_rounded rfl rfl (by decide) isRounded_activeTypingTime,
    -- behaviour and quality
    .of_rounded rfl rfl (by decide) isRounded_burstTotal,
    counted focusChanges rfl rfl,
    .of_rounded rfl rfl (by decide) isRounded_typingConsistency,
    counted deletionCount rfl rfl,
    .of_share rfl deletionRate_cases,
    counted correctionCount rfl rfl,
    counted (fun events => (clipboard events).pastes) rfl rfl,
    counted (fun events => (clipboard events).copies) rfl rfl,
    counted (fun events => (clipboard events).cuts) rfl rfl,
    .of_share rfl pasteRatio_cases,
    -- session
    .of_rounded rfl rfl (by decide) isRounded_sessionDuration,
    counted lastTextLength rfl rfl,
    .of_rounded rfl rfl (by decide) isRounded_wordCount,
    .of_rounded rfl rfl (by decide) isRounded_textGrowthRate,
    -- what was done with the text
    counted keystrokes rfl rfl,
    counted formattingActions rfl rfl,
    counted findReplaceActions rfl rfl⟩

end TypingTrace
