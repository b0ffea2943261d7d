import TypingTrace.Proofs.Metric.Bursts
import TypingTrace.Proofs.Metric.Likeness
import TypingTrace.Proofs.Number.Magnitude
import TypingTrace.Proofs.Report.Cells

/-!
# The typing metrics never fail

**Theorem (`typingMetrics_total`).** Every typing metric has a number for every sequence of checked
events, in whatever order their times are, if the thresholds are finite numbers and a word has at
least one character.

Checked events always have times, so the times between them are known, and every comparison with a
threshold has an answer. What is divided by is a count that is not zero, a positive time, or the
length of a word. The number of words is rounded up, for which it has to be finite; being a count
over a number that is one or more, it is (`exists_words`).

Sequences and texts are as long as an index can count: fewer than `2 ^ 63` events and characters.
-/

namespace TypingTrace

open Float.Model

/-! ## Words -/

section Words

variable {c : Number} {q : Rat} {n : Nat}

theorem exactOf_of_place {x : Float} (h : (Number.float x).place = some (0, q)) :
    exactOf x = some q := by
  have hplace : (Number.float x).place = Number.placeOfFloat x := rfl
  rw [hplace, Number.placeOfFloat] at h
  cases hexact : exactOf x with
  | some p =>
    rw [hexact] at h
    exact congrArg some (Prod.ext_iff.1 (Option.some.inj h)).2
  | none =>
    rw [hexact] at h
    dsimp only at h
    split_ifs at h <;> simp at h

/-- A number of single precision that is one or more, as it is unpacked. -/
theorem isOneOrMore_of_place {x : Float32} (h : (Number.scalar (.float32 x)).place = some (0, q))
    (hq : 1 ≤ q) : IsOneOrMore x.toModel.unpack := by
  have hplace : (Number.scalar (.float32 x)).place = Number.placeOfSingle x := rfl
  rw [hplace, Number.placeOfSingle] at h
  cases hx : x.toModel.unpack with
  | notANumber =>
    rw [hx] at h
    cases h
  | infinity sign => trivial
  | zero sign =>
    rw [hx] at h
    obtain rfl := (Prod.ext_iff.1 (Option.some.inj h)).2
    exact absurd hq (by norm_num)
  | finite sign m e hm =>
    rw [hx] at h
    obtain rfl := (Prod.ext_iff.1 (Option.some.inj h)).2
    rw [pow2_eq] at hq
    refine one_le_totalExponent (hq.trans (mul_le_mul_of_nonneg_right ?_ (two_zpow_pos e).le))
    cases sign with
    | positive => exact le_rfl
    | negative =>
      show ((-(m : Int) : Int) : Rat) ≤ m
      push_cast
      linarith [(Nat.cast_nonneg m : (0 : Rat) ≤ m)]

/-- A number that is one or more, as the double nearest to it. -/
theorem isOneOrMore_approximate (h : c.place = some (0, q)) (hq : 1 ≤ q)
    (hsingle : ¬ ∃ x, c = .scalar (.float32 x)) : IsOneOrMore c.approximate.toModel.unpack := by
  have hexact {r : Rat} (hr : some ((0 : Int), r) = some (0, q)) :
      IsOneOrMore (nearestOrInfinite r).toModel.unpack := by
    obtain rfl := (Prod.ext_iff.1 (Option.some.inj hr)).2
    exact isOneOrMore_nearestOrInfinite hq
  cases c with
  | int d => exact hexact h
  | fraction p => exact hexact h
  | float x => exact isOneOrMore_of_exactOf (exactOf_of_place h) hq
  | scalar s =>
    cases s with
    | float32 x => exact absurd ⟨x, rfl⟩ hsingle
    | float64 x => exact isOneOrMore_of_exactOf (exactOf_of_place h) hq
    | int64 m => exact hexact h
    | uint8 m => exact hexact h
    | bool b => cases b <;> exact hexact h

/-- A count over one or more is far from too large. -/
theorem abs_div_lt (hq : 1 ≤ q) (hn : n < 2 ^ 63) : |(n : Rat) / q| < doubleLimit := by
  have hnonneg : (0 : Rat) ≤ n := Nat.cast_nonneg n
  rw [abs_of_nonneg (div_nonneg hnonneg (zero_le_one.trans hq))]
  calc (n : Rat) / q ≤ n := div_le_self hnonneg hq
    _ ≤ ((2 ^ 63 : Nat) : Rat) := Nat.cast_le.2 hn.le
    _ < doubleLimit := by decide +kernel

theorem isZero_of_place (h : c.place = some (0, q)) (hq : 1 ≤ q) : c.isZero = false := by
  rw [Number.isZero, h]
  have hne : q ≠ 0 := (zero_lt_one.trans_le hq).ne'
  simp [hne]

/-- A number that is no exact rational is not too large. -/
theorem Number.FitsDouble.of_inexact (h : c.rational? = none) : c.FitsDouble := by
  intro p hp
  rw [h] at hp
  cases hp

/-- **The number of words** in so many characters can be used for a rate and rounded up. -/
theorem exists_words (h : c.place = some (0, q)) (hq : 1 ≤ q) (hn : n < 2 ^ 63) :
    ∃ words, Number.countOver n c = .ok words ∧ words.FitsDouble ∧
      ∃ m, words.roundHalfUp = .ok m := by
  have hcount : IsUnder 64 (nearestOrInfinite n).toModel.unpack := isUnder_nearestOrInfinite hn
  by_cases hsingle : ∃ x, c = .scalar (.float32 x)
  · obtain ⟨y, rfl⟩ := hsingle
    have hy := isOneOrMore_of_place h hq
    have hnumerator := isUnder_singleOf (covers_binary32 (by decide) (by decide)) hcount
    have hwords := isUnder_divSingle (covers_binary32 (by decide) (by decide)) hnumerator hy
    have hdouble := isUnder_doubleOf (covers_binary64 (by decide) (by decide)) hwords
    exact ⟨_, rfl, .of_inexact rfl, Report.exists_roundHalfUp rfl (isSome_exactOf hdouble)⟩
  have hzero : ¬ c.isZero = true := by
    rw [isZero_of_place h hq]
    exact Bool.false_ne_true
  have hy := isOneOrMore_approximate h hq hsingle
  have hquotient : (exactOf (nearestOrInfinite n / c.approximate)).isSome :=
    isSome_exactOf (isUnder_div (covers_binary64 (by decide) (by decide)) hcount hy)
  -- Integers and fractions divide the count itself and not the double nearest to it.
  cases c with
  | int d =>
    obtain rfl := (Prod.ext_iff.1 (Option.some.inj h)).2
    refine ⟨_, if_neg hzero, .of_inexact rfl, Report.exists_roundHalfUp rfl ?_⟩
    rw [exactOf_nearestOrInfinite (abs_div_lt hq hn)]
    rfl
  | fraction p =>
    obtain rfl := (Prod.ext_iff.1 (Option.some.inj h)).2
    obtain ⟨x, hx⟩ := exists_nearest (abs_div_lt hq hn)
    refine ⟨_, if_neg hzero, (Number.fitsDouble_iff rfl).2 (abs_div_lt hq hn), ?_⟩
    refine Report.exists_roundHalfUp (x := x) ?_ (by rw [exactOf_nearest hx]; rfl)
    rw [Number.toFloat, hx]
  | float y => exact ⟨_, if_neg hzero, .of_inexact rfl, Report.exists_roundHalfUp rfl hquotient⟩
  | scalar s =>
    cases s with
    | float32 y => exact absurd ⟨y, rfl⟩ hsingle
    | float64 | int64 | uint8 | bool =>
      exact ⟨_, rfl, .of_inexact rfl, Report.exists_roundHalfUp rfl hquotient⟩

end Words

/-! ## Thresholds -/

/-- Thresholds that are finite numbers, with words of at least one character. -/
structure Thresholds.AreFinite (t : Thresholds) : Prop where
  pause : ∃ a, t.pause.number? = some a ∧ a.isFinite
  burst : ∃ a, t.burst.number? = some a ∧ a.isFinite
  burstLength : ∃ a, t.burstLength.number? = some a ∧ a.isFinite
  charsPerWord : ∃ a q, t.charsPerWord.number? = some a ∧ a.place = some (0, q) ∧ 1 ≤ q

variable {t : Thresholds}

theorem Number.exists_toInt {a : Number} (h : a.isFinite) : ∃ n, a.toInt = .ok n := by
  have hplace : ∃ q, a.place = some (0, q) := by
    unfold isFinite at h
    split at h
    · exact ⟨_, ‹_›⟩
    · cases h
  obtain ⟨q, hq⟩ := hplace
  cases a with
  | int n => exact ⟨n, rfl⟩
  | fraction p => exact ⟨cut p, rfl⟩
  | float | scalar =>
    rw [toInt, hq]
    · exact ⟨_, rfl⟩
    all_goals exact nofun

theorem Thresholds.AreFinite.exists_burstLength (h : t.AreFinite) :
    ∃ least, t.burstLength.toInt = .ok least := by
  obtain ⟨a, ha, hfinite⟩ := h.burstLength
  obtain ⟨least, hleast⟩ := Number.exists_toInt hfinite
  exact ⟨least, by rw [Value.toInt, ha]; exact hleast⟩

theorem Thresholds.AreFinite.exists_words (h : t.AreFinite) {n : Nat} (hn : n < 2 ^ 63) :
    ∃ words, Value.countOver n t.charsPerWord = .ok words ∧ words.FitsDouble ∧
      ∃ m, words.roundHalfUp = .ok m := by
  obtain ⟨a, q, ha, hplace, hq⟩ := h.charsPerWord
  rw [Value.countOver, ha]
  exact TypingTrace.exists_words hplace hq hn

/-! ## Calculators -/

/-- Whether a quantity has a value for some checked events. -/
def IsTotalOn {α : Type} (rows : List Row) (f : List Observation → Except Fault α) : Prop :=
  ∃ a, f (rows.map Row.observe) = .ok a

variable {rows : List Row}

/-- What is computed from a quantity that has a value. -/
theorem IsTotalOn.map {α β : Type} {f : List Observation → Except Fault α} (hf : IsTotalOn rows f)
    (g : α → β) : IsTotalOn rows fun events => return g (← f events) := by
  obtain ⟨a, ha⟩ := hf
  refine ⟨g a, ?_⟩
  show (do return g (← f (rows.map Row.observe))) = _
  rw [ha]
  rfl

theorem isTotalOn_keyRate {count : Nat → Except Fault Number}
    (hcount : ∃ n, count (rows.filter Row.typesCharacter).length = .ok n ∧ n.FitsDouble) :
    IsTotalOn rows fun events => keyRate events count := by
  obtain ⟨n, hn, hfits⟩ := hcount
  obtain ⟨rate, hrate⟩ := exists_perMinute hfits
    (milliseconds (extent (instants (rows.filter Row.typesCharacter))))
  unfold IsTotalOn keyRate
  simp only [characterKeys_observe, List.length_map, hn, spanMilliseconds_observe]
  split_ifs
  · exact ⟨_, rfl⟩
  · exact ⟨rate, hrate⟩

theorem isTotalOn_detectBursts (h : t.AreFinite) (hrows : rows.length < 2 ^ 63) :
    IsTotalOn rows (detectBursts t) := by
  obtain ⟨threshold, hburst, -⟩ := h.burst
  obtain ⟨least, hleast⟩ := h.exists_burstLength
  by_cases hfew : ((characterKeys (rows.map Row.observe)).length : Int) < least
  · exact ⟨_, detectBursts_few hleast hfew⟩
  · have hintervals := intervals_observe (rows.filter Row.typesCharacter)
    rw [← characterKeys_observe] at hintervals
    have hlength : (((differences (instants (rows.filter Row.typesCharacter))).map
        milliseconds).filter (isBelow threshold)).length < 2 ^ 63 := by
      refine (List.length_filter_le _ _).trans_lt (lt_of_le_of_lt ?_ hrows)
      rw [List.length_map, length_differences, instants, List.length_map]
      exact (Nat.sub_le _ _).trans (List.length_filter_le _ _)
    obtain ⟨words, hwords, hfits, -⟩ := h.exists_words hlength
    obtain ⟨speed, hspeed⟩ := exists_perMinute hfits ((((differences (instants
      (rows.filter Row.typesCharacter))).map milliseconds).filter (isBelow threshold)).foldl
      (· + ·) 0.0)
    rw [IsTotalOn, detectBursts_many hburst hleast (not_lt.1 hfew) hintervals hwords, hspeed]
    exact ⟨_, rfl⟩

theorem isTotalOn_averageInterval : IsTotalOn rows averageInterval := by
  unfold IsTotalOn averageInterval
  simp only [keyPresses_observe, intervals_observe]
  split_ifs
  · exact ⟨_, rfl⟩
  · exact ⟨_, rfl⟩

/-- Every interval is compared with the threshold. -/
theorem isTotalOn_detectPauses (h : t.AreFinite) : IsTotalOn rows (detectPauses t) := by
  obtain ⟨threshold, hpause, -⟩ := h.pause
  have hlong : ∀ gap, isPause t gap = .ok (threshold.lt (.float (milliseconds gap))) := fun gap =>
    Value.compare_numbers rfl hpause .gt
  rw [IsTotalOn, detectPauses, keysAndInputs_observe, gaps_observe]
  show ∃ a, (do let pauses ← (differences _).filterM (isPause t); _) = Except.ok a
  rw [filterM_eq_ok hlong]
  exact ⟨_, rfl⟩

theorem isTotalOn_activeGaps (h : t.AreFinite) : IsTotalOn rows (activeGaps t) := by
  obtain ⟨threshold, hpause, -⟩ := h.pause
  have hactive : ∀ gap, isActive t gap = .ok ((Number.float (milliseconds gap)).le threshold) :=
    fun gap => Value.compare_numbers rfl hpause .le
  rw [IsTotalOn, activeGaps, keyPresses_observe, gaps_observe]
  exact ⟨_, filterM_eq_ok hactive _⟩

theorem isTotalOn_typingConsistency (h : t.AreFinite) : IsTotalOn rows (typingConsistency t) := by
  obtain ⟨active, hactive⟩ : IsTotalOn rows (activeGaps t) := isTotalOn_activeGaps h
  rw [IsTotalOn, typingConsistency, hactive]
  by_cases hkeys : (keyPresses (rows.map Row.observe)).length < 3
  · rw [if_pos hkeys]
    exact ⟨_, rfl⟩
  · rw [if_neg hkeys]
    show ∃ a, (if active.length < 2 then _ else _) = Except.ok a
    by_cases hfew : active.length < 2
    · rw [if_pos hfew]
      exact ⟨_, rfl⟩
    · rw [if_neg hfew]
      exact ⟨_, rfl⟩

theorem isTotalOn_sessionDuration : IsTotalOn rows sessionDuration := by
  rw [IsTotalOn, sessionDuration, spanMilliseconds_observe]
  exact ⟨_, rfl⟩

theorem isTotalOn_wordCount (h : t.AreFinite) (htext : lastTextOf rows < 2 ^ 63) :
    IsTotalOn rows (wordCount t) := by
  obtain ⟨words, hwords, -, n, hn⟩ := h.exists_words htext
  rw [IsTotalOn, wordCount, lastTextLength_observe, hwords]
  show ∃ a, (do return Number.int (← words.roundHalfUp)) = Except.ok a
  rw [hn]
  exact ⟨_, rfl⟩

theorem isTotalOn_textGrowthRate : IsTotalOn rows textGrowthRate := by
  have hduration : sessionDuration (rows.map Row.observe) =
      .ok (.float (milliseconds (extent (instants rows)))) := by
    rw [sessionDuration, spanMilliseconds_observe]
    rfl
  rw [IsTotalOn, textGrowthRate, hduration]
  exact exists_perMinute (.of_inexact rfl) _

theorem isTotalOn_charactersPerMinute : IsTotalOn rows charactersPerMinute :=
  isTotalOn_keyRate ⟨_, rfl, .of_inexact rfl⟩

theorem isTotalOn_wordsPerMinute (h : t.AreFinite) (hrows : rows.length < 2 ^ 63) :
    IsTotalOn rows (wordsPerMinute t) := by
  obtain ⟨words, hwords, hfits, -⟩ :=
    h.exists_words ((List.length_filter_le Row.typesCharacter rows).trans_lt hrows)
  exact isTotalOn_keyRate ⟨words, hwords, hfits⟩

/-! ## The table -/

/-- A calculator that has a number for some checked events. -/
def Calculator.IsTotalOn (rows : List Row) (c : Calculator) : Prop :=
  ∃ n, c.answer (rows.map .event) = .ok (.ofNumber n)

theorem Calculator.IsTotalOn.of_total {f : List Observation → Except Fault Number}
    (h : TypingTrace.IsTotalOn rows f) : (Calculator.ofNumber f).IsTotalOn rows := by
  obtain ⟨n, hn⟩ := h
  refine ⟨n, ?_⟩
  show (f ((rows.map Entry.event).map Entry.observe)).map Value.ofNumber = _
  rw [List.map_map]
  show (f (rows.map Row.observe)).map Value.ofNumber = _
  rw [hn]
  rfl

/-- What is computed without any failure has a number for all events. -/
theorem Calculator.IsTotalOn.of_value (f : List Observation → Number) :
    (Calculator.ofNumber fun events => .ok (f events)).IsTotalOn rows :=
  .of_total ⟨_, rfl⟩

theorem Calculator.IsTotalOn.of_count (f : List Observation → Nat) :
    (counting f).IsTotalOn rows :=
  .of_value fun events => .int (f events)

/-- **No typing metric fails** on checked events. -/
theorem typingMetrics_total (h : t.AreFinite) (hrows : rows.length < 2 ^ 63)
    (htext : lastTextOf rows < 2 ^ 63) :
    ∀ d ∈ typingMetrics t, ∃ n, d.calculator.answer (rows.map .event) = .ok (.ofNumber n) := by
  have hbursts := isTotalOn_detectBursts h hrows
  have hpauses : IsTotalOn rows (detectPauses t) := isTotalOn_detectPauses h
  have hactive : IsTotalOn rows (activeGaps t) := isTotalOn_activeGaps h
  have hall : ∀ d ∈ typingMetrics t, d.calculator.IsTotalOn rows := by
    simp only [typingMetrics, List.forall_mem_cons, List.not_mem_nil, false_implies, implies_true,
      and_true]
    exact ⟨
      -- speed
      .of_total (isTotalOn_wordsPerMinute h hrows),
      .of_total isTotalOn_charactersPerMinute,
      .of_total (hbursts.map Bursts.speed),
      -- timing
      .of_total isTotalOn_averageInterval,
      .of_total (hpauses.map fun p => Number.int p.count),
      .of_total (hpauses.map Pauses.longest),
      .of_total (hactive.map totalMilliseconds),
      -- behaviour and quality
      .of_total (hbursts.map fun b => Number.int b.count),
      .of_count focusChanges,
      .of_total (isTotalOn_typingConsistency h),
      .of_count deletionCount,
      .of_value deletionRate,
      .of_count correctionCount,
      .of_count fun events => (clipboard events).pastes,
      .of_count fun events => (clipboard events).copies,
      .of_count fun events => (clipboard events).cuts,
      .of_value fun events => (clipboard events).pasteRatio,
      -- session
      .of_total isTotalOn_sessionDuration,
      .of_count lastTextLength,
      .of_total (isTotalOn_wordCount h htext),
      .of_total isTotalOn_textGrowthRate,
      -- what was done with the text
      .of_count keystrokes,
      .of_count formattingActions,
      .of_count findReplaceActions⟩
  exact hall

/-- Nothing typed and times going back, or two keys at one time: with a threshold below zero, no
length for a burst, and one and a half characters to a word. -/
theorem typingMetrics_total_degenerate :
    let t : Thresholds := ⟨.float 2000.5, .int (-1), .int 0, .fraction (3 / 2)⟩
    let pasted : Row := .plain
      { kind := .paste, time := .ofInstant 0, textAfter := .int 5,
        metadata := [("pastedText", .list [.null])] }
    let key (micros : Int) : Row :=
      .plain { kind := .keydown, time := .ofInstant micros, keyChar := .object [("a", .null)] }
    (∀ d ∈ typingMetrics t, ∃ n,
        d.calculator.answer ([pasted, key (-9), pasted].map .event) = .ok (.ofNumber n)) ∧
      ∀ d ∈ typingMetrics t, ∃ n,
        d.calculator.answer ([key 0, key 0].map .event) = .ok (.ofNumber n) := by
  intro t pasted key
  have hfinite : t.AreFinite :=
    { pause := ⟨_, rfl, by decide +kernel⟩
      burst := ⟨_, rfl, rfl⟩
      burstLength := ⟨_, rfl, rfl⟩
      charsPerWord := ⟨_, _, rfl, rfl, by norm_num⟩ }
  exact ⟨typingMetrics_total hfinite (by decide) (by decide),
    typingMetrics_total hfinite (by decide) (by decide)⟩

end TypingTrace
