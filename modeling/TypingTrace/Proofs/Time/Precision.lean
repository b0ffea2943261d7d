import TypingTrace.Proofs.Time.Milliseconds

/-!
# How exact times in milliseconds are

**Theorem (`abs_microsOf_sub_le`).** The microseconds that a number of milliseconds stands for are
off by half the spacing of the doubles at its seconds, and a bit more than half a microsecond.

**Theorem (`microsOf_intCast`).** For integers of less than `2 ^ 33` seconds that is less than a
microsecond, so they are exact.

**Theorem (`Stamp.instant_le_iff`).** In the whole calendar it is far less than a millisecond. So
integers that are read as times are in the order of these, and no two of them become the same time.

The seconds are rounded in double precision once, and what is cut off to whole seconds once more.
The sign makes no difference, nor does a rest that is rounded up to a whole second.
-/

namespace TypingTrace

/-- What is cut off is less than one. -/
theorem abs_sub_cut_lt (q : Rat) : |q - cut q| < 1 := by
  rw [abs_lt]
  rcases le_total 0 q with h | h
  · obtain ⟨-, hle, hlt⟩ := cut_spec h
    constructor <;> linarith
  · obtain ⟨-, hle, hlt⟩ := cut_spec (neg_nonneg.2 h)
    rw [cut_neg, Int.cast_neg] at hle hlt
    constructor <;> linarith

namespace Time

/-! ## Errors -/

/-- The error of a number of seconds, which is that of rounding its rest twice. -/
theorem abs_microsOfSeconds_sub_le (s : Rat) :
    |microsOfSeconds s - s * 1000000| ≤ 1 / 2 + 1 / 2 ^ 34 := by
  obtain ⟨rest, hrest⟩ : ∃ rest : Rat, rest = (s - cut s) * 1000000 := ⟨_, rfl⟩
  have hlt : |rest| < 2 ^ (20 : Int) := by
    rw [hrest, abs_mul, abs_of_pos (by norm_num : (0 : Rat) < 1000000)]
    linarith [abs_sub_cut_lt s]
  have hround : |roundBinary rest - rest| ≤ 2 ^ (20 - 53 : Int) / 2 :=
    BinaryFormat.abs_round_sub_le_of_lt (by decide) (by decide) hlt
  have hsplit : (microsOfSeconds s : Rat) - s * 1000000 =
      (roundEven (roundBinary rest) - roundBinary rest) + (roundBinary rest - rest) := by
    unfold microsOfSeconds second
    push_cast
    rw [← hrest]
    linarith
  rw [hsplit]
  calc _ ≤ |roundEven (roundBinary rest) - roundBinary rest| + |roundBinary rest - rest| :=
        abs_add_le _ _
    _ ≤ 1 / 2 + 2 ^ (20 - 53 : Int) / 2 := add_le_add (abs_roundEven_sub_le _) hround
    _ = 1 / 2 + 1 / 2 ^ 34 := by norm_num

/-- **The error of a number of milliseconds**, by a bound on its seconds. -/
theorem abs_microsOf_sub_le {q : Rat} {k : Int} (hk : -1021 ≤ k) (h : |q| < 1000 * 2 ^ k) :
    |microsOf q - 1000 * q| ≤ 2 ^ (k - 53) * 500000 + (1 / 2 + 1 / 2 ^ 34) := by
  have hlt : |q / 1000| < 2 ^ k := by
    rw [abs_div, abs_of_pos (by norm_num : (0 : Rat) < 1000), div_lt_iff₀ (by norm_num)]
    linarith
  have hleast : binary64.lowest ≤ k - binary64.bits := by
    show (-1074 : Int) ≤ k - 53
    omega
  have hround : |roundBinary (q / 1000) - q / 1000| ≤ 2 ^ (k - 53) / 2 :=
    BinaryFormat.abs_round_sub_le_of_lt (by decide) hleast hlt
  have hsplit : (microsOf q : Rat) - 1000 * q =
      (roundBinary (q / 1000) - q / 1000) * 1000000 +
        (microsOfSeconds (roundBinary (q / 1000)) - roundBinary (q / 1000) * 1000000) := by
    unfold microsOf
    ring
  rw [hsplit]
  refine (abs_add_le _ _).trans (add_le_add ?_ (abs_microsOfSeconds_sub_le _))
  rw [abs_mul, abs_of_pos (by norm_num : (0 : Rat) < 1000000)]
  linarith

/-! ## Integers -/

variable {a b n : Int}

/-- **Exact integers.** An integer that is off by less than one is not off. -/
theorem microsOf_intCast (h : |n| < 1000 * 2 ^ 33) : microsOf n = 1000 * n := by
  have hn : |(n : Rat)| < 1000 * 2 ^ (33 : Int) := by exact_mod_cast h
  have herror : |((microsOf n - 1000 * n : Int) : Rat)| < 1 := by
    push_cast
    refine (abs_microsOf_sub_le (by decide) hn).trans_lt ?_
    norm_num
  have hzero : |microsOf n - 1000 * n| < 1 := by exact_mod_cast herror
  exact sub_eq_zero.1 (Int.abs_lt_one_iff.1 hzero)

/-- The bound is the best one: behind it the spacing of the seconds is too large. -/
example : microsOf ((1000 * 2 ^ 33 + 1 : Int) : Rat) = 1000 * (1000 * 2 ^ 33 + 1) - 1 := by
  decide +kernel

/-- Integers of less than `2 ^ 38` seconds are off by less than half a millisecond. -/
theorem microsOf_lt_of_lt (ha : |a| < 1000 * 2 ^ 38) (hb : |b| < 1000 * 2 ^ 38) (h : a < b) :
    microsOf a < microsOf b := by
  have herror : ∀ {n : Int}, |n| < 1000 * 2 ^ 38 → |microsOf n - 1000 * (n : Rat)| < 500 := by
    intro n hn
    have hn' : |(n : Rat)| < 1000 * 2 ^ (38 : Int) := by exact_mod_cast hn
    refine (abs_microsOf_sub_le (by decide) hn').trans_lt ?_
    norm_num
  have hstep : ((a + 1 : Int) : Rat) ≤ b := Int.cast_le.2 h
  push_cast at hstep
  obtain ⟨-, hhigh⟩ := abs_lt.1 (herror ha)
  obtain ⟨hlow, -⟩ := abs_lt.1 (herror hb)
  exact_mod_cast (by linarith : (microsOf a : Rat) < microsOf b)

/-! ## Integers on the wire -/

/-- Whether the calendar has an integer number of milliseconds. -/
def HasMillisecond (n : Int) : Prop := firstMillisecond ≤ n ∧ n < endMillisecond

theorem hasMillisecond_of_abs_lt (h : |n| < 1000 * 2 ^ 33) : HasMillisecond n := by
  rw [abs_lt] at h
  unfold HasMillisecond firstMillisecond endMillisecond
  omega

theorem abs_lt_of_hasMillisecond (h : HasMillisecond n) : |n| < 1000 * 2 ^ 38 := by
  unfold HasMillisecond firstMillisecond endMillisecond at h
  rw [abs_lt]
  omega

namespace Stamp

/-- **Reading an integer.** -/
theorem ofWire_int {t : Stamp} :
    ofWire (.int n) = .ok t ↔ HasMillisecond n ∧ t = .ofInstant (microsOf n) := by
  have hread : ofValue? (.int n) = ofMilliseconds? (roundBinary n) := rfl
  rw [ofWire, hread, ofMilliseconds?]
  by_cases h : HasMillisecond n
  · have hsmall : |n| < 2 ^ 53 := (abs_lt_of_hasMillisecond h).trans (by decide)
    have hin := (inCalendar_of_integer n).2 h
    rw [roundBinary_intCast hsmall] at hin ⊢
    rw [if_pos hin]
    simp [h, eq_comm]
  · rw [if_neg (mt (inCalendar_of_integer n).1 h)]
    simp [h]

/-- **The order of integers that are read as times.** -/
theorem instant_le_iff {s t : Stamp} (hs : ofWire (.int a) = .ok s) (ht : ofWire (.int b) = .ok t) :
    s.instant ≤ t.instant ↔ a ≤ b := by
  obtain ⟨ha, rfl⟩ := ofWire_int.1 hs
  obtain ⟨hb, rfl⟩ := ofWire_int.1 ht
  rw [instant_ofInstant, instant_ofInstant]
  refine ⟨fun hle => ?_, fun hle => microsOf_mono (Int.cast_le.2 hle)⟩
  by_contra hlt
  have hlater := microsOf_lt_of_lt (abs_lt_of_hasMillisecond hb) (abs_lt_of_hasMillisecond ha)
    (not_le.1 hlt)
  exact absurd hlater (not_lt.2 hle)

end Stamp

end Time

end TypingTrace
