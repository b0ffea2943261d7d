import TypingTrace.Metric.Typing
import TypingTrace.Proofs.Number.Order

/-!
# Gaps above a threshold

A gap between two events is compared with a threshold by its milliseconds as a double. That the gap
is longer and that it is not are two opposite comparisons, which agree unless a number is a NaN
(`isPause_eq`, `isActive_eq`), and a gap longer than one that passes the test passes it as well
(`exceeds_mono`).

**Theorem (`exceeds_iff`).** The test is that of exact counts of microseconds if the threshold is a
number of whole seconds, as it is by default. For any other threshold it is so but for the counts
within a microsecond of the threshold.

A gap is rounded twice on its way to milliseconds, which moves it by `2 ^ -51` of its length at most
(`abs_roundedMilliseconds_sub_le`). For gaps of some decades that is less than half a microsecond.
Whole seconds are not rounded at all.
-/

namespace TypingTrace

open Time

variable {t : Thresholds} {threshold : Number}

/-- Whether a gap is longer than a threshold, in milliseconds as doubles. -/
def exceeds (threshold : Number) (gap : Int) : Bool := threshold.lt (.float (milliseconds gap))

/-! ## Longer gaps -/

theorem milliseconds_mono {gap longer : Int} (h : gap ≤ longer) :
    (Number.float (milliseconds gap)).le (.float (milliseconds longer)) := by
  apply Number.nearestOrInfinite_mono
  refine mul_le_mul_of_nonneg_right (BinaryFormat.round_mono ?_) (by norm_num)
  exact div_le_div_of_nonneg_right (Int.cast_le.2 h) (by norm_num)

theorem exceeds_mono {gap longer : Int} (h : gap ≤ longer) (hgap : exceeds threshold gap) :
    exceeds threshold longer := Number.lt_of_lt_of_le hgap (milliseconds_mono h)

/-! ## The two comparisons -/

theorem isPause_eq (hpause : t.pause.number? = some threshold) (gap : Int) :
    isPause t gap = .ok (exceeds threshold gap) := Value.compare_numbers rfl hpause .gt

/-- The other comparison says the opposite, as neither number is a NaN. -/
theorem isActive_eq (hpause : t.pause.number? = some threshold)
    (hnonneg : (0 : Number).le threshold) (gap : Int) :
    isActive t gap = .ok (!exceeds threshold gap) := by
  rw [exceeds, ← Number.le_eq_not_lt hnonneg (milliseconds_mono le_rfl)]
  exact Value.compare_numbers rfl hpause .le

/-! ## Exact counts -/

/-- The relative error of a double, unless it is a very small one. -/
theorem abs_roundBinary_sub_le {q : Rat} (h : 1 / 1000000 ≤ q) :
    |roundBinary q - q| ≤ q / 2 ^ 53 := by
  have hpos : 0 < q := lt_of_lt_of_le (by norm_num) h
  have hnormal : (2 : Rat) ^ (-1022 : Int) ≤ q := by
    calc (2 : Rat) ^ (-1022 : Int) ≤ 2 ^ (-20 : Int) := two_zpow_le (by decide)
      _ ≤ 1 / 1000000 := by norm_num
      _ ≤ q := h
  have herror : |roundBinary q - q| ≤ |q| / 2 ^ 53 :=
    BinaryFormat.abs_round_sub_le_div (by decide) (hnormal.trans (le_abs_self q))
  rwa [abs_of_pos hpos] at herror

/-- The milliseconds of a gap: seconds and their product with a thousand, both rounded. -/
def roundedMilliseconds (gap : Int) : Rat :=
  roundBinary (roundBinary ((gap : Rat) / 1000000) * 1000)

theorem roundedMilliseconds_nonpos {gap : Int} (h : gap ≤ 0) : roundedMilliseconds gap ≤ 0 := by
  have hgap : (gap : Rat) / 1000000 ≤ 0 :=
    div_nonpos_of_nonpos_of_nonneg (Int.cast_nonpos.2 h) (by norm_num)
  apply BinaryFormat.round_nonpos
  exact mul_nonpos_of_nonpos_of_nonneg (BinaryFormat.round_nonpos hgap) (by norm_num)

theorem abs_roundedMilliseconds_sub_le {gap : Int} (h : 1 ≤ gap) :
    |roundedMilliseconds gap - gap / 1000| ≤ gap / 1000 / 2 ^ 51 := by
  have hgap : (1 : Rat) ≤ gap := by exact_mod_cast h
  obtain ⟨hlow, hhigh⟩ := abs_le.1
    (abs_roundBinary_sub_le (by linarith : 1 / 1000000 ≤ (gap : Rat) / 1000000))
  obtain ⟨hlow', hhigh'⟩ := abs_le.1 (abs_roundBinary_sub_le
    (by linarith : 1 / 1000000 ≤ roundBinary ((gap : Rat) / 1000000) * 1000))
  rw [roundedMilliseconds, abs_le]
  constructor <;> linarith

theorem roundedMilliseconds_seconds {s : Int} (h : |s * 1000| < 2 ^ 53) :
    roundedMilliseconds (s * 1000000) = ((s * 1000 : Int) : Rat) := by
  have hs : |s| < 2 ^ 53 := by
    rw [abs_mul, abs_of_pos (by decide : (0 : Int) < 1000)] at h
    omega
  have hseconds : ((s * 1000000 : Int) : Rat) / 1000000 = s := by
    push_cast
    field_simp
  have hproduct : (s : Rat) * 1000 = ((s * 1000 : Int) : Rat) := by push_cast; rfl
  rw [roundedMilliseconds, hseconds, roundBinary_intCast hs, hproduct, roundBinary_intCast h]

/-- Two roundings do not take a gap across a threshold a microsecond away. -/
theorem lt_roundedMilliseconds_iff {q : Rat} (hnonneg : 0 ≤ q) (hq : q ≤ 2 ^ 41) {gap : Int}
    (haway : 1 ≤ |gap - 1000 * q|) : q < roundedMilliseconds gap ↔ 1000 * q < gap := by
  by_cases hpos : 1 ≤ gap
  · obtain ⟨hlow, hhigh⟩ := abs_le.1 (abs_roundedMilliseconds_sub_le hpos)
    rcases le_abs.1 haway with hlonger | hshorter
    · exact iff_of_true (by linarith) (by linarith)
    · exact iff_of_false (by linarith) (by linarith)
  · have hgap : gap ≤ 0 := by omega
    have hrounded := roundedMilliseconds_nonpos hgap
    have hcast : (gap : Rat) ≤ 0 := Int.cast_nonpos.2 hgap
    exact iff_of_false (by linarith) (by linarith)

/-- Whole seconds are not rounded, so there no gap is excepted. -/
theorem lt_roundedMilliseconds_iff_of_seconds {s : Int} (hnonneg : (0 : Rat) ≤ s * 1000)
    (hs : (s * 1000 : Rat) ≤ 2 ^ 41) (gap : Int) :
    (s * 1000 : Rat) < roundedMilliseconds gap ↔ 1000 * (s * 1000 : Rat) < gap := by
  have hcount : 1000 * (s * 1000 : Rat) = ((s * 1000000 : Int) : Rat) := by
    push_cast
    ring
  by_cases hgap : gap = s * 1000000
  · have hsmall : |s * 1000| < 2 ^ 53 := by
      rw [abs_lt]
      constructor
      · exact_mod_cast (by linarith : (-2 ^ 53 : Rat) < s * 1000)
      · exact_mod_cast (by linarith : (s * 1000 : Rat) < 2 ^ 53)
    rw [hcount, hgap, roundedMilliseconds_seconds hsmall]
    simp
  · apply lt_roundedMilliseconds_iff hnonneg hs
    rw [hcount]
    exact_mod_cast Int.one_le_abs (sub_ne_zero.2 hgap)

/-- **Exact counts.** A threshold that is compared as it is, of up to `2 ^ 41` milliseconds, is
exceeded by the gaps of more microseconds, unless a gap is next to it. If it is a number of whole
seconds there is no such exception. -/
theorem exceeds_iff {q : Rat} (hplain : threshold.doubleKind = none)
    (hplace : threshold.place = some (0, q)) (hthreshold : (0 : Number).le threshold)
    (hq : q ≤ 2 ^ 41) {gap : Int} (haway : 1 ≤ |gap - 1000 * q| ∨ ∃ s : Int, q = s * 1000) :
    exceeds threshold gap ↔ 1000 * q < gap := by
  have hnonneg := Number.nonneg_of_place hthreshold hplain hplace
  have hlimit : |q| < 2 ^ (1024 : Int) := by
    rw [abs_of_nonneg hnonneg]
    calc q ≤ 2 ^ (41 : Int) := hq
      _ < 2 ^ (1024 : Int) := two_zpow_lt_iff.2 (by decide)
  have hiff : exceeds threshold gap ↔ q < roundedMilliseconds gap :=
    Number.lt_nearestOrInfinite_iff hplain hplace hlimit
  rw [hiff]
  rcases haway with haway | ⟨s, rfl⟩
  · exact lt_roundedMilliseconds_iff hnonneg hq haway
  · exact lt_roundedMilliseconds_iff_of_seconds hnonneg hq gap

/-- The exception is one: these milliseconds are rounded up. -/
example : exceeds (.int 2007) 2007000 := by decide +kernel

end TypingTrace
