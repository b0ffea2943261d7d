import TypingTrace.Proofs.Number.Doubles
import TypingTrace.Time.Wire

/-!
# Times in milliseconds

**Theorem (`microsOf_mono`).** A later number of milliseconds never stands for an earlier
microsecond, although it is rounded twice on the way.

**Theorems (`inCalendar_of_double`, `inCalendar_of_integer`).** The numbers of milliseconds whose
microseconds the calendar has are those from `firstMillisecond` up to, and without,
`endMillisecond`. For a double this is exact since the doubles next to either end are so far from it
that neither rounding reaches it, and for an integer since the integers next to the ends are
doubles.
-/

namespace TypingTrace

/-! ## Whole parts -/

theorem cut_neg (q : Rat) : cut (-q) = -cut q := by
  rw [cut, cut, Rat.num_neg_eq_neg_num, Rat.den_neg_eq_den, Int.neg_tdiv]

/-- The whole part and the rest of a number that is not negative. -/
theorem cut_spec {q : Rat} (h : 0 ≤ q) : 0 ≤ cut q ∧ (cut q : Rat) ≤ q ∧ q < cut q + 1 := by
  have hcut : cut q = q.floor := by
    rw [cut, Rat.floor_def, Int.tdiv_eq_ediv_of_nonneg (Rat.num_nonneg.2 h)]
  rw [hcut]
  refine ⟨Rat.le_floor_iff.2 (by simpa using h), q.floor_le, ?_⟩
  have hlt := q.lt_floor_add_one
  push_cast at hlt
  exact hlt

namespace Time

/-! ## The order of seconds -/

theorem microsOfSeconds_neg (s : Rat) : microsOfSeconds (-s) = -microsOfSeconds s := by
  have hrest : (-s - ((-cut s : Int) : Rat)) * 1000000 = -((s - cut s) * 1000000) := by
    push_cast
    ring
  unfold microsOfSeconds roundBinary
  dsimp only
  rw [cut_neg, hrest, BinaryFormat.round_neg, roundEven_neg]
  ring

/-- A rest of less than a second never becomes more than a second. -/
theorem microsOfSeconds_spec {s : Rat} (h : 0 ≤ s) :
    cut s * second ≤ microsOfSeconds s ∧ microsOfSeconds s ≤ (cut s + 1) * second := by
  obtain ⟨-, hle, hlt⟩ := cut_spec h
  have hlow : 0 ≤ roundEven (roundBinary ((s - cut s) * 1000000)) :=
    le_roundEven (BinaryFormat.round_nonneg (by linarith))
  have hhigh : roundEven (roundBinary ((s - cut s) * 1000000)) ≤ second := by
    refine roundEven_le ?_
    have hround : roundBinary (second : Rat) = second := by decide +kernel
    rw [← hround]
    refine BinaryFormat.round_mono ?_
    have hsecond : (second : Rat) = 1000000 := rfl
    rw [hsecond]
    linarith
  unfold microsOfSeconds
  dsimp only
  rw [add_mul, one_mul]
  omega

theorem microsOfSeconds_mono_of_nonneg {s t : Rat} (hs : 0 ≤ s) (h : s ≤ t) :
    microsOfSeconds s ≤ microsOfSeconds t := by
  obtain ⟨-, hle, hlt⟩ := cut_spec (hs.trans h)
  obtain ⟨-, hle', hlt'⟩ := cut_spec hs
  rcases lt_trichotomy (cut s) (cut t) with hcut | hcut | hcut
  · calc microsOfSeconds s ≤ (cut s + 1) * second := (microsOfSeconds_spec hs).2
      _ ≤ cut t * second := mul_le_mul_of_nonneg_right (by omega) (by decide)
      _ ≤ microsOfSeconds t := (microsOfSeconds_spec (hs.trans h)).1
  · unfold microsOfSeconds
    dsimp only
    rw [hcut]
    refine Int.add_le_add_left (roundEven_mono (BinaryFormat.round_mono ?_)) _
    linarith
  · have hgap : ((cut t + 1 : Int) : Rat) ≤ cut s := Int.cast_le.2 (by omega)
    push_cast at hgap
    linarith

theorem microsOfSeconds_nonneg {s : Rat} (h : 0 ≤ s) : 0 ≤ microsOfSeconds s :=
  (mul_nonneg (cut_spec h).1 (by decide)).trans (microsOfSeconds_spec h).1

theorem microsOfSeconds_mono {s t : Rat} (h : s ≤ t) : microsOfSeconds s ≤ microsOfSeconds t := by
  rcases le_total 0 s with hs | hs
  · exact microsOfSeconds_mono_of_nonneg hs h
  · rcases le_total 0 t with ht | ht
    · have hneg := microsOfSeconds_nonneg (neg_nonneg.2 hs)
      have hpos := microsOfSeconds_nonneg ht
      rw [microsOfSeconds_neg] at hneg
      omega
    · have hopposite := microsOfSeconds_mono_of_nonneg (neg_nonneg.2 ht) (neg_le_neg h)
      rw [microsOfSeconds_neg, microsOfSeconds_neg] at hopposite
      omega

/-- **The order of times in milliseconds.** -/
theorem microsOf_mono {a b : Rat} (h : a ≤ b) : microsOf a ≤ microsOf b :=
  microsOfSeconds_mono (BinaryFormat.round_mono (div_le_div_of_nonneg_right h (by norm_num)))

/-! ## The bounds of the calendar -/

/-- Midnight of 1 January of the year 1, in milliseconds. -/
def firstMillisecond : Int := -62135596800000

/-- Midnight at the end of the year 9999, in milliseconds. -/
def endMillisecond : Int := 253402300800000

theorem inCalendar_of_le {low q high : Rat} (hlow : InCalendar (microsOf low))
    (hhigh : InCalendar (microsOf high)) (h : low ≤ q) (h' : q ≤ high) :
    InCalendar (microsOf q) :=
  ⟨hlow.1.trans (microsOf_mono h), (microsOf_mono h').trans_lt hhigh.2⟩

/-- **Integers.** -/
theorem inCalendar_of_integer (n : Int) :
    InCalendar (microsOf (roundBinary n)) ↔ firstMillisecond ≤ n ∧ n < endMillisecond := by
  constructor
  · intro h
    constructor
    · by_contra hlt
      have hle : roundBinary n ≤ roundBinary ((firstMillisecond - 1 : Int) : Rat) :=
        BinaryFormat.round_mono (Int.cast_le.2 (by omega))
      have hbefore : microsOf (roundBinary ((firstMillisecond - 1 : Int) : Rat)) <
          -719162 * dayLength := by decide +kernel
      exact absurd ((microsOf_mono hle).trans_lt hbefore) (not_lt.2 h.1)
    · by_contra hge
      have hle : roundBinary (endMillisecond : Rat) ≤ roundBinary n :=
        BinaryFormat.round_mono (Int.cast_le.2 (by omega))
      have hafter : 2932897 * dayLength ≤ microsOf (roundBinary (endMillisecond : Rat)) := by
        decide +kernel
      exact absurd (hafter.trans (microsOf_mono hle)) (not_le.2 h.2)
  · rintro ⟨hlow, hhigh⟩
    have hfirst : InCalendar (microsOf (roundBinary (firstMillisecond : Rat))) := by decide +kernel
    have hlast : InCalendar (microsOf (roundBinary ((endMillisecond - 1 : Int) : Rat))) := by
      decide +kernel
    exact inCalendar_of_le hfirst hlast (BinaryFormat.round_mono (Int.cast_le.2 hlow))
      (BinaryFormat.round_mono (Int.cast_le.2 (by omega)))

/-- A double below an integer is below it by the spacing of the doubles there. -/
theorem add_spacing_le {x : Float} {q : Rat} {e n : Int} (h : exactOf x = some q)
    (hle : 2 ^ e ≤ |q|) (he : e ≤ 52) (hlt : q < n) : q + pow2 (e - 52) ≤ n := by
  rw [pow2_eq]
  exact (onGrid_of_exactOf h hle).add_le_of_lt (.intCast n (by omega)) hlt

/-- **Doubles.** -/
theorem inCalendar_of_double {x : Float} {q : Rat} (h : exactOf x = some q) :
    InCalendar (microsOf q) ↔ firstMillisecond ≤ q ∧ q < endMillisecond := by
  constructor
  · intro hin
    constructor
    · by_contra hlt
      rw [not_le] at hlt
      have hlarge : (2 : Rat) ^ (45 : Int) ≤ |q| := by
        rw [← pow2_eq]
        calc pow2 45 ≤ -firstMillisecond := by decide +kernel
          _ ≤ -q := neg_le_neg hlt.le
          _ ≤ |q| := neg_le_abs q
      have hgap := add_spacing_le h hlarge (by decide) hlt
      have hbefore : microsOf (firstMillisecond - pow2 (45 - 52)) < -719162 * dayLength := by
        decide +kernel
      exact absurd ((microsOf_mono (le_sub_right_of_add_le hgap)).trans_lt hbefore)
        (not_lt.2 hin.1)
    · by_contra hge
      have hafter : 2932897 * dayLength ≤ microsOf endMillisecond := by decide +kernel
      exact absurd (hafter.trans (microsOf_mono (not_lt.1 hge))) (not_le.2 hin.2)
  · rintro ⟨hlow, hhigh⟩
    have hfirst : InCalendar (microsOf firstMillisecond) := by decide +kernel
    have hlast : InCalendar (microsOf (endMillisecond - pow2 (47 - 52))) := by decide +kernel
    refine inCalendar_of_le hfirst hlast hlow (le_sub_right_of_add_le ?_)
    rcases le_total (pow2 47) q with hlarge | hsmall
    · refine add_spacing_le h ?_ (by decide) hhigh
      rw [← pow2_eq]
      exact hlarge.trans (le_abs_self q)
    · have hend : pow2 47 + pow2 (47 - 52) ≤ endMillisecond := by decide +kernel
      linarith

end Time

end TypingTrace
