import Mathlib.Tactic.SplitIfs
import TypingTrace.Time.Calendar

/-!
# Days and their numbers

**Theorem (`number_ofNumber`).** For every number of a day of the calendar, the date with that
number is a day of the calendar and has that number.

A year is found by taking off whole groups of years, and what is left is less than the days of that
year (`ofNumber_spec`). Only the last year of a group of four may be left with a day 366, and it is
a leap year then. Within the year, months are taken off one by one (`monthAndDay_spec`).
-/

namespace TypingTrace.Time

/-! ## Months -/

theorem daysInMonth_le (year month : Nat) : daysInMonth year month ≤ 31 := by
  unfold daysInMonth
  split
  · split_ifs <;> decide
  all_goals decide

theorem daysBeforeMonth_succ (year : Nat) {month : Nat} (h : 1 ≤ month) :
    daysBeforeMonth year (month + 1) = daysBeforeMonth year month + daysInMonth year month := by
  cases month with
  | zero => cases h
  | succ month => rfl

/-- The days of a year. -/
def daysInYear (year : Nat) : Nat := if isLeap year then 366 else 365

theorem daysBeforeMonth_thirteen (year : Nat) : daysBeforeMonth year 13 = daysInYear year := by
  simp only [daysBeforeMonth, daysInMonth, daysInYear]
  split_ifs <;> rfl

theorem daysBeforeMonth_mono (year : Nat) {month month' : Nat} (h : month ≤ month') :
    daysBeforeMonth year month ≤ daysBeforeMonth year month' := by
  induction h with
  | refl => exact Nat.le_refl _
  | @step m _ ih =>
    cases m with
    | zero => exact ih
    | succ m => exact Nat.le_trans ih (Nat.le_add_right _ _)

/-- The month and the day of a day of the year, counted from a month on. -/
theorem monthAndDay_spec (year : Nat) {left month n : Nat} (hmonth : 1 ≤ month)
    (hn : daysBeforeMonth year month + n < daysBeforeMonth year (month + left + 1)) :
    let (m, d) := Date.monthAndDay year left month n
    daysBeforeMonth year m + d = daysBeforeMonth year month + n + 1 ∧
      month ≤ m ∧ m ≤ month + left ∧ 1 ≤ d ∧ d ≤ daysInMonth year m := by
  induction left generalizing month n with
  | zero =>
    rw [Nat.add_zero, daysBeforeMonth_succ year hmonth] at hn
    simp only [Date.monthAndDay]
    omega
  | succ left ih =>
    have hsucc := daysBeforeMonth_succ year hmonth
    rw [Date.monthAndDay]
    split_ifs with h
    · dsimp only
      omega
    · have hrest := @ih (month + 1) (n - daysInMonth year month) (by omega)
        (by rw [show month + 1 + left + 1 = month + (left + 1) + 1 by omega]; omega)
      dsimp only at hrest ⊢
      omega

/-! ## Years -/

/-- The numbers of the days of the calendar. -/
def InNumbers (n : Nat) : Prop := 1 ≤ n ∧ n ≤ 3652059

theorem Date.IsValid.inNumbers {d : Date} (h : d.IsValid) : InNumbers d.number := by
  obtain ⟨hyear, hyear', hmonth, hmonth', hday, hday'⟩ := h
  have hrest : daysBeforeMonth d.year d.month + d.day ≤ daysInYear d.year := by
    rw [← daysBeforeMonth_thirteen]
    have := daysBeforeMonth_succ d.year hmonth
    have := daysBeforeMonth_mono d.year (show d.month + 1 ≤ 13 by omega)
    omega
  have hleap : isLeap d.year → d.year % 4 = 0 := by
    intro hleap
    simp only [isLeap, Bool.and_eq_true, beq_iff_eq] at hleap
    exact hleap.1
  unfold InNumbers Date.number daysBeforeYear
  unfold daysInYear at hrest
  dsimp only
  split_ifs at hrest with hcase
  · have := hleap hcase
    omega
  · omega

/-- The days before a year that is the sum of four hundreds, hundreds, fours and ones. -/
theorem daysBeforeYear_sum {a b c d : Nat} (hb : b ≤ 3) (hc : c ≤ 24) (hd : d ≤ 3) :
    daysBeforeYear (400 * a + 100 * b + 4 * c + d + 1) =
      146097 * a + 36524 * b + 1461 * c + 365 * d := by
  have h4 : (400 * a + 100 * b + 4 * c + d) / 4 = 100 * a + 25 * b + c := by omega
  have h100 : (400 * a + 100 * b + 4 * c + d) / 100 = 4 * a + b := by omega
  have h400 : (400 * a + 100 * b + 4 * c + d) / 400 = a := by omega
  rw [daysBeforeYear, Nat.add_sub_cancel, h4, h100, h400]
  omega

/-- The last year of a group is a leap year unless it is that of a century that is not the fourth.
-/
theorem isLeap_sum {a b c : Nat} (h : c < 24 ∨ (b = 3 ∧ c = 24)) :
    isLeap (400 * a + 100 * b + 4 * c + 3 + 1) := by
  simp only [isLeap, Bool.and_eq_true, Bool.or_eq_true, beq_iff_eq, bne_iff_ne]
  refine ⟨by omega, ?_⟩
  rcases h with hc | ⟨rfl, rfl⟩
  · exact .inl (by omega)
  · exact .inr (by omega)

/-- The number of a day as a year and a day of it, counted from zero. -/
theorem ofNumber_spec {n : Nat} (h : InNumbers n) :
    ∃ rest, 1 ≤ (Date.ofNumber n).year ∧ (Date.ofNumber n).year ≤ 9999 ∧
      daysBeforeYear (Date.ofNumber n).year + rest + 1 = n ∧
      rest < daysInYear (Date.ofNumber n).year ∧
      Date.monthAndDay (Date.ofNumber n).year 11 1 rest =
        ((Date.ofNumber n).month, (Date.ofNumber n).day) := by
  obtain ⟨h1, h2⟩ := h
  simp only [Date.ofNumber]
  generalize ha : (n - 1) / 146097 = a
  generalize hr : (n - 1) % 146097 = r
  generalize hb : min (r / 36524) 3 = b
  generalize hs : r - b * 36524 = s
  generalize hc : s / 1461 = c
  generalize ht : s % 1461 = t
  generalize hd : min (t / 365) 3 = d
  have hb3 : b ≤ 3 := by omega
  have hc24 : c ≤ 24 := by omega
  have hd3 : d ≤ 3 := by omega
  refine ⟨t - d * 365, by omega, by omega, ?_, ?_, rfl⟩
  · rw [daysBeforeYear_sum hb3 hc24 hd3]
    omega
  · unfold daysInYear
    split_ifs with hleap
    · omega
    · -- A day 366 is left in the fourth year only, and then that is a leap year.
      by_cases hlast : t - d * 365 < 365
      · exact hlast
      · obtain rfl : d = 3 := by omega
        exact absurd (isLeap_sum (by omega)) hleap

/-! ## Dates -/

/-- **Dates by their numbers.** -/
theorem number_ofNumber {n : Nat} (h : InNumbers n) :
    (Date.ofNumber n).IsValid ∧ (Date.ofNumber n).number = n := by
  obtain ⟨rest, hyear, hyear', hdays, hrest, hmonth⟩ := ofNumber_spec h
  have hspec := @monthAndDay_spec (Date.ofNumber n).year 11 1 rest (Nat.le_refl 1)
    (by rw [daysBeforeMonth_thirteen]; simpa [daysBeforeMonth] using hrest)
  rw [hmonth] at hspec
  obtain ⟨hday, hfirst, hlast, hday1, hday2⟩ := hspec
  refine ⟨⟨hyear, hyear', hfirst, hlast, hday1, hday2⟩, ?_⟩
  rw [show daysBeforeMonth (Date.ofNumber n).year 1 = 0 from rfl] at hday
  rw [Date.number]
  omega

end TypingTrace.Time
