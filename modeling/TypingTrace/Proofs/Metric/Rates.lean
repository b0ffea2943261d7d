import TypingTrace.Metric.Statistics
import TypingTrace.Proofs.Engine.Finiteness

/-!
# Rates

A rate per minute is a count over a time in doubles.

**Theorem (`exists_perMinute`).** Every count that a double can come near to (`Number.FitsDouble`)
has a rate, whatever the time is: no rate divides by zero. A count of events over a number other
than zero is such a count, unless that number is an exact fraction (`exists_countOver`). A count
that is too large has no rate over a positive time (`perMinute_huge`).
-/

namespace TypingTrace

namespace Number

variable {b : Number}

/-! ## Counts over a number -/

theorem countOver_fraction (n : Nat) {q : Rat} (h : q ≠ 0) :
    countOver n (.fraction q) = .ok (.fraction (n / q)) := by
  refine if_neg ?_
  show ¬ ((some (0, q) : Option (Int × Rat)) == some (0, 0)) = true
  simp [h]

/-- A count over a number other than zero. Only a fraction can make it too large. -/
theorem exists_countOver (n : Nat) (h : b.isNonzero) : ∃ words, countOver n b = .ok words ∧
    ((∀ q, b ≠ .fraction q) → words.FitsDouble) ∧
    ∀ q, b = .fraction q → words = .fraction (n / q) := by
  have hzero : ¬ b.isZero = true := by simpa [isNonzero] using h
  cases b with
  | int d => exact ⟨_, if_neg hzero, fun _ => nofun, nofun⟩
  | float y => exact ⟨_, if_neg hzero, fun _ => nofun, nofun⟩
  | fraction q =>
    refine ⟨_, if_neg hzero, fun hb => absurd rfl (hb q), fun r hr => ?_⟩
    cases hr
    rfl
  | scalar s => cases s <;> exact ⟨_, rfl, fun _ => nofun, nofun⟩

/-! ## Quotients by a double -/

theorem isZero_of_pos {y : Float} (h : (Number.int 0).lt (.float y)) :
    (Number.float y).isZero = false := by
  by_contra hzero
  have hplace : (Number.float y).place = some (0, 0) := by simpa [isZero] using hzero
  have hzero' : aligned (joint (.int 0) (.float y)) (.int 0) = .int 0 := rfl
  have hy : aligned (joint (.int 0) (.float y)) (.float y) = .float y := rfl
  rw [lt, hzero', hy, hplace] at h
  exact absurd h (by decide)

theorem divide_floats_eq {x y : Float} (h : (Number.float y).isZero = false) :
    (Number.float x).divide (.float y) = .ok (.float (x / y)) := by
  have hplain : (Number.float x).divide (.float y) =
      if (Number.float y).isZero then .error (zeroDivisor (.float x) (.float y))
      else .ok (.float (x / y)) := rfl
  rw [hplain, h]
  rfl

/-- An integer or a fraction is taken for a double first. -/
theorem divide_float_of_rational {a : Number} {q : Rat} (ha : a.rational? = some q) {y : Float}
    (h : (Number.float y).isZero = false) :
    a.divide (.float y) = a.toFloat.map fun x => .float (x / y) := by
  have hplain : a.divide (.float y) = a.toFloat.bind fun x =>
      if (Number.float y).isZero then .error (zeroDivisor a (.float y))
      else .ok (.float (x / y)) := by
    cases a with
    | int | fraction => rfl
    | float | scalar => cases ha
  rw [hplain, h]
  cases a.toFloat <;> rfl

/-- A number that a double can come near to, over a double other than zero. -/
theorem exists_divide_float {a : Number} (ha : a.FitsDouble) {y : Float}
    (h : (Number.float y).isZero = false) : ∃ n, a.divide (.float y) = .ok n := by
  have hrational : ∀ q, a.rational? = some q → ∃ n, a.divide (.float y) = .ok n := by
    intro q hq
    obtain ⟨-, x, hx⟩ := (toFloat_cases hq).resolve_right fun huge => huge.1 ha
    exact ⟨_, by rw [divide_float_of_rational hq h, hx]; rfl⟩
  cases a with
  | int n => exact hrational n rfl
  | fraction q => exact hrational q rfl
  | float x => exact ⟨_, divide_floats_eq h⟩
  | scalar s => cases s <;> exact ⟨_, rfl⟩

end Number

/-! ## Rates per minute -/

theorem isZero_minute : (Number.float 60000.0).isZero = false := by decide +kernel

theorem perMinute_float (count : Number) (x : Float) :
    perMinute count (.float x) =
      if (Number.int 0).lt (.float (x / 60000.0)) then count.divide (.float (x / 60000.0))
      else .ok (.float 0.0) := by
  rw [perMinute, Number.divide_floats_eq isZero_minute]
  rfl

/-- **No rate is refused** of a count that is not too large. -/
theorem exists_perMinute {count : Number} (h : count.FitsDouble) (x : Float) :
    ∃ n, perMinute count (.float x) = .ok n := by
  rw [perMinute_float]
  by_cases hpos : (Number.int 0).lt (.float (x / 60000.0))
  · rw [if_pos hpos]
    exact Number.exists_divide_float h (Number.isZero_of_pos hpos)
  · rw [if_neg hpos]
    exact ⟨_, rfl⟩

/-- A count that is too large is refused over a positive time. -/
theorem perMinute_huge {count : Number} (h : ¬ count.FitsDouble) {x : Float}
    (hpos : (Number.int 0).lt (.float (x / 60000.0))) :
    ∃ f, perMinute count (.float x) = .error f ∧ f.kind = "OverflowError" := by
  obtain ⟨q, hq, -⟩ : ∃ q, count.rational? = some q ∧ ¬ |q| < doubleLimit := by
    simpa [Number.FitsDouble] using h
  obtain ⟨-, f, hf, hkind⟩ := (Number.toFloat_cases hq).resolve_left fun hfits => h hfits.1
  rw [perMinute_float, if_pos hpos,
    Number.divide_float_of_rational hq (Number.isZero_of_pos hpos), hf]
  exact ⟨f, rfl, hkind⟩

end TypingTrace
