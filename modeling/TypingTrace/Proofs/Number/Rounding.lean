import Mathlib.Algebra.Order.Field.Power
import Mathlib.Algebra.Order.Field.Rat
import Mathlib.Tactic.FieldSimp
import Mathlib.Tactic.Linarith
import Mathlib.Tactic.Positivity
import Mathlib.Tactic.Ring
import TypingTrace.Number.Binary

/-!
# Rounding to the nearest number

**To integers.** `IsNearest x m` says that no integer is nearer to `x` than `m`, and that `m` is
even where another one is as near. There is one such integer, it grows with `x`, and `divEven` and
`roundEven` give it.

**To a binary format** (`BinaryFormat.round_eq`). A format spaces its numbers by a power of two that
grows with the magnitude (`BinaryFormat.spacing`), and rounding is rounding to the nearest multiple
of the spacing.

**Theorem (`BinaryFormat.round_mono`).** Rounding to a format keeps the order.

The spacing may grow between two numbers. Then a power of two lies between them that is a multiple
of either spacing, and neither is rounded past it.
-/

namespace TypingTrace

/-! ## The nearest integer -/

/-- An integer that is nearest to a rational, the even one of two that are equally near. -/
structure IsNearest (x : Rat) (m : Int) : Prop where
  lower : (m : Rat) - 1 / 2 ≤ x
  upper : x ≤ m + 1 / 2
  even : (m : Rat) - 1 / 2 = x ∨ x = m + 1 / 2 → 2 ∣ m

namespace IsNearest

variable {x y : Rat} {m n : Int}

theorem mono (hx : IsNearest x m) (hy : IsNearest y n) (h : x ≤ y) : m ≤ n := by
  by_contra hlt
  have hstep : ((n + 1 : Int) : Rat) ≤ m := Int.cast_le.2 (by omega)
  push_cast at hstep
  have hm := hx.lower
  have hn := hy.upper
  -- Both are half way between `n` and `m = n + 1`, of which only one is even.
  have hodd : m = n + 1 := by
    have hle : (m : Rat) ≤ ((n + 1 : Int) : Rat) := by
      push_cast
      linarith
    have := Int.cast_le.1 hle
    omega
  have hm2 : 2 ∣ m := hx.even (.inl (by linarith))
  have hn2 : 2 ∣ n := hy.even (.inr (by linarith))
  omega

theorem unique (hm : IsNearest x m) (hn : IsNearest x n) : m = n :=
  le_antisymm (hm.mono hn le_rfl) (hn.mono hm le_rfl)

theorem neg (h : IsNearest x m) : IsNearest (-x) (-m) where
  lower := by
    have := h.upper
    push_cast
    linarith
  upper := by
    have := h.lower
    push_cast
    linarith
  even tie := by
    refine (h.even ?_).neg_right
    push_cast at tie
    rcases tie with tie | tie
    · exact .inr (by linarith)
    · exact .inl (by linarith)

theorem intCast (m : Int) : IsNearest m m where
  lower := by linarith
  upper := by linarith
  even tie := by rcases tie with tie | tie <;> linarith

end IsNearest

/-- The nearest integer to a quotient, put without division. -/
theorem isNearest_div {n d : Nat} {m : Int} (hd : 0 < d) (lower : (2 * m - 1) * d ≤ 2 * n)
    (upper : 2 * n ≤ (2 * m + 1) * d)
    (even : (2 * m - 1) * d = 2 * n ∨ 2 * (n : Int) = (2 * m + 1) * d → 2 ∣ m) :
    IsNearest ((n : Rat) / d) m := by
  have hd' : (0 : Rat) < d := Nat.cast_pos.2 hd
  constructor
  · rw [le_div_iff₀ hd']
    have : ((2 * m - 1) * d : Rat) ≤ 2 * n := by exact_mod_cast lower
    linarith
  · rw [div_le_iff₀ hd']
    have : (2 * n : Rat) ≤ (2 * m + 1) * d := by exact_mod_cast upper
    linarith
  · rw [eq_div_iff hd'.ne', div_eq_iff hd'.ne']
    intro tie
    refine even (tie.imp (fun h => ?_) fun h => ?_)
    · have : ((2 * m - 1) * d : Rat) = 2 * n := by linarith
      exact_mod_cast this
    · have : (2 * n : Rat) = (2 * m + 1) * d := by linarith
      exact_mod_cast this

theorem isNearest_divEven (n : Nat) {d : Nat} (hd : 0 < d) :
    IsNearest ((n : Rat) / d) (divEven n d : Nat) := by
  unfold divEven
  obtain ⟨q, hq⟩ : ∃ q, q = n / d := ⟨_, rfl⟩
  obtain ⟨r, hr⟩ : ∃ r, r = n % d := ⟨_, rfl⟩
  have hsplit : (n : Int) = q * d + r := by
    rw [hq, hr]
    exact_mod_cast (Nat.div_add_mod' n d).symm
  have hlt : r < d := hr ▸ Nat.mod_lt n hd
  rw [← hq, ← hr]
  dsimp only
  split_ifs with hdown hup
  · -- The rest is less than a half.
    refine isNearest_div hd ?_ ?_ ?_
    · linarith
    · linarith
    · rintro (tie | tie) <;> linarith
  · -- The rest is more than a half.
    push_cast
    refine isNearest_div hd ?_ ?_ ?_
    · linarith
    · linarith
    · rintro (tie | tie) <;> linarith
  · -- The rest is a half, and the even neighbour is taken.
    have heven : (2 : Int) ∣ ((q + q % 2 : Nat) : Int) := by omega
    refine isNearest_div hd ?_ ?_ fun _ => heven
    · rcases Nat.mod_two_eq_zero_or_one q with hmod | hmod <;> rw [hmod] <;> push_cast <;> linarith
    · rcases Nat.mod_two_eq_zero_or_one q with hmod | hmod <;> rw [hmod] <;> push_cast <;> linarith

/-- A negative rational from its numerator without the sign. -/
theorem eq_neg_natAbs_div {q : Rat} (h : q.num < 0) : q = -((q.num.natAbs : Rat) / q.den) := by
  have habs : ((q.num.natAbs : Int) : Rat) = (-q.num : Int) := congrArg _ (by omega)
  rw [Int.cast_natCast, Int.cast_neg] at habs
  rw [habs, neg_div, neg_neg, Rat.num_div_den]

theorem eq_natAbs_div {q : Rat} (h : ¬ q.num < 0) : q = (q.num.natAbs : Rat) / q.den := by
  have habs : ((q.num.natAbs : Int) : Rat) = q.num := congrArg _ (by omega)
  rw [Int.cast_natCast] at habs
  rw [habs, Rat.num_div_den]

theorem isNearest_roundEven (q : Rat) : IsNearest q (roundEven q) := by
  have hnearest := isNearest_divEven q.num.natAbs q.den_pos
  unfold roundEven
  split_ifs with hneg
  · have hopposite := hnearest.neg
    rwa [← eq_neg_natAbs_div hneg] at hopposite
  · rwa [← eq_natAbs_div hneg] at hnearest

theorem roundEven_mono {p q : Rat} (h : p ≤ q) : roundEven p ≤ roundEven q :=
  (isNearest_roundEven p).mono (isNearest_roundEven q) h

theorem roundEven_neg (q : Rat) : roundEven (-q) = -roundEven q :=
  (isNearest_roundEven (-q)).unique (isNearest_roundEven q).neg

theorem roundEven_le {q : Rat} {n : Int} (h : q ≤ n) : roundEven q ≤ n :=
  (isNearest_roundEven q).mono (.intCast n) h

theorem le_roundEven {q : Rat} {n : Int} (h : n ≤ q) : n ≤ roundEven q :=
  (IsNearest.intCast n).mono (isNearest_roundEven q) h

theorem abs_roundEven_sub_le (q : Rat) : |roundEven q - q| ≤ 1 / 2 := by
  obtain ⟨hlower, hupper, -⟩ := isNearest_roundEven q
  rw [abs_le]
  constructor <;> linarith

/-! ## Powers of two -/

theorem pow2_eq (e : Int) : pow2 e = (2 : Rat) ^ e := by
  unfold pow2
  split_ifs with he
  · obtain ⟨n, rfl⟩ := Int.eq_ofNat_of_zero_le he
    show ((2 ^ n : Nat) : Rat) = (2 : Rat) ^ (n : Int)
    rw [zpow_natCast, Nat.cast_pow, Nat.cast_ofNat]
  · obtain ⟨n, rfl⟩ := Int.exists_eq_neg_ofNat (by omega : e ≤ 0)
    rw [Int.neg_neg, Int.toNat_natCast, zpow_neg, zpow_natCast]
    show mkRat 1 (2 ^ n) = ((2 : Rat) ^ n)⁻¹
    rw [Rat.mkRat_eq_div, Int.cast_one, one_div, Nat.cast_pow, Nat.cast_ofNat]

theorem two_zpow_pos (e : Int) : (0 : Rat) < 2 ^ e := zpow_pos two_pos e

theorem two_zpow_le {a b : Int} (h : a ≤ b) : (2 : Rat) ^ a ≤ 2 ^ b :=
  zpow_le_zpow_right₀ one_le_two h

theorem two_zpow_lt_iff {a b : Int} : (2 : Rat) ^ a < 2 ^ b ↔ a < b :=
  zpow_lt_zpow_iff_right₀ one_lt_two

/-- A power of two is an integer multiple of each lesser one. -/
theorem exists_two_zpow_eq {a b : Int} (h : a ≤ b) : ∃ n : Int, (2 : Rat) ^ b = n * 2 ^ a := by
  obtain ⟨n, hn⟩ := Int.eq_ofNat_of_zero_le (Int.sub_nonneg_of_le h)
  refine ⟨2 ^ n, ?_⟩
  rw [Int.cast_pow, Int.cast_ofNat, ← zpow_natCast, ← zpow_add₀ two_ne_zero]
  congr 1
  omega

/-- The comparison that `binaryExponent` makes between its two cases. -/
theorem below_iff {n d : Nat} (hd : 0 < d) (e : Int) :
    (if 0 ≤ e then n < d * Nat.pow 2 e.toNat else n * Nat.pow 2 (-e).toNat < d) ↔
      (n : Rat) / d < 2 ^ e := by
  have hd' : (0 : Rat) < d := Nat.cast_pos.2 hd
  rw [div_lt_iff₀ hd']
  split_ifs with he
  · obtain ⟨k, rfl⟩ := Int.eq_ofNat_of_zero_le he
    rw [Int.toNat_natCast, zpow_natCast, Nat.mul_comm d, ← Nat.cast_lt (α := Rat), Nat.cast_mul]
    show (n : Rat) < ((2 ^ k : Nat) : Rat) * d ↔ _
    rw [Nat.cast_pow, Nat.cast_ofNat]
  · obtain ⟨k, rfl⟩ := Int.exists_eq_neg_ofNat (by omega : e ≤ 0)
    rw [Int.neg_neg, Int.toNat_natCast, zpow_neg, zpow_natCast, inv_mul_eq_div,
      lt_div_iff₀ (by positivity), ← Nat.cast_lt (α := Rat), Nat.cast_mul]
    show (n : Rat) * ((2 ^ k : Nat) : Rat) < d ↔ _
    rw [Nat.cast_pow, Nat.cast_ofNat]

/-- **The binary exponent.** -/
theorem binaryExponent_spec {n d : Nat} (hn : 0 < n) (hd : 0 < d) :
    (2 : Rat) ^ binaryExponent n d ≤ (n : Rat) / d ∧
      (n : Rat) / d < 2 ^ (binaryExponent n d + 1) := by
  have hd' : (0 : Rat) < d := Nat.cast_pos.2 hd
  have hn1 : (2 : Rat) ^ (n.log2 : Int) ≤ n := by
    rw [zpow_natCast]
    exact_mod_cast Nat.log2_self_le hn.ne'
  have hn2 : (n : Rat) < 2 ^ ((n.log2 : Int) + 1) := by
    rw [← Nat.cast_succ, zpow_natCast]
    exact_mod_cast Nat.lt_log2_self
  have hd1 : (2 : Rat) ^ (d.log2 : Int) ≤ d := by
    rw [zpow_natCast]
    exact_mod_cast Nat.log2_self_le hd.ne'
  have hd2 : (d : Rat) < 2 ^ ((d.log2 : Int) + 1) := by
    rw [← Nat.cast_succ, zpow_natCast]
    exact_mod_cast Nat.lt_log2_self
  set e : Int := (n.log2 : Int) - d.log2 with he
  -- The quotient lies between the powers on either side of the difference of the logarithms.
  have hlow : (2 : Rat) ^ (e - 1) ≤ (n : Rat) / d := by
    rw [le_div_iff₀ hd']
    calc (2 : Rat) ^ (e - 1) * d ≤ 2 ^ (e - 1) * 2 ^ ((d.log2 : Int) + 1) :=
          mul_le_mul_of_nonneg_left hd2.le (two_zpow_pos _).le
      _ = 2 ^ (n.log2 : Int) := by
        rw [← zpow_add₀ two_ne_zero]
        congr 1
        omega
      _ ≤ n := hn1
  have hhigh : (n : Rat) / d < 2 ^ (e + 1) := by
    rw [div_lt_iff₀ hd']
    calc (n : Rat) < 2 ^ ((n.log2 : Int) + 1) := hn2
      _ = 2 ^ (e + 1) * 2 ^ (d.log2 : Int) := by
        rw [← zpow_add₀ two_ne_zero]
        congr 1
        omega
      _ ≤ 2 ^ (e + 1) * d := mul_le_mul_of_nonneg_left hd1 (two_zpow_pos _).le
  unfold binaryExponent
  rw [← he]
  dsimp only
  simp only [below_iff hd]
  split_ifs with hbelow
  · exact ⟨hlow, by rwa [Int.sub_add_cancel]⟩
  · exact ⟨not_lt.1 hbelow, hhigh⟩

/-! ## Multiples of a power of two -/

/-- A rational that is an integer multiple of `2 ^ k`. -/
def OnGrid (k : Int) (x : Rat) : Prop := ∃ n : Int, x = n * 2 ^ k

namespace OnGrid

variable {k : Int} {x y : Rat}

theorem mono {l : Int} (h : OnGrid l x) (hle : k ≤ l) : OnGrid k x := by
  obtain ⟨n, rfl⟩ := h
  obtain ⟨m, hm⟩ := exists_two_zpow_eq hle
  refine ⟨n * m, ?_⟩
  rw [hm, Int.cast_mul, mul_assoc]

theorem zpow {l : Int} (h : k ≤ l) : OnGrid k (2 ^ l) := exists_two_zpow_eq h

theorem neg (h : OnGrid k x) : OnGrid k (-x) := by
  obtain ⟨n, rfl⟩ := h
  exact ⟨-n, by rw [Int.cast_neg, neg_mul]⟩

theorem intCast (n : Int) (h : k ≤ 0) : OnGrid k n := by
  refine mono ⟨n, ?_⟩ h
  rw [zpow_zero, mul_one]

/-- What is less than a multiple is less by the whole distance, if it is a multiple as well. -/
theorem add_le_of_lt (hx : OnGrid k x) (hy : OnGrid k y) (h : x < y) : x + 2 ^ k ≤ y := by
  obtain ⟨m, rfl⟩ := hx
  obtain ⟨n, rfl⟩ := hy
  have hstep : m + 1 ≤ n := Int.cast_lt.1 (lt_of_mul_lt_mul_right h (two_zpow_pos k).le)
  calc (m : Rat) * 2 ^ k + 2 ^ k = ((m + 1 : Int) : Rat) * 2 ^ k := by push_cast; ring
    _ ≤ n * 2 ^ k := mul_le_mul_of_nonneg_right (Int.cast_le.2 hstep) (two_zpow_pos k).le

end OnGrid

/-! ## Rounding to a format -/

theorem natAbs_div_den (q : Rat) : (q.num.natAbs : Rat) / q.den = |q| := by
  by_cases h : q.num < 0
  · rw [abs_of_neg (Rat.num_neg.1 h)]
    nth_rewrite 3 [eq_neg_natAbs_div h]
    rw [neg_neg]
  · rw [abs_of_nonneg (Rat.num_nonneg.1 (not_lt.1 h))]
    exact (eq_natAbs_div h).symm

/-- The exponent `e` with `2 ^ e ≤ |q| < 2 ^ (e + 1)`. -/
def exponentOf (q : Rat) : Int := binaryExponent q.num.natAbs q.den

theorem exponentOf_spec {q : Rat} (h : q ≠ 0) :
    (2 : Rat) ^ exponentOf q ≤ |q| ∧ |q| < 2 ^ (exponentOf q + 1) := by
  rw [← natAbs_div_den]
  exact binaryExponent_spec (Int.natAbs_pos.2 (Rat.num_ne_zero.2 h)) q.den_pos

theorem exponentOf_lt {q : Rat} {e : Int} (h : q ≠ 0) (hlt : |q| < 2 ^ e) : exponentOf q < e :=
  two_zpow_lt_iff.1 ((exponentOf_spec h).1.trans_lt hlt)

theorem le_exponentOf {q : Rat} {e : Int} (h : q ≠ 0) (hle : 2 ^ e ≤ |q|) : e ≤ exponentOf q :=
  Int.lt_add_one_iff.1 (two_zpow_lt_iff.1 (hle.trans_lt (exponentOf_spec h).2))

theorem exponentOf_neg (q : Rat) : exponentOf (-q) = exponentOf q := by
  rw [exponentOf, Rat.num_neg_eq_neg_num, Rat.den_neg_eq_den, Int.natAbs_neg, exponentOf]

namespace BinaryFormat

variable (format : BinaryFormat)

/-- The exponent of the distance between the numbers of a format that are nearest to a rational. -/
def spacing (q : Rat) : Int := max (exponentOf q - (format.bits - 1 : Nat)) format.lowest

theorem spacing_neg (q : Rat) : format.spacing (-q) = format.spacing q := by
  rw [spacing, exponentOf_neg, spacing]

theorem isNearest_significand (n : Nat) {d : Nat} (hd : 0 < d) :
    IsNearest ((n : Rat) / d / 2 ^ (format.significand n d).2) (format.significand n d).1 := by
  unfold significand
  dsimp only
  generalize max (binaryExponent n d - (format.bits - 1 : Nat)) format.lowest = k
  split_ifs with hk
  · obtain ⟨j, rfl⟩ := Int.eq_ofNat_of_zero_le hk
    have hnearest := isNearest_divEven n (Nat.mul_pos hd (Nat.pow_pos two_pos) : 0 < d * 2 ^ j)
    rw [zpow_natCast, div_div]
    rwa [Nat.cast_mul, Nat.cast_pow, Nat.cast_ofNat] at hnearest
  · obtain ⟨j, rfl⟩ := Int.exists_eq_neg_ofNat (by omega : k ≤ 0)
    have hnearest := isNearest_divEven (n * 2 ^ j) hd
    rw [zpow_neg, zpow_natCast, div_inv_eq_mul, div_mul_eq_mul_div, Int.neg_neg]
    rwa [Nat.cast_mul, Nat.cast_pow, Nat.cast_ofNat] at hnearest

/-- A significand has no more bits than the format, and no fewer unless the exponent is the least
one. -/
theorem significand_bounds (hbits : 0 < format.bits) {n d : Nat} (hn : 0 < n) (hd : 0 < d) :
    (format.significand n d).1 ≤ 2 ^ format.bits ∧ format.lowest ≤ (format.significand n d).2 ∧
      ((format.significand n d).2 = format.lowest ∨
        2 ^ (format.bits - 1) ≤ (format.significand n d).1) := by
  have hnearest := format.isNearest_significand n hd
  obtain ⟨hlow, hhigh⟩ := binaryExponent_spec hn hd
  have hexponent : (format.significand n d).2 =
    max (binaryExponent n d - (format.bits - 1 : Nat)) format.lowest := rfl
  have hpos := two_zpow_pos (format.significand n d).2
  refine ⟨?_, by omega, ?_⟩
  · have hle : (n : Rat) / d / 2 ^ (format.significand n d).2 ≤
        ((2 ^ format.bits : Nat) : Int) := by
      rw [div_le_iff₀ hpos]
      calc (n : Rat) / d ≤ 2 ^ (binaryExponent n d + 1) := hhigh.le
        _ ≤ 2 ^ (format.bits + (format.significand n d).2) := two_zpow_le (by omega)
        _ = (((2 ^ format.bits : Nat) : Int) : Rat) * 2 ^ (format.significand n d).2 := by
          rw [zpow_add₀ two_ne_zero, zpow_natCast, Int.cast_natCast, Nat.cast_pow, Nat.cast_ofNat]
    exact Int.ofNat_le.1 (hnearest.mono (.intCast _) hle)
  · by_cases hleast : (format.significand n d).2 = format.lowest
    · exact .inl hleast
    · have hge : (((2 ^ (format.bits - 1) : Nat) : Int) : Rat) ≤
          (n : Rat) / d / 2 ^ (format.significand n d).2 := by
        rw [le_div_iff₀ hpos]
        calc (((2 ^ (format.bits - 1) : Nat) : Int) : Rat) * 2 ^ (format.significand n d).2 =
            2 ^ ((format.bits - 1 : Nat) + (format.significand n d).2) := by
              rw [zpow_add₀ two_ne_zero, zpow_natCast, Int.cast_natCast, Nat.cast_pow,
                Nat.cast_ofNat]
          _ ≤ 2 ^ binaryExponent n d := two_zpow_le (by omega)
          _ ≤ (n : Rat) / d := hlow
      exact .inr (Int.ofNat_le.1 ((IsNearest.intCast _).mono hnearest hge))

/-- **Rounding to the nearest multiple of the spacing.** -/
theorem round_eq (q : Rat) :
    format.round q = roundEven (q / 2 ^ format.spacing q) * 2 ^ format.spacing q := by
  by_cases hzero : q.num = 0
  · rw [round, if_pos hzero, Rat.num_eq_zero.1 hzero, zero_div]
    exact (zero_mul _).symm
  · have hexponent : (format.significand q.num.natAbs q.den).2 = format.spacing q := rfl
    have hnearest := format.isNearest_significand q.num.natAbs q.den_pos
    rw [hexponent] at hnearest
    rw [round, if_neg hzero]
    dsimp only
    rw [hexponent, pow2_eq]
    congr 2
    refine IsNearest.unique ?_ (isNearest_roundEven _)
    split_ifs with hneg
    · have hopposite := hnearest.neg
      rwa [← neg_div, ← eq_neg_natAbs_div hneg] at hopposite
    · rwa [← eq_natAbs_div hneg] at hnearest

theorem round_of_pos {q : Rat} (h : 0 < q) : format.round q =
    (format.significand q.num.natAbs q.den).1 * 2 ^ (format.significand q.num.natAbs q.den).2 := by
  have hnonneg : ¬ q.num < 0 := not_lt.2 (Rat.num_nonneg.2 h.le)
  rw [round, if_neg (Rat.num_ne_zero.2 h.ne')]
  dsimp only
  rw [if_neg hnonneg, pow2_eq, Int.cast_natCast]

theorem round_neg (q : Rat) : format.round (-q) = -format.round q := by
  rw [round_eq, round_eq, spacing_neg, neg_div, roundEven_neg, Int.cast_neg, neg_mul]

/-- What is rounded is off by half the spacing at most. -/
theorem abs_round_sub_le (q : Rat) : |format.round q - q| ≤ 2 ^ format.spacing q / 2 := by
  have hpos := two_zpow_pos (format.spacing q)
  obtain ⟨hlower, hupper, -⟩ := isNearest_roundEven (q / 2 ^ format.spacing q)
  rw [le_div_iff₀ hpos] at hlower
  rw [div_le_iff₀ hpos] at hupper
  rw [round_eq, abs_le]
  constructor <;> linarith

variable {format} {p q x : Rat}

/-- Rounding moves a number below a power of two by half the spacing there at most. -/
theorem abs_round_sub_le_of_lt {k : Int} (hbits : 0 < format.bits)
    (hk : format.lowest ≤ k - format.bits) (h : |q| < 2 ^ k) :
    |format.round q - q| ≤ 2 ^ (k - format.bits) / 2 := by
  by_cases hzero : q = 0
  · have hround : format.round 0 = 0 := rfl
    rw [hzero, hround, sub_zero, abs_zero]
    exact (div_pos (two_zpow_pos _) two_pos).le
  · have hspacing : format.spacing q ≤ k - format.bits := by
      have hexponent := exponentOf_lt hzero h
      unfold spacing
      omega
    exact (format.abs_round_sub_le q).trans
      (div_le_div_of_nonneg_right (two_zpow_le hspacing) two_pos.le)

/-- **Relative error.** It is half a unit in the last place, unless the spacing is the least one. -/
theorem abs_round_sub_le_div (hbits : 0 < format.bits)
    (hq : 2 ^ (format.lowest + (format.bits - 1 : Nat)) ≤ |q|) :
    |format.round q - q| ≤ |q| / 2 ^ format.bits := by
  have hne : q ≠ 0 := abs_pos.1 ((two_zpow_pos _).trans_le hq)
  have hexponent : format.spacing q + format.bits - 1 = exponentOf q := by
    have hle := le_exponentOf hne hq
    unfold spacing
    omega
  have hunit : (2 : Rat) ^ format.spacing q / 2 = 2 ^ exponentOf q / 2 ^ format.bits := by
    rw [← hexponent, zpow_sub_one₀ two_ne_zero, zpow_add₀ two_ne_zero, zpow_natCast]
    field_simp
  calc |format.round q - q| ≤ 2 ^ format.spacing q / 2 := format.abs_round_sub_le q
    _ = 2 ^ exponentOf q / 2 ^ format.bits := hunit
    _ ≤ |q| / 2 ^ format.bits :=
      div_le_div_of_nonneg_right (exponentOf_spec hne).1 (pow_pos two_pos _).le

/-- Nothing is rounded up past a multiple of its spacing. -/
theorem round_le (hx : OnGrid (format.spacing q) x) (h : q ≤ x) : format.round q ≤ x := by
  obtain ⟨n, rfl⟩ := hx
  have hpos := two_zpow_pos (format.spacing q)
  rw [round_eq]
  refine mul_le_mul_of_nonneg_right (Int.cast_le.2 (roundEven_le ?_)) hpos.le
  rwa [div_le_iff₀ hpos]

theorem le_round (hx : OnGrid (format.spacing q) x) (h : x ≤ q) : x ≤ format.round q := by
  obtain ⟨n, rfl⟩ := hx
  have hpos := two_zpow_pos (format.spacing q)
  rw [round_eq]
  refine mul_le_mul_of_nonneg_right (Int.cast_le.2 (le_roundEven ?_)) hpos.le
  rwa [le_div_iff₀ hpos]

/-- A multiple of its spacing stays as it is. -/
theorem round_of_onGrid (h : OnGrid (format.spacing q) q) : format.round q = q :=
  le_antisymm (round_le h le_rfl) (le_round h le_rfl)

theorem round_nonneg (h : 0 ≤ q) : 0 ≤ format.round q :=
  le_round ⟨0, by rw [Int.cast_zero, zero_mul]⟩ h

theorem round_nonpos (h : q ≤ 0) : format.round q ≤ 0 :=
  round_le ⟨0, by rw [Int.cast_zero, zero_mul]⟩ h

theorem spacing_mono (hp : 0 < p) (h : p ≤ q) : format.spacing p ≤ format.spacing q := by
  have hq := hp.trans_le h
  have hexponent : exponentOf p ≤ exponentOf q := by
    refine le_exponentOf hq.ne' ?_
    rw [abs_of_pos hq]
    exact ((exponentOf_spec hp.ne').1.trans_eq (abs_of_pos hp)).trans h
  unfold spacing
  omega

theorem round_mono_of_pos (hp : 0 < p) (h : p ≤ q) : format.round p ≤ format.round q := by
  have hspacing : format.spacing p ≤ format.spacing q := spacing_mono hp h
  rcases hspacing.eq_or_lt with heq | hlt
  · rw [round_eq, round_eq, ← heq]
    refine mul_le_mul_of_nonneg_right (Int.cast_le.2 (roundEven_mono ?_)) (two_zpow_pos _).le
    exact div_le_div_of_nonneg_right h (two_zpow_pos _).le
  · -- The least power of two with the larger spacing lies between the two numbers.
    have hq := hp.trans_le h
    obtain ⟨hge, -⟩ := exponentOf_spec hq.ne'
    obtain ⟨-, hless⟩ := exponentOf_spec hp.ne'
    rw [abs_of_pos hq] at hge
    rw [abs_of_pos hp] at hless
    unfold spacing at hlt
    have hbelow : p ≤ 2 ^ exponentOf q := hless.le.trans (two_zpow_le (by omega))
    calc format.round p ≤ 2 ^ exponentOf q :=
          round_le (.zpow (by unfold spacing; omega)) hbelow
      _ ≤ format.round q := le_round (.zpow (by unfold spacing; omega)) hge

/-- **Rounding keeps the order.** -/
theorem round_mono (h : p ≤ q) : format.round p ≤ format.round q := by
  rcases lt_or_ge 0 p with hp | hp
  · exact round_mono_of_pos hp h
  · rcases lt_or_ge q 0 with hq | hq
    · have hopposite : format.round (-q) ≤ format.round (-p) :=
        round_mono_of_pos (neg_pos.2 hq) (neg_le_neg h)
      rwa [round_neg, round_neg, neg_le_neg_iff] at hopposite
    · exact (round_nonpos hp).trans (round_nonneg hq)

end BinaryFormat

end TypingTrace
