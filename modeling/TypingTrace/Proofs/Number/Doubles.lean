import Mathlib
import TypingTrace.Proofs.Number.Rounding

/-!
# The doubles among the rationals

**Theorem (`exactOf_nearest`).** The double that `nearest` gives stands for the number rounded to 53
significant bits.

**Theorem (`nearest_eq_none_iff`).** A rational has a nearest double exactly if its magnitude is
less than `doubleLimit`, which is half way between the largest double and `2 ^ 1024`.

**Theorem (`onGrid_of_exactOf`).** A double of magnitude `2 ^ e` or more is an integer multiple of
`2 ^ (e - 52)`.

Both directions go through words. A word that is neither an infinity nor a NaN is left as it is when
it is taken for a double (`toBits_ofBits`), and from the word of a significand and an exponent both
are read back (`IsWord.fields`).
-/

namespace TypingTrace

/-! ## Words -/

section Words

open Float.Model Float.Model.UnpackedFloat

/-- The exponent field of a word. -/
theorem toNat_unpackExponent (w : UInt64) :
    (@unpackExponent Format.binary64 w.toBitVec).toNat =
      w.toNat / Nat.pow 2 52 % Nat.pow 2 11 := by
  rw [unpackExponent, BitVec.toNat_cast, BitVec.extractLsb_toNat, Nat.shiftRight_eq_div_pow]
  rfl

/-- **Words of finite doubles.** -/
theorem toBits_ofBits {w : UInt64} (h : w.toNat / Nat.pow 2 52 % Nat.pow 2 11 ≠ 2047) :
    (Float.ofBits w).toBits = w := by
  have hfinite : ¬ @isNaNBits Format.binary64 w.toBitVec := by
    intro hnan
    rw [isNaNBits, decide_eq_true_iff] at hnan
    rw [← toNat_unpackExponent, hnan.1] at h
    exact h rfl
  exact UInt64.toBitVec_inj.1 ((UnpackedFloat.pack_unpack _).trans (if_neg hfinite))

end Words

/-! ## Values -/

/-- The value that `exactOf` puts together. -/
theorem scaled_eq (m e : Int) :
    (if 0 ≤ e then ((m * Nat.pow 2 e.toNat : Int) : Rat) else mkRat m (Nat.pow 2 (-e).toNat)) =
      m * 2 ^ e := by
  rw [← pow2_eq, pow2]
  split_ifs
  · rw [Int.cast_mul]
  · rw [Rat.mkRat_eq_div, Rat.mkRat_eq_div, Int.cast_one, mul_one_div]

/-- The significand of a word, with its sign. -/
def significandOf (bits : Nat) : Int :=
  let fraction : Nat := bits % Nat.pow 2 52
  let m : Nat :=
    if bits / Nat.pow 2 52 % Nat.pow 2 11 = 0 then fraction else Nat.pow 2 52 + fraction
  if bits / Nat.pow 2 63 = 1 then -m else m

/-- The exponent of a word. -/
def unitOf (bits : Nat) : Int :=
  let field : Nat := bits / Nat.pow 2 52 % Nat.pow 2 11
  (if field = 0 then 1 else field) - 1075

theorem exactOf_eq (x : Float) :
    exactOf x = if x.toBits.toNat / Nat.pow 2 52 % Nat.pow 2 11 = 2047 then none
      else some ((significandOf x.toBits.toNat : Rat) * 2 ^ unitOf x.toBits.toNat) := by
  unfold exactOf significandOf unitOf
  dsimp only
  rw [scaled_eq]

theorem significandOf_lt (bits : Nat) : |significandOf bits| < 2 ^ 53 := by
  have hpow : Nat.pow 2 52 = 2 ^ 52 := rfl
  unfold significandOf
  dsimp only
  rw [abs_lt, hpow]
  split_ifs <;> omega

theorem unitOf_bounds {bits : Nat} (h : bits / Nat.pow 2 52 % Nat.pow 2 11 ≠ 2047) :
    -1074 ≤ unitOf bits ∧ unitOf bits ≤ 971 := by
  have hlt : bits / Nat.pow 2 52 % Nat.pow 2 11 < 2 ^ 11 := Nat.mod_lt _ (by decide)
  unfold unitOf
  dsimp only
  split_ifs <;> omega

/-- **The values of doubles**: at most 53 bits, times a power of two. -/
theorem exists_of_exactOf {x : Float} {q : Rat} (h : exactOf x = some q) :
    ∃ e : Int, OnGrid e q ∧ |q| < 2 ^ (e + 53) ∧ -1074 ≤ e ∧ e ≤ 971 := by
  rw [exactOf_eq] at h
  split_ifs at h with hfield
  obtain rfl := Option.some.inj h
  refine ⟨_, ⟨_, rfl⟩, ?_, unitOf_bounds hfield⟩
  generalize unitOf x.toBits.toNat = e
  have hm := significandOf_lt x.toBits.toNat
  generalize significandOf x.toBits.toNat = m at hm ⊢
  calc |(m : Rat) * 2 ^ e| = ((|m| : Int) : Rat) * 2 ^ e := by
        rw [abs_mul, abs_of_pos (two_zpow_pos e), Int.cast_abs]
    _ < ((2 ^ 53 : Int) : Rat) * 2 ^ e :=
      mul_lt_mul_of_pos_right (Int.cast_lt.2 hm) (two_zpow_pos e)
    _ = 2 ^ (e + 53) := by
      rw [zpow_add₀ two_ne_zero, mul_comm]
      rfl

/-- **The spacing of doubles.** -/
theorem onGrid_of_exactOf {x : Float} {q : Rat} {e : Int} (h : exactOf x = some q)
    (hle : 2 ^ e ≤ |q|) : OnGrid (e - 52) q := by
  obtain ⟨k, hgrid, hlt, -, -⟩ := exists_of_exactOf h
  have := two_zpow_lt_iff.1 (hle.trans_lt hlt)
  exact hgrid.mono (by omega)

/-- **Integers of up to 53 bits** are not rounded. -/
theorem roundBinary_intCast {n : Int} (h : |n| < 2 ^ 53) : roundBinary n = n := by
  by_cases hzero : n = 0
  · rw [hzero]
    rfl
  · have hlt : |(n : Rat)| < 2 ^ (53 : Int) := by exact_mod_cast h
    have hexponent := exponentOf_lt (Int.cast_ne_zero.2 hzero) hlt
    apply BinaryFormat.round_of_onGrid
    apply OnGrid.intCast
    show max (exponentOf n - 52) (-1074) ≤ 0
    omega

/-! ## The nearest double -/

theorem pow_11 : Nat.pow 2 11 = 2048 := rfl

theorem pow_52 : Nat.pow 2 52 = 4503599627370496 := rfl

theorem pow_63 : Nat.pow 2 63 = 9223372036854775808 := rfl

/-- A significand with its exponent, the way a double holds them. -/
structure IsWord (m : Nat) (k : Int) : Prop where
  lt : m < Nat.pow 2 53
  least : -1074 ≤ k
  normal : k = -1074 ∨ Nat.pow 2 52 ≤ m

/-- The word of a significand and its exponent, without a sign. -/
def wordOf (m : Nat) (k : Int) : Nat :=
  if m < Nat.pow 2 52 then m else (k + 1075).toNat * Nat.pow 2 52 + (m - Nat.pow 2 52)

namespace IsWord

variable {m : Nat} {k : Int}

theorem wordOf_lt_iff (h : IsWord m k) : wordOf m k < 2047 * Nat.pow 2 52 ↔ k ≤ 971 := by
  obtain ⟨hlt, hleast, hnormal⟩ := h
  have h53 : Nat.pow 2 53 = 9007199254740992 := rfl
  unfold wordOf
  simp only [pow_52, h53] at *
  split_ifs <;> omega

/-- The fields of a word are those that it is put together from. -/
theorem fields (h : IsWord m k) (hk : k ≤ 971) {negative word : Nat} (hn : negative < 2)
    (hword : word = Nat.pow 2 63 * negative + wordOf m k) :
    word < 2 ^ 64 ∧ word / Nat.pow 2 52 % Nat.pow 2 11 ≠ 2047 ∧
      significandOf word = (if negative = 1 then -(m : Int) else m) ∧ unitOf word = k := by
  obtain ⟨hlt, hleast, hnormal⟩ := h
  have h53 : Nat.pow 2 53 = 9007199254740992 := rfl
  unfold wordOf at hword
  unfold significandOf unitOf
  simp only [pow_11, pow_52, h53, pow_63] at *
  by_cases hm : m < 4503599627370496
  · rw [if_pos hm] at hword
    have hfield : word / 4503599627370496 % 2048 = 0 := by omega
    have hfraction : word % 4503599627370496 = m := by omega
    have hsign : word / 9223372036854775808 = negative := by omega
    rw [hfield, hfraction, hsign]
    exact ⟨by omega, by decide, rfl, by show (1 : Int) - 1075 = k; omega⟩
  · rw [if_neg hm] at hword
    have hfield : word / 4503599627370496 % 2048 = (k + 1075).toNat := by omega
    have hfraction : word % 4503599627370496 = m - 4503599627370496 := by omega
    have hsign : word / 9223372036854775808 = negative := by omega
    have hne : (k + 1075).toNat ≠ 0 := by omega
    rw [hfield, hfraction, hsign, if_neg hne, if_neg hne]
    exact ⟨by omega, by omega, by rw [Nat.add_sub_cancel' (by omega)], by omega⟩

/-- The value of a word. -/
theorem exactOf_ofBits (h : IsWord m k) (hk : k ≤ 971) (negative : Prop) [Decidable negative] :
    exactOf (Float.ofBits (UInt64.ofNat
        (if negative then Nat.pow 2 63 + wordOf m k else wordOf m k))) =
      some (((if negative then -(m : Int) else m : Int) : Rat) * 2 ^ k) := by
  generalize hword : (if negative then Nat.pow 2 63 + wordOf m k else wordOf m k) = word
  have hsum : word = Nat.pow 2 63 * (if negative then 1 else 0) + wordOf m k := by
    split_ifs at hword ⊢ <;> omega
  obtain ⟨hlt, hfield, hm, hunit⟩ := h.fields hk (by split_ifs <;> decide) hsum
  have hbits : (UInt64.ofNat word).toNat = word := UInt64.toNat_ofNat_of_lt' hlt
  rw [exactOf_eq, toBits_ofBits (by rwa [hbits]), hbits, if_neg hfield, hm, hunit]
  by_cases hnegative : negative
  · rw [if_pos hnegative, if_pos hnegative, if_pos rfl]
  · rw [if_neg hnegative, if_neg hnegative, if_neg Nat.zero_ne_one]

end IsWord

/-- What rounding and `nearest` make of a rational: the same significand and exponent, unless the
exponent is too large for a word. -/
theorem nearest_eq {q : Rat} (h : q.num ≠ 0) : ∃ m k, IsWord m k ∧
    roundBinary q = ((if q.num < 0 then -(m : Int) else m : Int) : Rat) * 2 ^ k ∧
    nearest q = if wordOf m k < 2047 * Nat.pow 2 52 then
        some (Float.ofBits (UInt64.ofNat
          (if q.num < 0 then Nat.pow 2 63 + wordOf m k else wordOf m k)))
      else none := by
  have hbounds := binary64.significand_bounds (by decide) (Int.natAbs_pos.2 h) q.den_pos
  obtain ⟨hle, hleast, hnormal⟩ : (binary64.significand q.num.natAbs q.den).1 ≤ 2 ^ 53 ∧
      -1074 ≤ (binary64.significand q.num.natAbs q.den).2 ∧
      ((binary64.significand q.num.natAbs q.den).2 = -1074 ∨
        2 ^ 52 ≤ (binary64.significand q.num.natAbs q.den).1) := hbounds
  rw [roundBinary, BinaryFormat.round, nearest, if_neg h, if_neg h]
  dsimp only
  rw [pow2_eq]
  generalize (binary64.significand q.num.natAbs q.den).1 = m at *
  generalize (binary64.significand q.num.natAbs q.den).2 = k at *
  by_cases hcarry : m = 2 * Nat.pow 2 52
  · -- The significand has carried into a further bit.
    refine ⟨Nat.pow 2 52, k + 1, ⟨by decide, by omega, .inr le_rfl⟩, ?_, ?_⟩
    · rw [zpow_add_one₀ two_ne_zero, hcarry]
      split_ifs <;> push_cast <;> ring
    · rw [if_pos hcarry]
      rfl
  · refine ⟨m, k, ⟨?_, hleast, hnormal⟩, rfl, ?_⟩
    · rw [pow_52] at hcarry
      show m < 2 ^ 53
      omega
    · rw [if_neg hcarry]
      rfl

/-- **The nearest double** stands for the rounded number. -/
theorem exactOf_nearest {q : Rat} {x : Float} (h : nearest q = some x) :
    exactOf x = some (roundBinary q) := by
  by_cases hzero : q.num = 0
  · rw [nearest, if_pos hzero] at h
    obtain rfl := Option.some.inj h
    rw [Rat.num_eq_zero.1 hzero]
    decide +kernel
  · obtain ⟨m, k, hword, hround, hnearest⟩ := nearest_eq hzero
    rw [hnearest] at h
    by_cases hlt : wordOf m k < 2047 * Nat.pow 2 52
    · rw [if_pos hlt] at h
      obtain rfl := Option.some.inj h
      rw [hround, hword.exactOf_ofBits (hword.wordOf_lt_iff.1 hlt)]
    · rw [if_neg hlt] at h
      cases h

/-! ## The range of doubles -/

theorem abs_signed_mul (p : Prop) [Decidable p] (m : Nat) (k : Int) :
    |((if p then -(m : Int) else m : Int) : Rat) * 2 ^ k| = m * 2 ^ k := by
  rw [abs_mul, abs_of_pos (two_zpow_pos k)]
  congr 1
  split_ifs <;> simp

/-- A rational has no nearest double if it is rounded to `2 ^ 1024` or beyond. -/
theorem nearest_eq_none_iff_round (q : Rat) :
    nearest q = none ↔ 2 ^ (1024 : Int) ≤ |roundBinary q| := by
  by_cases hzero : q.num = 0
  · rw [nearest, if_pos hzero, Rat.num_eq_zero.1 hzero]
    have hround : roundBinary 0 = 0 := rfl
    simp [hround]
  · obtain ⟨m, k, hword, hround, hnearest⟩ := nearest_eq hzero
    rw [hnearest, hround, abs_signed_mul]
    by_cases hk : k ≤ 971
    · rw [if_pos (hword.wordOf_lt_iff.2 hk)]
      have hlt : (m : Rat) * 2 ^ k < 2 ^ (1024 : Int) := by
        calc (m : Rat) * 2 ^ k < ((2 ^ 53 : Nat) : Rat) * 2 ^ k :=
              mul_lt_mul_of_pos_right (Nat.cast_lt.2 hword.lt) (two_zpow_pos k)
          _ = 2 ^ (53 + k) := by
            rw [zpow_add₀ two_ne_zero, Nat.cast_pow]
            rfl
          _ ≤ 2 ^ (1024 : Int) := two_zpow_le (by omega)
      simpa using hlt
    · rw [if_neg fun hlt => hk (hword.wordOf_lt_iff.1 hlt)]
      have hge : (2 : Rat) ^ (1024 : Int) ≤ m * 2 ^ k := by
        calc (2 : Rat) ^ (1024 : Int) ≤ 2 ^ (52 + k) := two_zpow_le (by omega)
          _ = ((2 ^ 52 : Nat) : Rat) * 2 ^ k := by
            rw [zpow_add₀ two_ne_zero, Nat.cast_pow]
            rfl
          _ ≤ (m : Rat) * 2 ^ k := by
            refine mul_le_mul_of_nonneg_right (Nat.cast_le.2 ?_) (two_zpow_pos k).le
            exact hword.normal.resolve_left (by omega)
      simpa using hge

/-- The least magnitude without a nearest double, half way between the largest one and
`2 ^ 1024`. -/
def doubleLimit : Rat := pow2 1024 - pow2 970

theorem round_doubleLimit : roundBinary doubleLimit = pow2 1024 := by decide +kernel

theorem abs_round (format : BinaryFormat) (q : Rat) : |format.round q| = format.round |q| := by
  rcases le_total 0 q with h | h
  · rw [abs_of_nonneg h, abs_of_nonneg (BinaryFormat.round_nonneg h)]
  · rw [abs_of_nonpos h, abs_of_nonpos (BinaryFormat.round_nonpos h), BinaryFormat.round_neg]

/-- Rounding stays within powers of two. -/
theorem abs_round_le {format : BinaryFormat} {q : Rat} {e : Int} (hlowest : format.lowest ≤ e)
    (h : |q| < 2 ^ e) : |format.round q| ≤ 2 ^ e := by
  rw [abs_round]
  by_cases hzero : q = 0
  · rw [hzero, abs_zero]
    exact (two_zpow_pos e).le
  · have hexponent : exponentOf |q| < e :=
      exponentOf_lt (abs_ne_zero.2 hzero) (by rwa [abs_abs])
    have hspacing : format.spacing |q| ≤ e := max_le (by omega) hlowest
    exact BinaryFormat.round_le (.zpow hspacing) h.le

theorem round_lt_of_lt_doubleLimit {q : Rat} (hpos : 0 < q) (h : q < doubleLimit) :
    roundBinary q < 2 ^ (1024 : Int) := by
  have hlt : |q| < 2 ^ (1024 : Int) := by
    rw [abs_of_pos hpos, ← pow2_eq]
    exact h.trans (by decide +kernel)
  have hexponent : exponentOf q < 1024 := exponentOf_lt hpos.ne' hlt
  rcases (by omega : exponentOf q + 1 ≤ 1023 ∨ exponentOf q = 1023) with hsmall | hlarge
  · have hle : q ≤ 2 ^ (1023 : Int) := by
      rw [← abs_of_pos hpos]
      exact (exponentOf_spec hpos.ne').2.le.trans (two_zpow_le hsmall)
    have hspacing : binary64.spacing q ≤ 1023 := max_le (by omega) (by decide)
    exact (BinaryFormat.round_le (.zpow hspacing) hle).trans_lt (two_zpow_lt_iff.2 (by decide))
  · -- The spacing is `2 ^ 971`, and the number is less than half of it below `2 ^ 1024`.
    have hspacing : binary64.spacing q = 971 := by
      rw [BinaryFormat.spacing, hlarge]
      rfl
    have hlower := (isNearest_roundEven (q / 2 ^ (971 : Int))).lower
    have hquotient : q / 2 ^ (971 : Int) < (2 ^ 53 : Int) - 1 / 2 := by
      rw [div_lt_iff₀ (two_zpow_pos _), ← pow2_eq]
      exact h.trans_le (by decide +kernel)
    have hround : roundEven (q / 2 ^ (971 : Int)) < 2 ^ 53 :=
      Int.cast_lt.1 (by linarith : (roundEven (q / 2 ^ (971 : Int)) : Rat) < (2 ^ 53 : Int))
    rw [roundBinary, BinaryFormat.round_eq, hspacing]
    calc (roundEven (q / 2 ^ (971 : Int)) : Rat) * 2 ^ (971 : Int) <
          ((2 ^ 53 : Int) : Rat) * 2 ^ (971 : Int) :=
          mul_lt_mul_of_pos_right (Int.cast_lt.2 hround) (two_zpow_pos _)
      _ = 2 ^ (1024 : Int) := by
        rw [← pow2_eq, ← pow2_eq]
        decide +kernel

/-- **The range of doubles.** -/
theorem nearest_eq_none_iff (q : Rat) : nearest q = none ↔ doubleLimit ≤ |q| := by
  rw [nearest_eq_none_iff_round, roundBinary, abs_round, ← not_lt, ← not_lt, not_iff_not]
  constructor
  · intro h
    by_contra hge
    have hround : pow2 1024 ≤ binary64.round |q| :=
      round_doubleLimit.symm.le.trans (BinaryFormat.round_mono (not_lt.1 hge))
    rw [pow2_eq] at hround
    exact absurd hround (not_le.2 h)
  · intro h
    rcases (abs_nonneg q).eq_or_lt with hzero | hpos
    · rw [← hzero]
      exact two_zpow_pos _
    · exact round_lt_of_lt_doubleLimit hpos h

end TypingTrace
