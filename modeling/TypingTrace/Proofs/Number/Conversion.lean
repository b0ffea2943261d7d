import TypingTrace.Proofs.Number.Magnitude

/-!
# Conversion to another format

**Theorem (`placeOf_packed_inFormat`).** A number that is taken to a format goes to the number of
the format that is nearest by `BinaryFormat.round`. Where that one is as large as the power of two
above all numbers of the format, an infinity takes its place.

The conversion cuts the digits of a mantissa off one by one and keeps two bits of what is cut off.
These tell whether the rest is less than a half, a half or more (`roundedMantissa_shiftRight`), so
what is rounded is the significand (`first_shift`). A carry is taken back by one more shift, which
loses nothing (`isCanonical_shift`), and a number that is put the way a format holds it is read back
from its word unchanged (`unpack_pack_finite`).
-/

namespace TypingTrace

open Float.Model Float.Model.UnpackedFloat

/-! ## Digits cut off -/

/-- What is left when digits are cut off: the quotient, the first digit that is cut off, and whether
any other one was not zero. -/
theorem shiftRight_exact (m n : Nat) :
    (⟨m, false, false⟩ : ExtendedMantissa) >>> (n + 1) =
      ⟨m / 2 ^ (n + 1), m / 2 ^ n % 2 != 0, m % 2 ^ n != 0⟩ := by
  induction n with
  | zero =>
    show ExtendedMantissa.shiftRightOne ⟨m, false, false⟩ = _
    simp [ExtendedMantissa.shiftRightOne, Nat.mod_one]
  | succ n ih =>
    show ((⟨m, false, false⟩ : ExtendedMantissa) >>> (n + 1)).shiftRightOne = _
    have hrest : m % 2 ^ (n + 1) = m % 2 ^ n + 2 ^ n * (m / 2 ^ n % 2) := Nat.mod_pow_succ
    rw [ih, ExtendedMantissa.shiftRightOne, hrest, Nat.div_div_eq_div_mul, ← pow_succ]
    congr 1
    rw [Bool.eq_iff_iff]
    simp
    tauto

/-- **Rounding of a mantissa.** The two residual digits say on which side of a half the rest is. -/
theorem roundedMantissa_shiftRight (m n : Nat) :
    ((⟨m, false, false⟩ : ExtendedMantissa) >>> n).roundedMantissa = divEven m (2 ^ n) := by
  cases n with
  | zero =>
    show m = divEven m 1
    simp [divEven, Nat.mod_one]
  | succ n =>
    have hrest : m % 2 ^ (n + 1) = m % 2 ^ n + 2 ^ n * (m / 2 ^ n % 2) := Nat.mod_pow_succ
    have hlt : m % 2 ^ n < 2 ^ n := Nat.mod_lt m (Nat.two_pow_pos n)
    have hpow : 2 ^ (n + 1) = 2 * 2 ^ n := by rw [pow_succ, mul_comm]
    rw [shiftRight_exact]
    unfold divEven
    dsimp only
    rw [hrest]
    rcases Nat.mod_two_eq_zero_or_one (m / 2 ^ n) with hround | hround
    · -- The rest is less than a half.
      rw [hround, if_pos (by omega)]
      cases m % 2 ^ n != 0 <;> rfl
    · rw [hround, if_neg (by omega)]
      by_cases hsticky : m % 2 ^ n = 0
      · rw [if_neg (by omega), hsticky]
        rfl
      · rw [if_pos (by omega), bne_iff_ne.2 hsticky]
        rfl

/-! ## Rounding -/

/-- The number of significant bits and the least spacing of a format. -/
def binaryFormat (spec : Format) : BinaryFormat := ⟨spec.mantissaBits, spec.minExponent⟩

variable {spec : Format} {m : Nat} {e : Int}

/-- The exponent that a number is rounded to is that of the spacing around it. -/
theorem targetExponent_eq_spacing (hm : 0 < m) (e : Int) :
    spec.targetExponent (totalExponent m e) = (binaryFormat spec).spacing (m * 2 ^ e) := by
  have hbits : (spec.mantissaBits : Int) = 1 + spec.mantissaBitsWithoutImplicit := by
    unfold Format.mantissaBits
    push_cast
    rfl
  have hpred : spec.mantissaBits - 1 = spec.mantissaBitsWithoutImplicit :=
    Nat.add_sub_cancel_left 1 _
  rw [BinaryFormat.spacing, exponentOf_mul_zpow hm]
  show max _ _ = max _ spec.minExponent
  show max (totalExponent m e - spec.mantissaBits) _ =
    max (totalExponent m e - 1 - (spec.mantissaBits - 1 : Nat)) _
  rw [hpred, hbits]
  congr 1
  omega

/-- A mantissa and an exponent the way a format holds them. -/
structure IsCanonical (spec : Format) (m : Nat) (e : Int) : Prop where
  lt : m < 2 ^ spec.mantissaBits
  least : spec.minExponent ≤ e
  normal : e = spec.minExponent ∨ 2 ^ spec.mantissaBitsWithoutImplicit ≤ m

/-- A rounded mantissa is put into its format by at most one more shift, which cuts off nothing but
a zero. -/
theorem isCanonical_shift (hle : m ≤ 2 ^ spec.mantissaBits) (hleast : spec.minExponent ≤ e)
    (hnormal : e = spec.minExponent ∨ 2 ^ spec.mantissaBitsWithoutImplicit ≤ m) :
    let shifted := shiftToTargetExponent spec m e .exact
    IsCanonical spec shifted.1.mantissa shifted.2 ∧
      (shifted.1.mantissa * 2 ^ shifted.2 : Rat) = m * 2 ^ e := by
  intro shifted
  have hmantissa : shifted.1.mantissa =
      m / 2 ^ (spec.targetExponent (totalExponent m e) - e).toNat := by
    show (_ >>> _ : ExtendedMantissa).mantissa = _
    rw [mantissa_shiftRight, mantissa_ofMantissaAndAccuracy]
  have hexponent : shifted.2 = e + (spec.targetExponent (totalExponent m e) - e).toNat := rfl
  rcases hle.lt_or_eq with hlt | rfl
  · have hlog : m.log2 < spec.mantissaBits := by
      rcases Nat.eq_zero_or_pos m with rfl | hm
      · exact Nat.lt_of_lt_of_le (by decide) (Nat.le_add_right 1 _)
      · exact log2_lt_of_lt hm hlt
    have hstay : (spec.targetExponent (totalExponent m e) - e).toNat = 0 := by
      unfold Format.targetExponent totalExponent
      omega
    rw [hstay] at hmantissa hexponent
    rw [hmantissa, hexponent]
    simp [hlt, hleast, hnormal, IsCanonical.mk]
  · -- A carry has made the mantissa a power of two, of one bit too many.
    have hstep : (spec.targetExponent (totalExponent (2 ^ spec.mantissaBits) e) - e).toNat = 1 := by
      unfold Format.targetExponent totalExponent
      rw [Nat.log2_two_pow]
      omega
    have hhalf : 2 ^ spec.mantissaBits / 2 ^ 1 = 2 ^ spec.mantissaBitsWithoutImplicit := by
      rw [Format.mantissaBits, Nat.add_comm, pow_succ, pow_one, Nat.mul_div_cancel _ two_pos]
    rw [hstep] at hmantissa hexponent
    rw [hmantissa, hexponent, hhalf]
    refine ⟨⟨?_, ?_, .inr le_rfl⟩, ?_⟩
    · exact Nat.pow_lt_pow_right (by decide) (Nat.lt_add_of_pos_left Nat.one_pos)
    · omega
    · rw [Format.mantissaBits, Nat.add_comm 1, Nat.cast_pow, Nat.cast_pow, pow_succ, Nat.cast_one,
        zpow_add_one₀ two_ne_zero]
      push_cast
      ring

/-- A rounded number: the one of the format that is nearest, or zero. -/
def IsRounding (spec : Format) (sign : Sign) (q : Rat) (rounded : UnpackedFloat) : Prop :=
  ((binaryFormat spec).round q = 0 ∧ rounded = .zero sign) ∨
    ∃ m e hm, rounded = .finite sign m e hm ∧ IsCanonical spec m e ∧
      (binaryFormat spec).round q = m * 2 ^ e

/-- The first shift cuts a mantissa down to the spacing, and rounds it. -/
theorem first_shift (hm : 0 < m) (he : e ≤ spec.targetExponent (totalExponent m e)) {q : Rat}
    (hq : q = m * 2 ^ e) :
    let first := shiftToTargetExponent spec m e .exact
    (first.1.roundedMantissa, first.2) =
      (binaryFormat spec).significand q.num.natAbs q.den := by
  intro first
  have hpos : 0 < q := hq ▸ mul_pos (Nat.cast_pos.2 hm) (two_zpow_pos e)
  have htarget : spec.targetExponent (totalExponent m e) =
      ((binaryFormat spec).significand q.num.natAbs q.den).2 :=
    (targetExponent_eq_spacing hm e).trans (hq ▸ rfl)
  obtain ⟨n, hn⟩ := Int.eq_ofNat_of_zero_le (Int.sub_nonneg_of_le he)
  have hshift : (spec.targetExponent (totalExponent m e) - e).toNat = n := by omega
  have hmantissa : first.1.roundedMantissa = divEven m (2 ^ n) := by
    rw [← roundedMantissa_shiftRight, ← hshift]
    rfl
  have hexponent : first.2 = e + (spec.targetExponent (totalExponent m e) - e).toNat := rfl
  have hunits : (q.num.natAbs : Rat) / q.den /
      2 ^ ((binaryFormat spec).significand q.num.natAbs q.den).2 =
      (m : Rat) / ((2 ^ n : Nat) : Rat) := by
    have hsum : ((binaryFormat spec).significand q.num.natAbs q.den).2 = n + e := by omega
    rw [natAbs_div_den, abs_of_pos hpos, hsum, zpow_add₀ two_ne_zero, zpow_natCast, hq,
      mul_div_mul_right _ _ (two_zpow_pos e).ne', Nat.cast_pow, Nat.cast_ofNat]
  have hnearest := (binaryFormat spec).isNearest_significand q.num.natAbs q.den_pos
  rw [hunits] at hnearest
  refine Prod.ext ?_ (by dsimp only; omega)
  rw [hmantissa]
  exact Int.ofNat_inj.1 ((isNearest_divEven m (Nat.two_pow_pos n)).unique hnearest)

theorem isRounding_roundWithAccuracy (sign : Sign) (hm : 0 < m)
    (he : e ≤ spec.targetExponent (totalExponent m e)) :
    IsRounding spec sign (m * 2 ^ e) (roundWithAccuracy spec sign m e .exact) := by
  have hpos : (0 : Rat) < m * 2 ^ e := mul_pos (Nat.cast_pos.2 hm) (two_zpow_pos e)
  have hfirst := first_shift hm he rfl
  have hround := (binaryFormat spec).round_of_pos hpos
  obtain ⟨hle, hleast, hnormal⟩ := (binaryFormat spec).significand_bounds
    (Nat.lt_add_right _ Nat.one_pos) (Int.natAbs_pos.2 (Rat.num_ne_zero.2 hpos.ne')) (Rat.den_pos _)
  rw [← hfirst] at hround hle hleast hnormal
  have hbits : (binaryFormat spec).bits - 1 = spec.mantissaBitsWithoutImplicit :=
    Nat.add_sub_cancel_left 1 _
  rw [hbits] at hnormal
  obtain ⟨hcanonical, hvalue⟩ := isCanonical_shift hle hleast hnormal
  rw [← hvalue] at hround
  unfold roundWithAccuracy
  generalize shiftToTargetExponent spec m e .exact = first at *
  dsimp only at *
  generalize shiftToTargetExponent spec first.1.roundedMantissa first.2 .exact = second at *
  by_cases hzero : second.1.mantissa = 0
  · left
    rw [dif_pos hzero]
    refine ⟨?_, rfl⟩
    rw [hround, hzero, Nat.cast_zero, zero_mul]
  · right
    rw [dif_neg hzero]
    exact ⟨_, _, _, rfl, hcanonical, hround⟩

/-- **Rounding of a number.** -/
theorem isRounding_round (sign : Sign) (hm : 0 < m) (e : Int) :
    IsRounding spec sign (m * 2 ^ e) (UnpackedFloat.round spec sign m e) := by
  generalize htarget : spec.targetExponent (totalExponent m e) = target
  have hm₀ : 0 < m <<< (e - target).toNat := by
    rw [Nat.shiftLeft_eq]
    exact Nat.mul_pos hm (Nat.two_pow_pos _)
  have hvalue : ((m <<< (e - target).toNat : Nat) * 2 ^ (e - (e - target).toNat) : Rat) =
      m * 2 ^ e := by
    rw [Nat.shiftLeft_eq, Nat.cast_mul, Nat.cast_pow, Nat.cast_ofNat, mul_assoc, ← zpow_natCast,
      ← zpow_add₀ two_ne_zero]
    congr 2
    omega
  have hsame : spec.targetExponent (totalExponent (m <<< (e - target).toNat)
      (e - (e - target).toNat)) = target := by
    rw [targetExponent_eq_spacing hm₀, hvalue, ← targetExponent_eq_spacing hm, htarget]
  have hrounding : IsRounding spec sign _ (roundWithAccuracy spec sign (m <<< (e - target).toNat)
      (e - (e - target).toNat) .exact) := isRounding_roundWithAccuracy sign hm₀ (by omega)
  rw [hvalue] at hrounding
  unfold UnpackedFloat.round decreaseExponent
  rwa [htarget]

/-! ## Packing -/

theorem unpack_packedInfinity (sign : Sign) :
    UnpackedFloat.unpack spec (packedInfinity spec sign) = .infinity sign := by
  simp [UnpackedFloat.unpack, packedInfinity]

/-- The word of a normal number, which leaves the leading digit out. -/
theorem unpack_normal (sign : Sign) (hm : 0 < m) {field : Nat} (hfield : 0 < field)
    (hroom : field + 1 < 2 ^ spec.exponentBits) (hge : 2 ^ spec.mantissaBitsWithoutImplicit ≤ m)
    (hlt : m < 2 ^ spec.mantissaBitsWithoutImplicit * 2) :
    UnpackedFloat.unpack spec (packComponents spec sign (.ofNat _ field) (.ofNat _ m)) =
      .finite sign m (field - (spec.exponentBias + spec.mantissaBitsWithoutImplicit)) hm := by
  have hnat : (BitVec.ofNat spec.exponentBits field).toNat = field :=
    (BitVec.toNat_ofNat _ _).trans (Nat.mod_eq_of_lt (by omega))
  have hones : BitVec.ofNat spec.exponentBits field ≠ -1#_ :=
    ne_neg_one spec (by rwa [hnat])
  have hzero : BitVec.ofNat spec.exponentBits field ≠ 0#_ := by
    intro h
    rw [h, BitVec.toNat_zero] at hnat
    omega
  have hrest : (BitVec.ofNat spec.mantissaBitsWithoutImplicit m).toNat =
      m - 2 ^ spec.mantissaBitsWithoutImplicit := by
    rw [BitVec.toNat_ofNat, Nat.mod_eq_sub_mod hge, Nat.mod_eq_of_lt (by omega)]
  have hwhole : (1#1 ++ BitVec.ofNat spec.mantissaBitsWithoutImplicit m).toNat = m := by
    rw [BitVec.toNat_append, ← Nat.shiftLeft_add_eq_or_of_lt (BitVec.isLt _), hrest,
      Nat.shiftLeft_eq]
    simp [hge]
  simp only [UnpackedFloat.unpack, unpackExponent_packComponents, unpackMantissa_packComponents,
    unpackSign_packComponents, Sign.ofBitVec_toBitVec, hones, hzero, if_false, hwhole, hnat]

/-- The word of a number below the least normal one. -/
theorem unpack_subnormal (sign : Sign) (hm : 0 < m)
    (hlt : m < 2 ^ spec.mantissaBitsWithoutImplicit) :
    UnpackedFloat.unpack spec (packComponents spec sign 0#_ (.ofNat _ m)) =
      .finite sign m spec.minExponent hm := by
  have hpow := two_le_pow spec
  have hones : 0#(spec.exponentBits) ≠ -1#_ := ne_neg_one spec (by rw [BitVec.toNat_zero]; omega)
  have hnat : (BitVec.ofNat spec.mantissaBitsWithoutImplicit m).toNat = m :=
    (BitVec.toNat_ofNat _ _).trans (Nat.mod_eq_of_lt hlt)
  have hzero : BitVec.ofNat spec.mantissaBitsWithoutImplicit m ≠ 0#_ := by
    intro h
    rw [h, BitVec.toNat_zero] at hnat
    omega
  simp only [UnpackedFloat.unpack, unpackExponent_packComponents, unpackMantissa_packComponents,
    unpackSign_packComponents, Sign.ofBitVec_toBitVec, hones, hzero, if_false, if_true, dite_false,
    hnat, BitVec.toNat_zero, minExponent_eq]
  congr 1
  omega

/-- Whether an exponent fits into its field, in which all ones are for the infinities. -/
def FitsField (spec : Format) (e : Int) : Prop :=
  e + spec.exponentBias + spec.mantissaBitsWithoutImplicit + 1 <
    ((2 ^ spec.exponentBits : Nat) : Int)

/-- **Unpacking undoes packing.** -/
theorem unpack_pack_finite (h : IsCanonical spec m e) (hfits : FitsField spec e) (sign : Sign)
    (hm : 0 < m) :
    UnpackedFloat.unpack spec (UnpackedFloat.pack spec (.finite sign m e hm)) =
      .finite sign m e hm := by
  obtain ⟨hlt, hleast, hnormal⟩ := h
  have hmin := minExponent_eq spec
  have hbits : spec.mantissaBits = spec.mantissaBitsWithoutImplicit + 1 := Nat.add_comm 1 _
  unfold FitsField at hfits
  rw [hbits] at hlt
  unfold UnpackedFloat.pack
  dsimp only
  rw [if_neg (by omega)]
  by_cases hlog : m.log2 + 1 = spec.mantissaBits
  · have hge : 2 ^ spec.mantissaBitsWithoutImplicit ≤ m := by
      rw [show spec.mantissaBitsWithoutImplicit = m.log2 by omega]
      exact Nat.log2_self_le hm.ne'
    rw [if_pos hlog, unpack_normal sign hm (by omega) (by omega) hge (by rwa [← pow_succ])]
    congr 1
    omega
  · have hsmall : m < 2 ^ spec.mantissaBitsWithoutImplicit := by
      have hlog' := log2_lt_of_lt hm hlt
      exact Nat.lt_log2_self.trans_le (Nat.pow_le_pow_right (by decide) (by omega))
    rw [if_neg hlog, unpack_subnormal sign hm hsmall, hnormal.resolve_right (not_le.2 hsmall)]

/-- The exponent of the least power of two that is too large for a format. -/
def topExponent (spec : Format) : Int :=
  ((2 ^ spec.exponentBits : Nat) : Int) - 1 - spec.exponentBias

/-- The exponents that fit are those of the numbers below a power of two. -/
theorem fitsField_iff (hspec : 2 ≤ spec.exponentBits) (h : IsCanonical spec m e) :
    FitsField spec e ↔ (m * 2 ^ e : Rat) < 2 ^ topExponent spec := by
  obtain ⟨hlt, -, hnormal⟩ := h
  have hmin := minExponent_eq spec
  have hroom : 2 ^ 2 ≤ 2 ^ spec.exponentBits := Nat.pow_le_pow_right (by decide) hspec
  have hbits : (spec.mantissaBits : Int) = spec.mantissaBitsWithoutImplicit + 1 := by
    rw [Format.mantissaBits, Nat.cast_add, Nat.cast_one, Int.add_comm]
  unfold FitsField topExponent
  constructor
  · intro hfits
    calc (m * 2 ^ e : Rat) < ((2 ^ spec.mantissaBits : Nat) : Rat) * 2 ^ e :=
          mul_lt_mul_of_pos_right (Nat.cast_lt.2 hlt) (two_zpow_pos e)
      _ = 2 ^ (spec.mantissaBits + e) := by
        rw [zpow_add₀ two_ne_zero, zpow_natCast, Nat.cast_pow, Nat.cast_ofNat]
      _ ≤ 2 ^ (((2 ^ spec.exponentBits : Nat) : Int) - 1 - spec.exponentBias) :=
        two_zpow_le (by omega)
  · intro hsmall
    by_contra hlarge
    have hge : 2 ^ spec.mantissaBitsWithoutImplicit ≤ m := hnormal.resolve_left (by omega)
    have hle : (2 : Rat) ^ (spec.mantissaBitsWithoutImplicit + e) ≤ m * 2 ^ e := by
      rw [zpow_add₀ two_ne_zero, zpow_natCast]
      refine mul_le_mul_of_nonneg_right ?_ (two_zpow_pos e).le
      exact_mod_cast hge
    have := two_zpow_lt_iff.1 (hle.trans_lt hsmall)
    omega

/-! ## Places -/

/-- Where a number lies: below, among or above the rationals. -/
def placeOf : UnpackedFloat → Option (Int × Rat)
  | .notANumber => none
  | .infinity sign => some (sign.apply 1, 0)
  | .zero _ => some (0, 0)
  | .finite sign m e _ => some (0, sign.apply m * pow2 e)

/-- A rational as far as a format reaches. -/
def clip (limit q : Rat) : Int × Rat :=
  if |q| < limit then (0, q) else (if q < 0 then -1 else 1, 0)

/-- The place to which a number of a place goes when it is taken to a format. -/
def roundPlace (spec : Format) : Int × Rat → Int × Rat
  | (0, q) => clip (2 ^ topExponent spec) ((binaryFormat spec).round q)
  | p => p

/-- A rational with a sign. -/
def withSign : Sign → Rat → Rat
  | .negative, q => -q
  | .positive, q => q

theorem apply_mul (sign : Sign) (m : Nat) (q : Rat) :
    ((sign.apply m : Int) : Rat) * q = withSign sign (m * q) := by
  cases sign <;> simp [Sign.apply, withSign]

theorem round_withSign (format : BinaryFormat) (sign : Sign) (q : Rat) :
    format.round (withSign sign q) = withSign sign (format.round q) := by
  cases sign
  · exact format.round_neg q
  · rfl

theorem clip_withSign {limit q : Rat} (sign : Sign) (hlimit : 0 < limit) (hq : 0 ≤ q) :
    clip limit (withSign sign q) =
      if q < limit then (0, withSign sign q) else (sign.apply 1, 0) := by
  have habs : |withSign sign q| = q := by cases sign <;> simp [withSign, abs_of_nonneg hq]
  rw [clip, habs]
  by_cases h : q < limit
  · rw [if_pos h, if_pos h]
  · have hpos : 0 < q := hlimit.trans_le (not_lt.1 h)
    rw [if_neg h, if_neg h]
    cases sign <;> simp [withSign, Sign.apply, hpos, hpos.not_gt]

/-- What is packed of a rounded number. -/
theorem placeOf_packed_rounding (hspec : 2 ≤ spec.exponentBits) {sign : Sign} {q : Rat}
    {rounded : UnpackedFloat} (hq : 0 ≤ q) (h : IsRounding spec sign q rounded) :
    placeOf (UnpackedFloat.unpack spec (UnpackedFloat.pack spec rounded)) =
      some (clip (2 ^ topExponent spec) (withSign sign ((binaryFormat spec).round q))) := by
  rw [clip_withSign sign (two_zpow_pos _) (BinaryFormat.round_nonneg hq)]
  rcases h with ⟨hzero, rfl⟩ | ⟨m, e, hm, rfl, hcanonical, hvalue⟩
  · show placeOf (UnpackedFloat.unpack spec (packedZero spec sign)) = _
    rw [unpack_packedZero, hzero, if_pos (two_zpow_pos _)]
    cases sign <;> simp [placeOf, withSign]
  · rw [hvalue]
    by_cases hfits : FitsField spec e
    · rw [unpack_pack_finite hcanonical hfits, if_pos ((fitsField_iff hspec hcanonical).1 hfits),
        placeOf, apply_mul, pow2_eq]
    · have hinfinite : UnpackedFloat.pack spec (.finite sign m e hm) =
          packedInfinity spec sign := by
        unfold FitsField at hfits
        unfold UnpackedFloat.pack
        exact if_pos (by omega)
      rw [hinfinite, unpack_packedInfinity,
        if_neg fun hlt => hfits ((fitsField_iff hspec hcanonical).2 hlt), placeOf]

/-- **Conversion.** A number that is taken to a format goes to the nearest number of the format, or
to an infinity. -/
theorem placeOf_packed_inFormat (hspec : 2 ≤ spec.exponentBits) {a : UnpackedFloat} {p : Int × Rat}
    (h : placeOf a = some p) :
    placeOf (UnpackedFloat.unpack spec (UnpackedFloat.pack spec (inFormat spec a))) =
      some (roundPlace spec p) := by
  cases a with
  | notANumber => cases h
  | infinity sign =>
    obtain rfl := Option.some.inj h
    show placeOf (UnpackedFloat.unpack spec (packedInfinity spec sign)) = _
    rw [unpack_packedInfinity]
    cases sign <;> rfl
  | zero sign =>
    obtain rfl := Option.some.inj h
    show placeOf (UnpackedFloat.unpack spec (packedZero spec sign)) = _
    have hround : (binaryFormat spec).round 0 = 0 := rfl
    rw [unpack_packedZero, roundPlace, hround, clip, abs_zero, if_pos (two_zpow_pos _), placeOf]
  | finite sign m e hm =>
    obtain rfl := Option.some.inj h
    have hnonneg : (0 : Rat) ≤ m * 2 ^ e := mul_nonneg (Nat.cast_nonneg m) (two_zpow_pos e).le
    rw [roundPlace, apply_mul, pow2_eq, round_withSign]
    exact placeOf_packed_rounding hspec hnonneg (isRounding_round sign hm e)

end TypingTrace
