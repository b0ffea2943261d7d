import TypingTrace.Number.Scalar
import TypingTrace.Proofs.Number.Doubles

/-!
# The magnitude of quotients

A floating-point number is held as a sign, a significand and an exponent. How many digits these have
together says how large the number is (`IsUnder`), and the exponent alone whether it fits into its
field (`HasExponentTo`).

**Theorem (`hasExponentTo_div`).** A quotient by one or more has no more digits than the dividend,
up to one that rounding adds. The same holds of a number that is taken to another format
(`hasExponentTo_inFormat`).

**Theorem (`isUnder_unpack_pack`).** A number whose exponent fits into its field is packed as a
number of that magnitude, and not as an infinity.

So division and conversion keep a number finite if the format has room for one digit more
(`Covers`). The theorems are about any format and are applied to both precisions in the end.
-/

namespace TypingTrace

open Float.Model Float.Model.UnpackedFloat

/-! ## Magnitudes -/

/-- A finite number of magnitude less than `2 ^ k`. -/
def IsUnder (k : Int) : UnpackedFloat → Prop
  | .zero _ => True
  | .finite _ m e _ => totalExponent m e ≤ k
  | _ => False

/-- An infinity, or a number of magnitude one or more. -/
def IsOneOrMore : UnpackedFloat → Prop
  | .infinity _ => True
  | .finite _ m e _ => 1 ≤ totalExponent m e
  | _ => False

/-- A finite number that is written with an exponent of at most `limit`. -/
def HasExponentTo (limit : Int) : UnpackedFloat → Prop
  | .zero _ => True
  | .finite _ _ e _ => e ≤ limit
  | _ => False

theorem log2_mono {m n : Nat} (h : m ≤ n) : m.log2 ≤ n.log2 := by
  rw [Nat.log2_eq_log_two, Nat.log2_eq_log_two]
  exact Nat.log_mono_right h

theorem log2_succ_le (m : Nat) : (m + 1).log2 ≤ m.log2 + 1 := by
  rw [← Nat.lt_succ_iff, Nat.log2_lt (by omega)]
  have hm : m < 2 ^ (m.log2 + 1) := Nat.lt_log2_self
  have hpow : 2 ^ (m.log2 + 1).succ = 2 * 2 ^ (m.log2 + 1) := by rw [pow_succ, mul_comm]
  omega

theorem log2_mul_le {m : Nat} (hm : m ≠ 0) (s : Nat) : (m * 2 ^ s).log2 ≤ m.log2 + s := by
  rw [← Nat.lt_succ_iff, Nat.log2_lt (Nat.mul_ne_zero hm (pow_ne_zero s two_ne_zero)),
    Nat.succ_eq_add_one, Nat.add_right_comm, pow_add]
  exact Nat.mul_lt_mul_of_pos_right Nat.lt_log2_self (Nat.two_pow_pos s)

theorem totalExponent_div_le (m s : Nat) (e : Int) :
    totalExponent (m / 2 ^ s) (e + s) ≤ max (totalExponent m e) (e + s + 1) := by
  unfold totalExponent
  by_cases hzero : m / 2 ^ s = 0
  · rw [hzero, Nat.log2_zero]
    omega
  · have hpow : 2 ^ ((m / 2 ^ s).log2 + s) ≤ m := by
      rw [pow_add]
      exact Nat.mul_le_of_le_div _ _ _ ((Nat.le_log2 hzero).1 le_rfl)
    have hm : m ≠ 0 := by
      rintro rfl
      simp at hzero
    have := (Nat.le_log2 hm).2 hpow
    omega

/-- The digits of a number, from its value. -/
theorem exponentOf_mul_zpow {m : Nat} (hm : 0 < m) (e : Int) :
    exponentOf (m * 2 ^ e) = totalExponent m e - 1 := by
  have hpos : (0 : Rat) < m * 2 ^ e := mul_pos (Nat.cast_pos.2 hm) (two_zpow_pos e)
  have hlow : (2 : Rat) ^ ((m.log2 : Int) + e) ≤ m * 2 ^ e := by
    rw [zpow_add₀ two_ne_zero, zpow_natCast]
    refine mul_le_mul_of_nonneg_right ?_ (two_zpow_pos e).le
    exact_mod_cast Nat.log2_self_le hm.ne'
  have hhigh : (m * 2 ^ e : Rat) < 2 ^ ((m.log2 + 1 : Nat) + e : Int) := by
    rw [zpow_add₀ two_ne_zero, zpow_natCast]
    refine mul_lt_mul_of_pos_right ?_ (two_zpow_pos e)
    exact_mod_cast Nat.lt_log2_self
  have hle := le_exponentOf hpos.ne' (hlow.trans_eq (abs_of_pos hpos).symm)
  have hlt := exponentOf_lt hpos.ne' ((abs_of_pos hpos).trans_lt hhigh)
  unfold totalExponent
  push_cast at hlt
  omega

theorem one_le_totalExponent {m : Nat} {e : Int} (h : (1 : Rat) ≤ m * 2 ^ e) :
    1 ≤ totalExponent m e := by
  have hpos : (0 : Rat) < m * 2 ^ e := zero_lt_one.trans_le h
  have hm : 0 < m := Nat.cast_pos.1 (pos_of_mul_pos_left hpos (two_zpow_pos e).le)
  have hle : 0 ≤ exponentOf (m * 2 ^ e) :=
    le_exponentOf hpos.ne' (by rwa [zpow_zero, abs_of_pos hpos])
  rw [exponentOf_mul_zpow hm] at hle
  omega

/-! ## Rounding -/

theorem mantissa_shiftRight (em : ExtendedMantissa) (n : Nat) :
    (em >>> n).mantissa = em.mantissa / 2 ^ n := by
  induction n with
  | zero => exact (Nat.div_one _).symm
  | succ n ih =>
    show (em >>> n).mantissa / 2 = _
    rw [ih, Nat.div_div_eq_div_mul, pow_succ]

theorem mantissa_ofMantissaAndAccuracy (m : Nat) (accuracy : Accuracy) :
    (ExtendedMantissa.ofMantissaAndAccuracy m accuracy).mantissa = m := by
  rcases accuracy with _ | (_ | _ | _) <;> rfl

theorem roundedMantissa_le (em : ExtendedMantissa) : em.roundedMantissa ≤ em.mantissa + 1 := by
  rcases em with ⟨m, _ | _, _ | _⟩
  · exact Nat.le_succ m
  · exact Nat.le_succ m
  · show m + m % 2 ≤ m + 1
    omega
  · exact le_rfl

/-- The exponent after a shift, and how many digits are left. -/
theorem shiftToExponent_spec (m : Nat) (e : Int) (accuracy : Accuracy) (target : Int) :
    let shifted := shiftToExponent m e accuracy target
    shifted.2 = max e target ∧
      totalExponent shifted.1.mantissa shifted.2 ≤ max (totalExponent m e) (shifted.2 + 1) := by
  intro shifted
  have hmantissa : shifted.1.mantissa = m / 2 ^ (target - e).toNat := by
    show (_ >>> _ : ExtendedMantissa).mantissa = _
    rw [mantissa_shiftRight, mantissa_ofMantissaAndAccuracy]
  have hexponent : shifted.2 = e + (target - e).toNat := rfl
  rw [hmantissa, hexponent]
  exact ⟨by omega, totalExponent_div_le m _ e⟩

variable (spec : Format) {limit : Int}

/-- What one shift makes of bounds on the exponent and on the magnitude. -/
theorem shiftToTargetExponent_le {m : Nat} {e bound : Int} (accuracy : Accuracy) (he : e ≤ limit)
    (htotal : totalExponent m e ≤ bound) (hbound : bound ≤ limit + spec.mantissaBits)
    (hmin : spec.minExponent ≤ limit) :
    let shifted := shiftToTargetExponent spec m e accuracy
    shifted.2 ≤ limit ∧ totalExponent shifted.1.mantissa shifted.2 ≤ max bound (limit + 1) := by
  intro shifted
  obtain ⟨hexponent, hdigits⟩ :=
    shiftToExponent_spec m e accuracy (spec.targetExponent (totalExponent m e))
  have htarget : spec.targetExponent (totalExponent m e) ≤ limit :=
    max_le (by omega) hmin
  have hshifted : shifted.2 = max e (spec.targetExponent (totalExponent m e)) := hexponent
  refine ⟨by omega, hdigits.trans (max_le_max htotal ?_)⟩
  exact Int.add_le_add_right (hshifted.le.trans (max_le he htarget)) 1

/-- Rounding adds at most one digit. -/
theorem hasExponentTo_round {m : Nat} {e : Int} (sign : Sign) (accuracy : Accuracy)
    (he : e ≤ limit) (htotal : totalExponent m e ≤ limit + spec.mantissaBits)
    (hmin : spec.minExponent ≤ limit) :
    HasExponentTo (limit + 1) (roundWithAccuracy spec sign m e accuracy) := by
  have hbits : 1 ≤ spec.mantissaBits := Nat.le_add_right 1 _
  -- Rounding up may carry into one digit more, which the second shift takes away again.
  obtain ⟨he₁, htotal₁⟩ := shiftToTargetExponent_le spec accuracy he htotal le_rfl hmin
  unfold roundWithAccuracy
  generalize shiftToTargetExponent spec m e accuracy = first at he₁ htotal₁ ⊢
  have hrounded :
      totalExponent first.1.roundedMantissa first.2 ≤ limit + spec.mantissaBits + 1 := by
    have hlog := (log2_mono (roundedMantissa_le first.1)).trans (log2_succ_le _)
    unfold totalExponent at htotal₁ ⊢
    omega
  obtain ⟨he₂, -⟩ := shiftToTargetExponent_le spec .exact (by omega : first.2 ≤ limit + 1) hrounded
    (by omega) (by omega)
  show HasExponentTo _ (if h : _ then _ else _)
  split_ifs
  · trivial
  · exact he₂

/-! ## Quotients -/

theorem log2_add_le {a b c : Nat} (ha : a ≠ 0) (hb : b ≠ 0) (h : a * b ≤ c) :
    a.log2 + b.log2 ≤ c.log2 := by
  have hc : c ≠ 0 := (Nat.pos_of_ne_zero (Nat.mul_ne_zero ha hb)).trans_le h |>.ne'
  rw [Nat.le_log2 hc, pow_add]
  exact (Nat.mul_le_mul (Nat.log2_self_le ha) (Nat.log2_self_le hb)).trans h

/-- The digits of a quotient, before it is rounded. -/
theorem divCore_le {m₁ m₂ : Nat} {e₁ e₂ : Int} (h₁ : 0 < m₁) (h₂ : 0 < m₂)
    (hdividend : totalExponent m₁ e₁ ≤ limit + spec.mantissaBits)
    (hdivisor : 1 ≤ totalExponent m₂ e₂) (hmin : spec.minExponent ≤ limit) :
    let quotient := divCore spec m₁ e₁ m₂ e₂
    quotient.2.1 ≤ limit ∧
      totalExponent quotient.1 quotient.2.1 ≤ limit + spec.mantissaBits := by
  have hbits : 1 ≤ spec.mantissaBits := Nat.le_add_right 1 _
  have htarget : spec.targetExponent (totalExponent m₁ e₁ - totalExponent m₂ e₂) ≤ limit :=
    max_le (by omega) hmin
  unfold divCore
  dsimp only
  generalize spec.targetExponent (totalExponent m₁ e₁ - totalExponent m₂ e₂) = target at *
  refine ⟨(min_le_right _ _).trans htarget, ?_⟩
  unfold totalExponent at *
  rw [Nat.shiftLeft_eq]
  generalize hshift : (e₁ - e₂ - min (e₁ - e₂) target).toNat = shift
  by_cases hzero : m₁ * 2 ^ shift / m₂ = 0
  · rw [hzero, Nat.log2_zero]
    omega
  · -- The quotient is cut down: its digits and the divisor's are no more than the dividend's.
    have hlog := log2_add_le hzero h₂.ne' (Nat.div_mul_le_self (m₁ * 2 ^ shift) m₂)
    have hshifted := log2_mul_le h₁.ne' shift
    omega

/-- **Quotients by one or more** are no larger than the dividend, up to rounding. -/
theorem hasExponentTo_div {a b : UnpackedFloat} (ha : IsUnder (limit + spec.mantissaBits) a)
    (hb : IsOneOrMore b) (hmin : spec.minExponent ≤ limit) :
    HasExponentTo (limit + 1) (div spec a b) := by
  cases b with
  | infinity => cases a <;> trivial
  | notANumber | zero => cases hb
  | finite sign₂ m₂ e₂ h₂ =>
    cases a with
    | zero => trivial
    | infinity | notANumber => cases ha
    | finite sign₁ m₁ e₁ h₁ =>
      obtain ⟨hexponent, htotal⟩ := divCore_le spec h₁ h₂ ha hb hmin
      exact hasExponentTo_round spec _ _ hexponent htotal hmin

/-- **Another format** changes the magnitude by rounding only. -/
theorem hasExponentTo_inFormat {a : UnpackedFloat} (ha : IsUnder (limit + spec.mantissaBits) a)
    (hmin : spec.minExponent ≤ limit) : HasExponentTo (limit + 1) (inFormat spec a) := by
  cases a with
  | zero => trivial
  | infinity | notANumber => cases ha
  | finite sign m e hm =>
    have hbits : totalExponent m e ≤ limit + spec.mantissaBits := ha
    have htarget : spec.targetExponent (totalExponent m e) ≤ limit := max_le (by omega) hmin
    show HasExponentTo _ (roundWithAccuracy spec sign (m <<< _) (e - _) .exact)
    rw [Nat.shiftLeft_eq]
    have hlog := log2_mul_le hm.ne' (e - spec.targetExponent (totalExponent m e)).toNat
    unfold totalExponent at *
    exact hasExponentTo_round spec _ _ (by omega) (by unfold totalExponent; omega) hmin

/-! ## Packing -/

theorem minExponent_eq : spec.minExponent =
    1 - (spec.exponentBias + spec.mantissaBitsWithoutImplicit) := by
  have hpow : 1 ≤ 2 ^ (spec.exponentBits - 1) := Nat.one_le_two_pow
  unfold Format.minExponent Format.exponentBias Format.mantissaBits
  push_cast [Nat.cast_sub hpow]
  omega

theorem log2_lt_of_lt {m k : Nat} (hm : 0 < m) (h : m < 2 ^ k) : m.log2 < k :=
  (Nat.log2_lt hm.ne').2 h

/-- A word of an exponent field that is neither that of infinities nor too large. -/
theorem isUnder_unpack {b : BitVec spec.numBits} (hfield : unpackExponent b ≠ -1#_)
    (hexponent : ((unpackExponent b).toNat : Int) -
      (spec.exponentBias + spec.mantissaBitsWithoutImplicit) ≤ limit)
    (hmin : spec.minExponent ≤ limit) :
    IsUnder (limit + spec.mantissaBits) (UnpackedFloat.unpack spec b) := by
  have hmantissa := (unpackMantissa b).isLt
  have hbits : (spec.mantissaBits : Int) = 1 + spec.mantissaBitsWithoutImplicit := by
    unfold Format.mantissaBits
    push_cast
    rfl
  rw [minExponent_eq] at hmin
  unfold UnpackedFloat.unpack
  dsimp only
  rw [if_neg hfield]
  split_ifs with hzero hm
  · trivial
  · have hpos : 0 < (unpackMantissa b).toNat :=
      (BitVec.toNat_pos _).2 ((BitVec.pos_iff_ne_zero _).2 hm)
    have hlog := log2_lt_of_lt hpos hmantissa
    show totalExponent _ _ ≤ _
    rw [hzero, BitVec.toNat_zero]
    unfold totalExponent
    omega
  · show totalExponent _ _ ≤ _
    have hlog := log2_lt_of_lt (m := (1#1 ++ unpackMantissa b).toNat) (by simp) (BitVec.isLt _)
    unfold totalExponent
    omega

theorem two_le_pow : 2 ≤ 2 ^ spec.exponentBits := by
  have hpow : 2 ^ 1 ≤ 2 ^ spec.exponentBits := Nat.pow_le_pow_right (by decide) spec.he
  simpa using hpow

/-- The field of all ones is that of the infinities. -/
theorem ne_neg_one {field : BitVec spec.exponentBits}
    (h : field.toNat + 1 < 2 ^ spec.exponentBits) : field ≠ -1#_ := by
  rintro rfl
  have hpow := two_le_pow spec
  rw [BitVec.neg_one_eq_allOnes, BitVec.toNat_allOnes] at h
  omega

/-- **Packing** keeps a number whose exponent fits into its field. -/
theorem isUnder_unpack_pack {a : UnpackedFloat} (ha : HasExponentTo limit a)
    (hmin : spec.minExponent ≤ limit)
    (hmax : limit + spec.exponentBias + spec.mantissaBitsWithoutImplicit + 1 <
      ((2 ^ spec.exponentBits : Nat) : Int)) :
    IsUnder (limit + spec.mantissaBits)
      (UnpackedFloat.unpack spec (UnpackedFloat.pack spec a)) := by
  have hpow := two_le_pow spec
  have hleast := minExponent_eq spec
  -- Zeros and numbers below the least normal one have the field zero.
  have hsmall (sign : Sign) (m : BitVec spec.mantissaBitsWithoutImplicit) :
      IsUnder (limit + spec.mantissaBits)
        (UnpackedFloat.unpack spec (packComponents spec sign 0#_ m)) := by
    apply isUnder_unpack spec _ _ hmin <;> rw [unpackExponent_packComponents]
    · exact ne_neg_one spec (by rw [BitVec.toNat_zero]; omega)
    · rw [BitVec.toNat_zero]
      omega
  cases a with
  | zero sign => exact hsmall sign 0
  | infinity | notANumber => cases ha
  | finite sign m e hm =>
    have he : e ≤ limit := ha
    unfold UnpackedFloat.pack
    dsimp only
    generalize hbiased : (e + spec.exponentBias + spec.mantissaBitsWithoutImplicit).toNat = biased
    have hfits : biased + 1 < 2 ^ spec.exponentBits := by omega
    rw [if_neg (not_le.2 hfits)]
    split_ifs
    · have hfield : (BitVec.ofNat spec.exponentBits biased).toNat = biased :=
        (BitVec.toNat_ofNat _ _).trans (Nat.mod_eq_of_lt (by omega))
      apply isUnder_unpack spec _ _ hmin <;> rw [unpackExponent_packComponents]
      · exact ne_neg_one spec (by rwa [hfield])
      · rw [hfield]
        omega
    · exact hsmall sign _

/-- A format has numbers of a magnitude, and room for one digit more. -/
structure Covers (k : Int) : Prop where
  least : spec.minExponent + spec.mantissaBits ≤ k
  greatest : k + spec.exponentBias + 1 < ((2 ^ spec.exponentBits : Nat) : Int)

section Results

variable {spec} {k : Int} {a b : UnpackedFloat}

theorem isUnder_packed (hk : Covers spec k) (ha : HasExponentTo (k - spec.mantissaBits + 1) a) :
    IsUnder (k + 1) (UnpackedFloat.unpack spec (UnpackedFloat.pack spec a)) := by
  obtain ⟨hleast, hgreatest⟩ := hk
  have hbits : (spec.mantissaBits : Int) = 1 + spec.mantissaBitsWithoutImplicit := by
    unfold Format.mantissaBits
    push_cast
    rfl
  have hunder := isUnder_unpack_pack spec ha (by omega) (by omega)
  rwa [show k - spec.mantissaBits + 1 + spec.mantissaBits = k + 1 by omega] at hunder

theorem isUnder_packed_div (hk : Covers spec k) (ha : IsUnder k a) (hb : IsOneOrMore b) :
    IsUnder (k + 1) (UnpackedFloat.unpack spec (UnpackedFloat.pack spec (div spec a b))) := by
  refine isUnder_packed hk (hasExponentTo_div spec ?_ hb ?_)
  · rwa [Int.sub_add_cancel]
  · have := hk.least
    omega

theorem isUnder_packed_inFormat (hk : Covers spec k) (ha : IsUnder k a) :
    IsUnder (k + 1) (UnpackedFloat.unpack spec (UnpackedFloat.pack spec (inFormat spec a))) := by
  refine isUnder_packed hk (hasExponentTo_inFormat spec ?_ ?_)
  · rwa [Int.sub_add_cancel]
  · have := hk.least
    omega

end Results

theorem covers_binary64 {k : Int} (h : -1021 ≤ k) (h' : k < 1024) : Covers .binary64 k where
  least := h
  greatest := by
    show k + 1023 + 1 < 2048
    omega

theorem covers_binary32 {k : Int} (h : -125 ≤ k) (h' : k < 128) : Covers .binary32 k where
  least := h
  greatest := by
    show k + 127 + 1 < 256
    omega

/-! ## Doubles -/

section Doubles

variable {x y : Float} {k : Int}

theorem toNat_unpackMantissa (w : UInt64) :
    (@unpackMantissa Format.binary64 w.toBitVec).toNat = w.toNat % Nat.pow 2 52 := by
  rw [unpackMantissa, BitVec.toNat_cast, BitVec.extractLsb_toNat, Nat.shiftRight_zero]
  rfl

theorem abs_significandOf (bits : Nat) : |significandOf bits| =
    ((if bits / Nat.pow 2 52 % Nat.pow 2 11 = 0 then bits % Nat.pow 2 52
      else Nat.pow 2 52 + bits % Nat.pow 2 52 : Nat) : Int) := by
  unfold significandOf
  dsimp only
  generalize (if bits / Nat.pow 2 52 % Nat.pow 2 11 = 0 then bits % Nat.pow 2 52
    else Nat.pow 2 52 + bits % Nat.pow 2 52 : Nat) = m
  split_ifs
  · rw [abs_neg, Nat.abs_cast]
  · rw [Nat.abs_cast]

/-- Infinities and what is no number have the exponent field of all ones. -/
theorem isSome_exactOf_iff :
    (exactOf x).isSome ↔ @unpackExponent Format.binary64 x.toBits.toBitVec ≠ -1#_ := by
  have hfield : @unpackExponent Format.binary64 x.toBits.toBitVec = -1#_ ↔
      x.toBits.toNat / Nat.pow 2 52 % Nat.pow 2 11 = 2047 := by
    rw [← BitVec.toNat_inj, toNat_unpackExponent]
    rfl
  rw [exactOf_eq, ne_eq, hfield]
  split_ifs with h <;> simp [h]

/-- A double that stands for a rational, as it is unpacked. -/
theorem unpack_of_exactOf {q : Rat} (h : exactOf x = some q) :
    (q = 0 ∧ ∃ sign, x.toModel.unpack = .zero sign) ∨
      ∃ sign m e hm, x.toModel.unpack = .finite sign m e hm ∧ |q| = m * 2 ^ e := by
  have hones := isSome_exactOf_iff.1 (Option.isSome_of_eq_some h)
  rw [exactOf_eq] at h
  split_ifs at h
  obtain rfl := Option.some.inj h
  have hword : x.toModel.unpack = UnpackedFloat.unpack Format.binary64 x.toBits.toBitVec := rfl
  have hexponent := toNat_unpackExponent x.toBits
  have hmantissa := toNat_unpackMantissa x.toBits
  have habs (m : Nat) (e : Int) (hm : |significandOf x.toBits.toNat| = m)
      (he : unitOf x.toBits.toNat = e) :
      |(significandOf x.toBits.toNat : Rat) * 2 ^ unitOf x.toBits.toNat| = m * 2 ^ e := by
    rw [abs_mul, abs_of_pos (two_zpow_pos _), he, ← Int.cast_abs, hm, Int.cast_natCast]
  have hsignificand := abs_significandOf x.toBits.toNat
  have hunit : unitOf x.toBits.toNat =
      ((if x.toBits.toNat / Nat.pow 2 52 % Nat.pow 2 11 = 0 then 1
        else x.toBits.toNat / Nat.pow 2 52 % Nat.pow 2 11 : Nat) : Int) - 1075 := rfl
  rw [← hexponent] at hunit hsignificand
  rw [← hmantissa] at hsignificand
  rw [hword, UnpackedFloat.unpack]
  dsimp only
  rw [if_neg hones]
  by_cases hsubnormal : @unpackExponent Format.binary64 x.toBits.toBitVec = 0#_
  · rw [if_pos hsubnormal]
    rw [hsubnormal, BitVec.toNat_zero, if_pos rfl] at hunit hsignificand
    by_cases hzero : @unpackMantissa Format.binary64 x.toBits.toBitVec = 0#_
    · rw [dif_pos hzero]
      rw [hzero, BitVec.toNat_zero, Nat.cast_zero, abs_eq_zero] at hsignificand
      refine .inl ⟨?_, _, rfl⟩
      rw [hsignificand, Int.cast_zero, zero_mul]
    · rw [dif_neg hzero]
      refine .inr ⟨_, _, _, _, rfl, habs _ _ hsignificand ?_⟩
      rw [hunit, hsubnormal]
      rfl
  · -- The leading digit of a normal number is not written down.
    rw [if_neg hsubnormal]
    have hfield : (@unpackExponent Format.binary64 x.toBits.toBitVec).toNat ≠ 0 := by
      intro hfield
      exact hsubnormal (BitVec.eq_of_toNat_eq hfield)
    rw [if_neg hfield] at hunit hsignificand
    refine .inr ⟨_, _, _, _, rfl, habs _ _ ?_ hunit⟩
    rw [hsignificand, BitVec.toNat_append, ← Nat.shiftLeft_add_eq_or_of_lt (BitVec.isLt _)]
    rfl

/-- A finite double stands for a rational. -/
theorem isSome_exactOf (h : IsUnder k x.toModel.unpack) : (exactOf x).isSome := by
  rw [isSome_exactOf_iff]
  intro hones
  have hword : x.toModel.unpack = UnpackedFloat.unpack Format.binary64 x.toBits.toBitVec := rfl
  rw [hword, UnpackedFloat.unpack] at h
  dsimp only at h
  rw [if_pos hones] at h
  split_ifs at h <;> cases h

theorem isUnder_of_exactOf {q : Rat} (h : exactOf x = some q) (hq : |q| < 2 ^ k) :
    IsUnder k x.toModel.unpack := by
  rcases unpack_of_exactOf h with ⟨-, sign, hx⟩ | ⟨sign, m, e, hm, hx, habs⟩
  · rw [hx]
    trivial
  · have hpos : (0 : Rat) < m * 2 ^ e := mul_pos (Nat.cast_pos.2 hm) (two_zpow_pos e)
    have hlt : exponentOf (m * 2 ^ e) < k := by
      apply exponentOf_lt hpos.ne'
      rwa [abs_of_pos hpos, ← habs]
    rw [exponentOf_mul_zpow hm] at hlt
    rw [hx]
    show totalExponent m e ≤ k
    omega

theorem isOneOrMore_of_exactOf {q : Rat} (h : exactOf x = some q) (hq : 1 ≤ q) :
    IsOneOrMore x.toModel.unpack := by
  rcases unpack_of_exactOf h with ⟨rfl, -⟩ | ⟨sign, m, e, hm, hx, habs⟩
  · exact absurd hq (by norm_num)
  · rw [hx]
    exact one_le_totalExponent (hq.trans ((le_abs_self q).trans habs.le))

/-- **A quotient by one or more** in double precision. -/
theorem isUnder_div (hk : Covers .binary64 k) (hx : IsUnder k x.toModel.unpack)
    (hy : IsOneOrMore y.toModel.unpack) : IsUnder (k + 1) (x / y).toModel.unpack :=
  isUnder_packed_div hk hx hy

end Doubles

/-! ## Single precision -/

theorem isUnder_divSingle {x y : Float32} {k : Int} (hk : Covers .binary32 k)
    (hx : IsUnder k x.toModel.unpack) (hy : IsOneOrMore y.toModel.unpack) :
    IsUnder (k + 1) (x / y).toModel.unpack :=
  isUnder_packed_div hk hx hy

theorem isUnder_singleOf {x : Float} {k : Int} (hk : Covers .binary32 k)
    (hx : IsUnder k x.toModel.unpack) : IsUnder (k + 1) (singleOf x).toModel.unpack :=
  isUnder_packed_inFormat hk hx

theorem isUnder_doubleOf {x : Float32} {k : Int} (hk : Covers .binary64 k)
    (hx : IsUnder k x.toModel.unpack) : IsUnder (k + 1) (doubleOf x).toModel.unpack :=
  isUnder_packed_inFormat hk hx

/-! ## The nearest double -/

theorem exists_nearest {q : Rat} (h : |q| < doubleLimit) : ∃ x, nearest q = some x := by
  by_contra hnone
  have hrefused : nearest q = none := by
    rw [Option.eq_none_iff_forall_ne_some]
    exact not_exists.1 hnone
  exact absurd h (not_lt.2 ((nearest_eq_none_iff q).1 hrefused))

theorem exactOf_nearestOrInfinite {q : Rat} (h : |q| < doubleLimit) :
    exactOf (nearestOrInfinite q) = some (roundBinary q) := by
  obtain ⟨x, hx⟩ := exists_nearest h
  rw [nearestOrInfinite, hx]
  exact exactOf_nearest hx

/-- A count is less than `2 ^ 64`, also when it is rounded. -/
theorem isUnder_nearestOrInfinite {n : Nat} (hn : n < 2 ^ 63) :
    IsUnder 64 (nearestOrInfinite n).toModel.unpack := by
  have hle : (n : Rat) ≤ pow2 63 := by
    rw [pow2_eq]
    exact_mod_cast hn.le
  have hnonneg : (0 : Rat) ≤ n := Nat.cast_nonneg n
  have hlimit : |(n : Rat)| < doubleLimit := by
    rw [abs_of_nonneg hnonneg]
    exact hle.trans_lt (by decide +kernel)
  have hround : roundBinary n ≤ pow2 63 := (BinaryFormat.round_mono hle).trans (by decide +kernel)
  have hpos : 0 ≤ roundBinary n := BinaryFormat.round_nonneg hnonneg
  refine isUnder_of_exactOf (exactOf_nearestOrInfinite hlimit) ?_
  rw [abs_of_nonneg hpos, ← pow2_eq]
  exact hround.trans_lt (by decide +kernel)

theorem isOneOrMore_nearestOrInfinite {q : Rat} (hq : 1 ≤ q) :
    IsOneOrMore (nearestOrInfinite q).toModel.unpack := by
  by_cases h : |q| < doubleLimit
  · have hround : roundBinary 1 ≤ roundBinary q := BinaryFormat.round_mono hq
    refine isOneOrMore_of_exactOf (exactOf_nearestOrInfinite h) ?_
    exact (by decide +kernel : 1 ≤ roundBinary 1).trans hround
  · have hpos : ¬ q.num < 0 := by
      rw [Rat.num_neg, not_lt]
      exact zero_le_one.trans hq
    have hinfinite : infinity.toModel.unpack = .infinity .positive := rfl
    rw [nearestOrInfinite, (nearest_eq_none_iff q).2 (not_lt.1 h)]
    show IsOneOrMore (if q.num < 0 then -infinity else infinity).toModel.unpack
    rw [if_neg hpos, hinfinite]
    trivial

end TypingTrace
