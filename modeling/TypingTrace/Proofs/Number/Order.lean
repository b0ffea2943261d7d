import TypingTrace.Number.Basic
import TypingTrace.Proofs.Number.Conversion

/-!
# The order of numbers and doubles

**Theorem (`Number.le_eq_not_lt`).** A number that is not negative is less than a double, or else
the double is at most the number; both comparisons agree on the boundary.

**Theorem (`Number.lt_of_lt_of_le`).** What is less than a double is less than any larger double.

**Theorem (`Number.isZero_of_lt`).** A double above a number that is not negative is not zero.

A scalar of single precision is compared with a double in single precision, so the two sides are
not compared where they lie. But taking numbers to a format keeps their order (`roundPlace_mono`),
and it keeps zero (`roundPlace_zero`). Numbers are compared as places: below, among and above the
rationals, in the lexicographic order.
-/

namespace TypingTrace

open Float.Model Float.Model.UnpackedFloat

/-! ## Places of doubles -/

section Doubles

variable {x : Float} {q : Rat}

/-- The sign that a double is unpacked with. -/
def signOf (x : Float) : Sign := if isNegative x then .negative else .positive

theorem ofBitVec_unpackSign (x : Float) :
    Sign.ofBitVec (@unpackSign Format.binary64 x.toBits.toBitVec) = signOf x := by
  have hlt : x.toBits.toNat < 2 ^ 64 := x.toBits.toBitVec.isLt
  have hnat : (@unpackSign Format.binary64 x.toBits.toBitVec).toNat =
      x.toBits.toNat / Nat.pow 2 63 := by
    rw [unpackSign, BitVec.toNat_cast, BitVec.extractLsb_toNat, Nat.shiftRight_eq_div_pow]
    show x.toBits.toNat / 2 ^ 63 % 2 = x.toBits.toNat / 2 ^ 63
    omega
  have hzero : @unpackSign Format.binary64 x.toBits.toBitVec = 0#1 ↔
      x.toBits.toNat / Nat.pow 2 63 = 0 := by
    rw [← BitVec.toNat_inj, hnat]
    rfl
  have hpow : Nat.pow 2 63 = 2 ^ 63 := rfl
  unfold signOf isNegative Sign.ofBitVec
  simp only [hzero, beq_iff_eq]
  split_ifs <;> first | rfl | omega

theorem withSign_signOf (h : exactOf x = some q) : q = withSign (signOf x) |q| := by
  rw [exactOf_eq] at h
  split_ifs at h
  obtain rfl := Option.some.inj h
  rw [abs_mul, abs_of_pos (two_zpow_pos _), ← Int.cast_abs, abs_significandOf]
  unfold signOf isNegative significandOf
  dsimp only
  by_cases hnegative : x.toBits.toNat / Nat.pow 2 63 = 1
  · simp [hnegative, withSign]
  · simp [hnegative, withSign]

theorem sign_of_unpack {spec : Format} {b : BitVec spec.numBits} {sign : Sign} {m : Nat} {e : Int}
    {hm : 0 < m} (h : UnpackedFloat.unpack spec b = .finite sign m e hm) :
    sign = Sign.ofBitVec (unpackSign b) := by
  unfold UnpackedFloat.unpack at h
  dsimp only at h
  split_ifs at h
  · injection h with hsign
    exact hsign.symm
  · injection h with hsign
    exact hsign.symm

/-- A double lies where the number does that it is unpacked to. -/
theorem placeOfFloat_eq (x : Float) : Number.placeOfFloat x = placeOf x.toModel.unpack := by
  have hsign := ofBitVec_unpackSign x
  have hword : x.toModel.unpack = UnpackedFloat.unpack Format.binary64 x.toBits.toBitVec := rfl
  unfold Number.placeOfFloat
  cases h : exactOf x with
  | some q =>
    rcases unpack_of_exactOf h with ⟨rfl, sign, hx⟩ | ⟨sign, m, e, hm, hx, habs⟩
    · rw [hx]
      rfl
    · have hsame : sign = signOf x := (sign_of_unpack (hword.symm.trans hx)).trans hsign
      rw [hx, placeOf, apply_mul, pow2_eq, ← habs, hsame, ← withSign_signOf h]
  | none =>
    have hones : @unpackExponent Format.binary64 x.toBits.toBitVec = -1#_ := by
      by_contra hfield
      have hsome := isSome_exactOf_iff.2 hfield
      rw [h] at hsome
      cases hsome
    have hnan : x.isNaN = x.toModel.unpack.isNaN := rfl
    rw [hword] at hnan ⊢
    rw [hnan, UnpackedFloat.unpack]
    dsimp only
    rw [if_pos hones, hsign]
    unfold signOf
    by_cases hmantissa : @unpackMantissa Format.binary64 x.toBits.toBitVec = 0#_
    · rw [if_pos hmantissa]
      cases isNegative x <;> rfl
    · rw [if_neg hmantissa]
      rfl

end Doubles

/-! ## The order of places -/

/-- The places that there are. -/
inductive IsPlace : Int × Rat → Prop
  | below : IsPlace (-1, 0)
  | among (q : Rat) : IsPlace (0, q)
  | above : IsPlace (1, 0)

section Places

variable {spec : Format} {p q : Int × Rat}

theorem isPlace_placeOf {a : UnpackedFloat} (h : placeOf a = some p) : IsPlace p := by
  cases a with
  | notANumber => cases h
  | infinity sign =>
    obtain rfl := Option.some.inj h
    cases sign
    · exact .below
    · exact .above
  | zero sign =>
    obtain rfl := Option.some.inj h
    exact .among 0
  | finite sign m e hm =>
    obtain rfl := Option.some.inj h
    exact .among _

theorem isPlace_clip (limit x : Rat) : IsPlace (clip limit x) := by
  unfold clip
  split_ifs
  · exact .among x
  · exact .below
  · exact .above

theorem isPlace_roundPlace (h : IsPlace p) : IsPlace (roundPlace spec p) := by
  cases h with
  | below => exact .below
  | among x => exact isPlace_clip _ _
  | above => exact .above

theorem clip_mono {limit x y : Rat} (h : x ≤ y) : toLex (clip limit x) ≤ toLex (clip limit y) := by
  unfold clip
  by_cases hx : |x| < limit
  · obtain ⟨hlow, -⟩ := abs_lt.1 hx
    rw [if_pos hx]
    by_cases hy : |y| < limit
    · rw [if_pos hy]
      exact Prod.Lex.toLex_le_toLex.2 (.inr ⟨rfl, h⟩)
    · have hpos : ¬ y < 0 := fun hneg => hy (abs_lt.2 ⟨hlow.trans_le h, by linarith⟩)
      rw [if_neg hy, if_neg hpos]
      exact Prod.Lex.toLex_le_toLex.2 (.inl one_pos)
  · rw [if_neg hx]
    by_cases hneg : x < 0
    · rw [if_pos hneg]
      by_cases hy : |y| < limit
      · rw [if_pos hy]
        exact Prod.Lex.toLex_le_toLex.2 (.inl neg_one_lt_zero)
      · rw [if_neg hy]
        split_ifs
        · exact le_rfl
        · exact Prod.Lex.toLex_le_toLex.2 (.inl (by decide))
    · have hpos : 0 ≤ x := not_lt.1 hneg
      have hy : ¬ |y| < limit := by
        rw [abs_of_nonneg hpos] at hx
        rw [abs_of_nonneg (hpos.trans h)]
        exact fun hlt => hx (h.trans_lt hlt)
      rw [if_neg hneg, if_neg hy, if_neg (not_lt.2 (hpos.trans h))]

/-- What a format reaches is compared with clipped rationals as with the rationals. -/
theorem lt_clip_iff {limit x y : Rat} (hx : |x| < limit) :
    toLex (0, x) < toLex (clip limit y) ↔ x < y := by
  obtain ⟨hlow, hhigh⟩ := abs_lt.1 hx
  unfold clip
  by_cases hy : |y| < limit
  · simp [hy, Prod.Lex.toLex_lt_toLex]
  · rw [if_neg hy]
    by_cases hneg : y < 0
    · rw [abs_of_neg hneg, not_lt] at hy
      have hnot : ¬ x < y := by linarith
      simp [hneg, hnot, Prod.Lex.toLex_lt_toLex]
    · rw [abs_of_nonneg (not_lt.1 hneg), not_lt] at hy
      have hlt : x < y := by linarith
      simp [hneg, hlt, Prod.Lex.toLex_lt_toLex]

theorem below_le {p : Int × Rat} (h : IsPlace p) : toLex (-1, 0) ≤ toLex p := by
  cases h with
  | below => exact le_rfl
  | among x => exact Prod.Lex.toLex_le_toLex.2 (.inl neg_one_lt_zero)
  | above => exact Prod.Lex.toLex_le_toLex.2 (.inl (by decide))

theorem le_above {p : Int × Rat} (h : IsPlace p) : toLex p ≤ toLex (1, 0) := by
  cases h with
  | below => exact Prod.Lex.toLex_le_toLex.2 (.inl (by decide))
  | among x => exact Prod.Lex.toLex_le_toLex.2 (.inl one_pos)
  | above => exact le_rfl

/-- **Taking numbers to a format keeps their order.** -/
theorem roundPlace_mono (hp : IsPlace p) (hq : IsPlace q) (h : toLex p ≤ toLex q) :
    toLex (roundPlace spec p) ≤ toLex (roundPlace spec q) := by
  cases hp with
  | below => exact below_le (isPlace_roundPlace hq)
  | among x =>
    cases hq with
    | below => simp [Prod.Lex.toLex_le_toLex] at h
    | among y =>
      have hle : x ≤ y := by simpa [Prod.Lex.toLex_le_toLex] using h
      exact clip_mono (BinaryFormat.round_mono hle)
    | above => exact le_above (isPlace_roundPlace (.among x))
  | above =>
    cases hq with
    | below => simp [Prod.Lex.toLex_le_toLex] at h
    | among y => simp [Prod.Lex.toLex_le_toLex] at h
    | above => exact le_rfl

theorem roundPlace_zero : roundPlace spec (0, 0) = (0, 0) := by
  have hround : (binaryFormat spec).round 0 = 0 := rfl
  rw [roundPlace, hround, clip, abs_zero, if_pos (two_zpow_pos _)]

end Places

/-! ## Doubles in single precision and back -/

theorem placeOfFloat_doubleOf {x : Float32} {p : Int × Rat}
    (h : placeOf x.toModel.unpack = some p) :
    Number.placeOfFloat (doubleOf x) = some (roundPlace .binary64 p) := by
  rw [placeOfFloat_eq]
  exact placeOf_packed_inFormat (by decide) h

theorem placeOf_singleOf {x : Float} {p : Int × Rat} (h : Number.placeOfFloat x = some p) :
    placeOf (singleOf x).toModel.unpack = some (roundPlace .binary32 p) := by
  rw [placeOfFloat_eq] at h
  exact placeOf_packed_inFormat (by decide) h

/-- The double nearest to a rational. -/
theorem placeOfFloat_nearestOrInfinite (q : Rat) :
    Number.placeOfFloat (nearestOrInfinite q) = some (roundPlace .binary64 (0, q)) := by
  have htop : topExponent .binary64 = 1024 := by decide
  have hround : (binaryFormat .binary64).round q = roundBinary q := rfl
  rw [roundPlace, htop, hround, clip, nearestOrInfinite]
  cases hnearest : nearest q with
  | some x =>
    have hlt : |roundBinary q| < 2 ^ (1024 : Int) := by
      by_contra hge
      rw [(nearest_eq_none_iff_round q).2 (not_lt.1 hge)] at hnearest
      cases hnearest
    rw [if_pos hlt, Number.placeOfFloat, exactOf_nearest hnearest]
  | none =>
    have hge := (nearest_eq_none_iff_round q).1 hnearest
    rw [if_neg (not_lt.2 hge)]
    dsimp only
    by_cases hneg : q < 0
    · have hround : roundBinary q < 0 := by
        refine lt_of_le_of_ne (BinaryFormat.round_nonpos hneg.le) fun hzero => ?_
        rw [hzero, abs_zero] at hge
        exact absurd hge (not_le.2 (two_zpow_pos _))
      rw [if_pos (Rat.num_neg.2 hneg), if_pos hround]
      decide +kernel
    · have hround : ¬ roundBinary q < 0 := not_lt.2 (BinaryFormat.round_nonneg (not_lt.1 hneg))
      rw [if_neg (mt Rat.num_neg.1 hneg), if_neg hround]
      decide +kernel

/-! ## Comparisons with doubles -/

namespace Number

variable {a b : Number} {x y : Float}

theorem lt_iff : a.lt b ↔ ∃ p q, (aligned (joint a b) a).place = some p ∧
    (aligned (joint a b) b).place = some q ∧ toLex p < toLex q := by
  unfold lt
  cases (aligned (joint a b) a).place with
  | none => simp
  | some p =>
    cases (aligned (joint a b) b).place with
    | none => simp
    | some q => simp [Prod.Lex.toLex_lt_toLex]

theorem le_iff : a.le b ↔ ∃ p q, (aligned (joint a b) a).place = some p ∧
    (aligned (joint a b) b).place = some q ∧ toLex p ≤ toLex q := by
  unfold le
  cases (aligned (joint a b) a).place with
  | none => simp
  | some p =>
    cases (aligned (joint a b) b).place with
    | none => simp
    | some q => simp [Prod.Lex.toLex_le_toLex]

theorem le_of_lt (h : a.lt b) : a.le b := by
  obtain ⟨p, q, hp, hq, hlt⟩ := lt_iff.1 h
  exact le_iff.2 ⟨p, q, hp, hq, hlt.le⟩

/-- The machine kind in which a number meets doubles. -/
def doubleKind (a : Number) : Option ScalarKind := joint a (.float 0)

theorem joint_float (a : Number) (x : Float) : joint a (.float x) = doubleKind a := by
  cases a <;> rfl

theorem float_joint (a : Number) (x : Float) : joint (.float x) a = doubleKind a := by
  cases a <;> rfl

/-- Where a double lies when it is compared in a machine kind. -/
def alignPlace : Option ScalarKind → Int × Rat → Int × Rat
  | some .float32, p => roundPlace .binary64 (roundPlace .binary32 p)
  | _, p => p

theorem place_aligned_float (kind : Option ScalarKind) {p : Int × Rat}
    (h : placeOfFloat x = some p) : (aligned kind (.float x)).place = some (alignPlace kind p) := by
  match kind with
  | none | some .bool | some .uint8 | some .int64 | some .float64 => exact h
  | some .float32 => exact placeOfFloat_doubleOf (placeOf_singleOf h)

theorem isPlace_placeOfFloat {p : Int × Rat} (h : placeOfFloat x = some p) : IsPlace p :=
  isPlace_placeOf ((placeOfFloat_eq x).symm.trans h)

theorem alignPlace_mono (kind : Option ScalarKind) {p q : Int × Rat} (hp : IsPlace p)
    (hq : IsPlace q) (h : toLex p ≤ toLex q) :
    toLex (alignPlace kind p) ≤ toLex (alignPlace kind q) := by
  match kind with
  | none | some .bool | some .uint8 | some .int64 | some .float64 => exact h
  | some .float32 =>
    exact roundPlace_mono (isPlace_roundPlace hp) (isPlace_roundPlace hq) (roundPlace_mono hp hq h)

theorem alignPlace_zero (kind : Option ScalarKind) : alignPlace kind (0, 0) = (0, 0) := by
  match kind with
  | none | some .bool | some .uint8 | some .int64 | some .float64 => rfl
  | some .float32 => rw [alignPlace, roundPlace_zero, roundPlace_zero]

theorem float_le_iff : (float x).le (.float y) ↔
    ∃ p q, placeOfFloat x = some p ∧ placeOfFloat y = some q ∧ toLex p ≤ toLex q := le_iff

/-- The nearest double grows with the rational. -/
theorem nearestOrInfinite_mono {p q : Rat} (h : p ≤ q) :
    (float (nearestOrInfinite p)).le (.float (nearestOrInfinite q)) :=
  float_le_iff.2 ⟨_, _, placeOfFloat_nearestOrInfinite p, placeOfFloat_nearestOrInfinite q,
    roundPlace_mono (.among p) (.among q) (Prod.Lex.toLex_le_toLex.2 (.inr ⟨rfl, h⟩))⟩

/-- A number that is compared as it is, and the double nearest to a rational. -/
theorem lt_nearestOrInfinite_iff {q r : Rat} (hplain : doubleKind a = none)
    (hplace : a.place = some (0, q)) (hq : |q| < 2 ^ (1024 : Int)) :
    a.lt (.float (nearestOrInfinite r)) ↔ q < roundBinary r := by
  have hdouble : (float (nearestOrInfinite r)).place =
      some (clip (2 ^ (1024 : Int)) (roundBinary r)) := placeOfFloat_nearestOrInfinite r
  rw [lt_iff, joint_float, hplain, ← lt_clip_iff hq]
  simp [aligned, hplace, hdouble]

theorem nonneg_roundPlace {q : Rat} (h : 0 ≤ q) :
    toLex (0, 0) ≤ toLex (roundPlace .binary64 (0, q)) := by
  have hmono : toLex (roundPlace .binary64 (0, 0)) ≤ toLex (roundPlace .binary64 (0, q)) :=
    roundPlace_mono (.among 0) (.among q) (Prod.Lex.toLex_le_toLex.2 (.inr ⟨rfl, h⟩))
  rwa [roundPlace_zero] at hmono

/-- A number that is not negative is not negative either where it is compared with doubles. -/
theorem exists_place_of_nonneg (h : (0 : Number).le a) :
    ∃ t, (aligned (doubleKind a) a).place = some t ∧ toLex (0, 0) ≤ toLex t := by
  obtain ⟨p, t, hp, ht, hle⟩ := le_iff.1 h
  have hzero : placeOfFloat (nearestOrInfinite 0) = some (0, 0) := by
    rw [placeOfFloat_nearestOrInfinite, roundPlace_zero]
  cases a with
  | int n | float y | fraction q =>
    obtain rfl := Option.some.inj hp
    exact ⟨t, ht, hle⟩
  | scalar s =>
    cases s with
    | float64 y =>
      obtain rfl := Option.some.inj (hzero.symm.trans hp)
      exact ⟨t, ht, hle⟩
    | float32 y =>
      have hsingle := place_aligned_float (some .float32) hzero
      rw [alignPlace_zero] at hsingle
      obtain rfl := Option.some.inj (hsingle.symm.trans hp)
      exact ⟨t, ht, hle⟩
    | int64 n | uint8 n | bool n =>
      obtain rfl := Option.some.inj hp
      obtain rfl := Option.some.inj ht
      refine ⟨_, placeOfFloat_nearestOrInfinite _, nonneg_roundPlace ?_⟩
      simpa [Prod.Lex.toLex_le_toLex] using hle

theorem nonneg_of_place {q : Rat} (ha : (0 : Number).le a) (hplain : doubleKind a = none)
    (hplace : a.place = some (0, q)) : 0 ≤ q := by
  obtain ⟨t, ht, hnonneg⟩ := exists_place_of_nonneg ha
  rw [hplain] at ht
  obtain rfl := Option.some.inj (hplace.symm.trans ht)
  simpa [Prod.Lex.toLex_le_toLex] using hnonneg

/-- **One boundary.** A double that is no NaN is at most a number that is not negative, or else
above it. -/
theorem le_eq_not_lt (ha : (0 : Number).le a) (hx : (float x).le (.float x)) :
    (float x).le a = !a.lt (.float x) := by
  obtain ⟨t, ht, -⟩ := exists_place_of_nonneg ha
  obtain ⟨p, -, hp, -, -⟩ := float_le_iff.1 hx
  have halign := place_aligned_float (doubleKind a) hp
  have hle : (float x).le a ↔ toLex (alignPlace (doubleKind a) p) ≤ toLex t := by
    simp [le_iff, float_joint, ht, halign]
  have hlt : a.lt (.float x) ↔ toLex t < toLex (alignPlace (doubleKind a) p) := by
    simp [lt_iff, joint_float, ht, halign]
  rw [Bool.eq_iff_iff, hle, Bool.not_eq_true', ← Bool.not_eq_true, hlt, not_lt]

theorem lt_of_lt_of_le (h : a.lt (.float x)) (hxy : (float x).le (.float y)) : a.lt (.float y) := by
  obtain ⟨t, s, ht, hs, hlt⟩ := lt_iff.1 h
  obtain ⟨p, q, hp, hq, hle⟩ := float_le_iff.1 hxy
  rw [joint_float] at ht hs
  rw [place_aligned_float _ hp] at hs
  obtain rfl := Option.some.inj hs
  rw [lt_iff, joint_float]
  refine ⟨t, _, ht, place_aligned_float _ hq, hlt.trans_le ?_⟩
  exact alignPlace_mono _ (isPlace_placeOfFloat hp) (isPlace_placeOfFloat hq) hle

theorem isZero_of_lt (ha : (0 : Number).le a) (h : a.lt (.float x)) : (float x).isZero = false := by
  obtain ⟨t, ht, hnonneg⟩ := exists_place_of_nonneg ha
  obtain ⟨t', s, ht', hs, hlt⟩ := lt_iff.1 h
  rw [joint_float] at ht' hs
  obtain rfl := Option.some.inj (ht.symm.trans ht')
  by_contra hzero
  have hplace : (float x).place = some (0, 0) := by simpa [isZero] using hzero
  rw [place_aligned_float _ hplace, alignPlace_zero] at hs
  obtain rfl := Option.some.inj hs
  exact absurd hlt (not_lt.2 hnonneg)

end Number

end TypingTrace
