import TypingTrace.Proofs.Number.Doubles
import TypingTrace.Proofs.Text.Ascii
import TypingTrace.Report.Basic

/-!
# What a report shows of a value

**Theorem (`exists_valueText`).** A report shows every value that is an integer or a finite double,
by whatever unit, and never as the remark that there is no value.

An integer is written as the nearest double, so there has to be one (`Value.IsShowable`); for a
share of one it has to be there for the percentage. The text ends with a digit or a unit, and none
of the units ends with the last letter of the remark.
-/

namespace TypingTrace

open Text

/-- A number that a report can show by a unit: a finite double, or an integer that is within the
range of doubles, also in per cent where it is shown so. -/
inductive Value.IsShowable : (v unit : Value) → Prop
  | int {n : Int} {unit : Value} : |(n : Rat)| < doubleLimit →
      (unit.asText = some "ratio" → |(n : Rat) * 100| < doubleLimit) → IsShowable (.int n) unit
  | float {x : Float} {unit : Value} : (exactOf x).isSome → IsShowable (.float x) unit

/-- An integer with a nearest double, or any double. -/
inductive Value.HasDouble : Value → Prop
  | int {n : Int} {x : Float} : nearest n = some x → HasDouble (.int n)
  | float (x : Float) : HasDouble (.float x)

theorem Value.hasDouble_int {n : Int} (h : |(n : Rat)| < doubleLimit) :
    (Value.int n).HasDouble := by
  cases hnearest : nearest (n : Rat) with
  | none => exact absurd ((nearest_eq_none_iff _).1 hnearest) (not_le.2 h)
  | some x => exact .int hnearest

theorem Value.IsShowable.hasDouble {v unit : Value} (h : v.IsShowable unit) : v.HasDouble := by
  cases h with
  | int hn _ => exact hasDouble_int hn
  | float _ => exact .float _

/-! ## Digits

Whatever is cut down to an integer from a double is far below the integers that have too many
digits. -/

theorem abs_lt_of_exactOf {x : Float} {q : Rat} (h : exactOf x = some q) :
    |q| < 2 ^ (1024 : Int) := by
  obtain ⟨e, -, hlt, -, he⟩ := exists_of_exactOf h
  exact hlt.trans_le (two_zpow_le (by omega))

theorem abs_lt_of_lt_doubleLimit {q : Rat} (h : |q| < doubleLimit) : |q| < 2 ^ (1024 : Int) := by
  rw [← pow2_eq]
  exact h.trans (by decide +kernel)

/-- The next two powers of two have room for what is added. -/
theorem two_zpow_add_le : (2 : Rat) ^ (1024 : Int) + 1000 < 2 ^ (1025 : Int) ∧
    (2 : Rat) ^ (1025 : Int) + 2 ≤ 2 ^ (1026 : Int) := by
  rw [← pow2_eq, ← pow2_eq, ← pow2_eq]
  decide +kernel

theorem abs_floor_le (q : Rat) : |(q.floor : Rat)| ≤ |q| + 1 := by
  have hle : (q.floor : Rat) ≤ q := Int.floor_le q
  have hlt : q < q.floor + 1 := Int.lt_floor_add_one q
  rw [abs_le]
  constructor <;> linarith [neg_abs_le q, le_abs_self q]

theorem abs_ceil_le (q : Rat) : |(q.ceil : Rat)| ≤ |q| + 1 := by
  have hlt : (q.ceil : Rat) < q + 1 := Rat.ceil_lt
  have hle : q ≤ q.ceil := Rat.le_ceil
  rw [abs_le]
  constructor <;> linarith [neg_abs_le q, le_abs_self q]

theorem fitsDigits_of_abs_le {n : Int} {e : Nat} (he : e < digitLimit)
    (h : |(n : Rat)| ≤ 2 ^ (e : Int)) : fitsDigits n := by
  have hle : n.natAbs ≤ 2 ^ e := by
    rw [← Int.cast_abs, Int.abs_eq_natAbs] at h
    exact_mod_cast h
  exact fitsDigits_iff.2 ((hle.trans (Nat.pow_le_pow_left (by decide) e)).trans_lt
    (Nat.pow_lt_pow_right (by decide) he))

theorem fitsDigits_of_lt_doubleLimit {n : Int} (h : |(n : Rat)| < doubleLimit) : fitsDigits n :=
  fitsDigits_of_abs_le (e := 1024) (by decide) (abs_lt_of_lt_doubleLimit h).le

theorem Value.HasDouble.isWritable {v : Value} (h : v.HasDouble) : v.isWritable := by
  cases h with
  | @int n x hx =>
    refine fitsDigits_of_lt_doubleLimit (not_le.1 fun hle => ?_)
    rw [(nearest_eq_none_iff _).2 hle] at hx
    cases hx
  | float x => rfl

namespace Report

/-! ## Texts and their ends -/

/-- A text that does not end as the remark does. -/
def EndsApart (s : String) : Prop := s.toList.getLast? ≠ some 'd'

instance (s : String) : Decidable (EndsApart s) :=
  inferInstanceAs (Decidable (s.toList.getLast? ≠ some 'd'))

theorem EndsApart.ne {s : String} (h : EndsApart s) : s ≠ "not computed" := by
  rintro rfl
  exact h (by decide)

theorem EndsApart.append {unit : String} (s : String) (hne : unit.toList ≠ [])
    (h : EndsApart unit) : EndsApart (s ++ unit) := by
  rw [EndsApart, String.toList_append, List.getLast?_append_of_ne_nil _ hne]
  exact h

theorem endsApart_natText (n : Nat) : EndsApart (natText n) := by
  intro hlast
  rw [natText, String.toList_ofList] at hlast
  have hdigit : 'd'.isDigit := isDigit_of_mem_natChars (List.mem_of_getLast? hlast)
  cases hdigit

theorem endsApart_intText (n : Int) : EndsApart (intText n) := by
  unfold intText
  split_ifs
  · refine .append _ ?_ (endsApart_natText _)
    rw [natText, String.toList_ofList]
    exact Nat.toDigits_ne_nil
  · exact endsApart_natText _

theorem endsApart_secondsText (seconds : Nat) : EndsApart (secondsText seconds) := by
  have hend (s : String) : EndsApart (s ++ "s") := .append s (by decide) (by decide)
  unfold secondsText
  dsimp only
  split_ifs
  · rw [← String.append_assoc]
    exact hend _
  · rw [← String.append_assoc]
    exact hend _
  · exact hend _

/-! ## Decimals -/

theorem read_onePlace (type : String) : onePlace.read type = .ok 1 := rfl

theorem read_noPlaces (type : String) :
    (DecimalFormat.mk true (Value.int 0).inserted).read type = .ok 0 := rfl

theorem read_places (type : String) :
    (DecimalFormat.mk true (Value.int 1).inserted).read type = .ok 1 := rfl

theorem exists_decimalText {format : DecimalFormat} {places : Nat}
    (hread : ∀ type, format.read type = .ok places) (hplaces : places ≤ DecimalFormat.limit)
    {v : Value} (h : v.HasDouble) : ∃ t, decimalText format v = .ok t := by
  have hwrite : ∀ {a : Number} {x : Float} (type : String), a.toFloat = .ok x →
      format.write type a = .ok (fixedText places format.thousands x) := by
    intro a x type hx
    rw [DecimalFormat.write, hread, hx]
    exact if_neg (not_lt.2 hplaces)
  cases h with
  | @int n x hx =>
    have hfloat : (Number.int n).toFloat = .ok x := by rw [Number.toFloat, hx]
    exact ⟨_, hwrite "int" hfloat⟩
  | float x => exact ⟨_, hwrite (a := .float x) "float" rfl⟩

/-- A cell that is a number of decimal places and a unit. -/
theorem exists_withUnit {places : Int} (hplaces : places = 0 ∨ places = 1) (unit : String)
    {v : Value} (h : v.HasDouble) : ∃ t, withUnit places unit v = .ok (t ++ unit) := by
  obtain ⟨t, ht⟩ : ∃ t, numberText (.int places) v = .ok t := by
    rcases hplaces with rfl | rfl
    · exact exists_decimalText read_noPlaces (by decide) h
    · exact exists_decimalText read_places (by decide) h
  exact ⟨t, by rw [withUnit, ht]; rfl⟩

theorem exists_percentageText {v : Value} (h : v.HasDouble) :
    ∃ t, percentageText v = .ok (t ++ "%") := by
  obtain ⟨t, ht⟩ := exists_decimalText read_onePlace (by decide) h
  exact ⟨t, by rw [percentageText, ht]; rfl⟩

theorem exists_ratioText {v unit : Value} (h : v.IsShowable unit)
    (hunit : unit.asText = some "ratio") : ∃ t, ratioText v = .ok (t ++ "%") := by
  cases h with
  | @int n _ _ hpercent =>
    have hlimit : |((n * 100 : Int) : Rat)| < doubleLimit := by
      rw [Int.cast_mul]
      exact hpercent hunit
    exact exists_percentageText (Value.hasDouble_int hlimit)
  | float _ => exact exists_percentageText (.float _)

/-! ## Durations and counts -/

theorem abs_secondsIn_le {q : Rat} (h : |q| < 2 ^ (1024 : Int)) :
    |(secondsIn binary64 q : Rat)| ≤ 2 ^ (1026 : Int) := by
  have hlowest : binary64.lowest ≤ 1025 := by decide
  have hpos := two_zpow_pos 1025
  obtain ⟨hthousand, htwo⟩ := two_zpow_add_le
  have hround {r : Rat} : |r| < 2 ^ (1025 : Int) → |binary64.round r| ≤ 2 ^ (1025 : Int) :=
    abs_round_le hlowest
  -- No power of two is computed here.
  generalize (2 : Rat) ^ (1024 : Int) = start, (2 : Rat) ^ (1025 : Int) = middle,
    (2 : Rat) ^ (1026 : Int) = last at *
  have hwhole : |((q / 1000).floor * 1000 : Rat)| < middle := by
    have hfloor := abs_floor_le (q / 1000)
    rw [abs_div, abs_of_pos (by norm_num : (0 : Rat) < 1000)] at hfloor
    rw [abs_mul, abs_of_pos (by norm_num : (0 : Rat) < 1000)]
    linarith
  have hquotient : |binary64.round ((q / 1000).floor * 1000 : Rat) / 1000| < middle := by
    rw [abs_div, abs_of_pos (by norm_num : (0 : Rat) < 1000), div_lt_iff₀ (by norm_num)]
    linarith [hround hwhole]
  have hceil : |(secondsIn binary64 q : Rat)| ≤
      |binary64.round (binary64.round ((q / 1000).floor * 1000 : Rat) / 1000) - mkRat 1 2| + 1 :=
    abs_ceil_le _
  have hhalf : |mkRat 1 2| ≤ (1 : Rat) := by decide
  linarith [hround hquotient, abs_sub
    (binary64.round (binary64.round ((q / 1000).floor * 1000 : Rat) / 1000)) (mkRat 1 2)]

/-- The whole seconds of a number that is shown. -/
theorem exists_wholeSeconds {v unit : Value} (h : v.IsShowable unit) :
    ∃ a seconds, v.number? = some a ∧ wholeSeconds a = .ok seconds ∧
      |(seconds : Rat)| ≤ 2 ^ (1026 : Int) := by
  cases h with
  | @int n _ hn =>
    have hle : |n.fdiv 1000| ≤ |n| := by
      rw [Int.fdiv_eq_ediv_of_nonneg n (by decide), Int.abs_eq_natAbs, Int.abs_eq_natAbs]
      omega
    refine ⟨.int n, n.fdiv 1000, rfl, rfl, ?_⟩
    calc |((n.fdiv 1000 : Int) : Rat)| ≤ |(n : Rat)| := by exact_mod_cast hle
      _ ≤ 2 ^ (1026 : Int) := (abs_lt_of_lt_doubleLimit hn).le.trans (two_zpow_le (by decide))
  | @float x _ hx =>
    obtain ⟨q, hq⟩ := Option.isSome_iff_exists.1 hx
    have hplace : (Number.float x).place = some (0, q) := by
      show Number.placeOfFloat x = _
      rw [Number.placeOfFloat, hq]
    exact ⟨.float x, secondsIn binary64 q, rfl, by simp only [wholeSeconds, hplace]; rfl,
      abs_secondsIn_le (abs_lt_of_exactOf hq)⟩

theorem exists_durationText {v unit : Value} (h : v.IsShowable unit) :
    ∃ t, durationText v = .ok t ∧ EndsApart t := by
  obtain ⟨a, seconds, ha, hseconds, hle⟩ := exists_wholeSeconds h
  have hshort : fitsDigits (seconds.toNat / 3600) := by
    have hhours : |(seconds.toNat / 3600 : Int)| ≤ |seconds| := by
      rw [Int.abs_eq_natAbs, Int.abs_eq_natAbs]
      omega
    refine fitsDigits_of_abs_le (e := 1026) (by decide) (le_trans ?_ hle)
    exact_mod_cast hhours
  rw [durationText, Value.compare_numbers ha rfl]
  cases Comparison.le.numbers a (.int 0) with
  | true => exact ⟨"0s", rfl, by decide⟩
  | false =>
    refine ⟨secondsText seconds.toNat, ?_, endsApart_secondsText _⟩
    simp only [ha, hseconds, bind, Except.bind, pure, Except.pure, Bool.false_eq_true, if_false,
      hshort, if_true]

theorem exists_roundHalfUp {a : Number} {x : Float} (hx : a.toFloat = .ok x)
    (hexact : (exactOf x).isSome) : ∃ m, a.roundHalfUp = .ok m := by
  obtain ⟨q, hq⟩ := Option.isSome_iff_exists.1 hexact
  simp [Number.roundHalfUp, Number.inDoubles, hx, hq, bind, Except.bind, pure, Except.pure]

theorem fitsDigits_of_roundHalfUp {a : Number} (ha : a.precision = binary64) {m : Int}
    (h : a.roundHalfUp = .ok m) : fitsDigits m := by
  obtain ⟨q, hq, h⟩ := exists_of_bind_ok h
  obtain rfl := Except.ok.inj h
  obtain ⟨x, -, hx⟩ := exists_of_bind_ok hq
  have hlimit : |q| < 2 ^ (1024 : Int) := by
    cases hexact : exactOf x with
    | none =>
      rw [hexact] at hx
      cases hx
    | some r =>
      rw [hexact] at hx
      obtain rfl := Except.ok.inj hx
      exact abs_lt_of_exactOf hexact
  apply fitsDigits_of_abs_le (e := 1026) (by decide)
  rw [ha]
  have hround := abs_round_le (q := q + mkRat 1 2) (by decide : binary64.lowest ≤ 1025)
  obtain ⟨hthousand, htwo⟩ := two_zpow_add_le
  generalize (2 : Rat) ^ (1024 : Int) = start, (2 : Rat) ^ (1025 : Int) = middle,
    (2 : Rat) ^ (1026 : Int) = last at *
  have hvalue : |mkRat 1 2| ≤ (1 : Rat) := by decide
  have hsum : |q + mkRat 1 2| < middle := by linarith [abs_add_le q (mkRat 1 2)]
  linarith [hround hsum, abs_floor_le (binary64.round (q + mkRat 1 2))]

theorem countText_of_roundHalfUp {v : Value} {a : Number} {m : Int} (ha : v.number? = some a)
    (hm : a.roundHalfUp = .ok m) (hshort : fitsDigits m) : countText v = .ok (intText m) := by
  have hcount : countText v = a.roundHalfUp.bind writeInt := by
    unfold countText
    rw [ha]
    rfl
  rw [hcount, hm]
  exact writeInt_of_fitsDigits hshort

theorem exists_countText {v unit : Value} (h : v.IsShowable unit) :
    ∃ t, countText v = .ok t ∧ EndsApart t := by
  cases h with
  | @int n _ hn _ =>
    cases Value.hasDouble_int hn with
    | @int _ x hx =>
      have hfloat : (Number.int n).toFloat = .ok x := by rw [Number.toFloat, hx]
      have hexact : (exactOf x).isSome := by
        rw [exactOf_nearest hx]
        rfl
      obtain ⟨m, hm⟩ := exists_roundHalfUp hfloat hexact
      have hshort := fitsDigits_of_roundHalfUp rfl hm
      exact ⟨intText m, countText_of_roundHalfUp rfl hm hshort, endsApart_intText m⟩
  | @float x _ hx =>
    obtain ⟨m, hm⟩ := exists_roundHalfUp (a := .float x) rfl hx
    have hshort := fitsDigits_of_roundHalfUp rfl hm
    exact ⟨intText m, countText_of_roundHalfUp rfl hm hshort, endsApart_intText m⟩

/-- **Every number is shown**, and never as the remark. -/
theorem exists_valueText {v unit : Value} (h : v.IsShowable unit) :
    ∃ t, valueText unit v = .ok t ∧ EndsApart t := by
  have hunit : ∀ {places : Int} {suffix : String}, places = 0 ∨ places = 1 →
      suffix.toList ≠ [] → EndsApart suffix →
      ∃ t, withUnit places suffix v = .ok t ∧ EndsApart t := by
    intro places suffix hplaces hne hends
    obtain ⟨t, ht⟩ := exists_withUnit hplaces suffix h.hasDouble
    exact ⟨_, ht, hends.append t hne⟩
  have hpercent : EndsApart "%" := by decide
  unfold valueText
  split
  · exact exists_durationText h
  · obtain ⟨t, ht⟩ := exists_percentageText h.hasDouble
    exact ⟨_, ht, hpercent.append t (by decide)⟩
  · next hratio =>
    have hname : unit.asText = some "ratio" := by
      cases htext : unit.asText with
      | none => simp [htext] at hratio
      | some s => simpa [htext] using hratio
    obtain ⟨t, ht⟩ := exists_ratioText h hname
    exact ⟨_, ht, hpercent.append t (by decide)⟩
  · exact hunit (.inl rfl) (by decide) (by decide)
  · exact hunit (.inl rfl) (by decide) (by decide)
  · exact hunit (.inl rfl) (by decide) (by decide)
  · exact hunit (.inr rfl) (by decide) (by decide)
  · exact hunit (.inr rfl) (by decide) (by decide)
  · exact exists_countText h

end Report

end TypingTrace
