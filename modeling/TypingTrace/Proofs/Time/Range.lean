import TypingTrace.Proofs.Text.Ascii
import TypingTrace.Proofs.Time.Calendar
import TypingTrace.Time.Wire
import TypingTrace.Value.Basic

/-!
# The stamps that are read

**Theorem (`Stamp.inRange_of_ofValue?`).** A number or a text that stands for a stamp stands for one
in range: a reading of the calendar with an offset of less than a day.

The bounds come from the reader's own checks. A date is one of the calendar, hours, minutes and
seconds are below their limits, and six digits of a fraction are less than a second. An offset may
have any minutes and seconds, but it is refused if it amounts to a day, and taken as none if it
amounts to less than a second.
-/

namespace TypingTrace.Time

open Text

/-- A stamp that a calendar and a clock can show: its reading is within the calendar, and its offset
is less than a day and, unless it is none, not less than a second. -/
structure Stamp.InRange (t : Stamp) : Prop where
  face : InCalendar t.face
  offset : (t.offset.natAbs : Int) < dayLength
  whole : t.offset = 0 ∨ second ≤ t.offset.natAbs

theorem Stamp.inRange_ofInstant {n : Int} (h : InCalendar n) : (ofInstant n).InRange :=
  ⟨h, Int.mul_pos (by decide) (by decide), .inl rfl⟩

/-! ## Numbers -/

theorem Stamp.inRange_of_ofMilliseconds? {q : Rat} {t : Stamp} (h : ofMilliseconds? q = some t) :
    t.InRange := by
  unfold ofMilliseconds? at h
  dsimp only at h
  split_ifs at h with hface
  obtain rfl := Option.some.inj h
  exact inRange_ofInstant hface

/-! ## Texts -/

theorem takeNumber_lt {n k : Nat} {s rest : List Char} (h : takeNumber n s = some (k, rest)) :
    k < 10 ^ n := by
  unfold takeNumber at h
  dsimp only at h
  split_ifs at h with hdigits
  obtain ⟨hlength, hall⟩ := hdigits
  obtain ⟨rfl, -⟩ := Prod.mk.inj (Option.some.inj h)
  have hbound := ofDigits_chars_lt hall
  rwa [hlength] at hbound

theorem micros_of_scanFraction {fields : List Nat} {s : List Char} {x : Scan}
    (h : scanFraction fields s = some x) : x.micros < 1000000 := by
  unfold scanFraction at h
  cases hread : takeNumber (min 6 s.length) s with
  | none => simp [hread] at h
  | some p =>
    obtain ⟨n, rest⟩ := p
    rw [hread] at h
    obtain rfl := Option.some.inj h
    have hn := takeNumber_lt hread
    show n * 10 ^ (6 - s.length) < 10 ^ 6
    by_cases hlength : s.length ≤ 6
    · rw [Nat.min_eq_right hlength] at hn
      calc
        n * 10 ^ (6 - s.length) < 10 ^ s.length * 10 ^ (6 - s.length) :=
          Nat.mul_lt_mul_of_pos_right hn (Nat.pow_pos (by decide))
        _ = 10 ^ 6 := by rw [← Nat.pow_add, Nat.add_sub_cancel' hlength]
    · rw [Nat.min_eq_left (by omega)] at hn
      rwa [Nat.sub_eq_zero_of_le (by omega), Nat.pow_zero, Nat.mul_one]

theorem micros_of_scanFields {colons : Option Bool} {fields : List Nat} {rounds : Nat}
    {s : List Char} {x : Scan} (h : scanFields colons fields rounds s = some x) :
    x.micros < 1000000 := by
  induction rounds generalizing colons fields s with
  | zero => exact micros_of_scanFraction h
  | succ rounds ih =>
    rw [scanFields] at h
    cases hread : takeNumber 2 s with
    | none => simp [hread] at h
    | some p =>
      obtain ⟨n, rest⟩ := p
      simp only [hread, Option.bind_eq_bind, Option.bind_some] at h
      cases rest with
      | nil =>
        obtain rfl := Option.some.inj h
        exact Nat.zero_lt_succ _
      | cons c after =>
        dsimp only at h
        split_ifs at h
        · obtain rfl := Option.some.inj h
          exact Nat.zero_lt_succ _
        · exact ih h
        · exact micros_of_scanFraction h
        · exact ih h

theorem total_lt {x : Scan} (hours : x.field 0 < 24) (minutes : x.field 1 < 60)
    (seconds : x.field 2 < 60) (micros : x.micros < 1000000) : (x.total : Int) < dayLength := by
  have h : x.total < 86400 * 1000000 := by
    unfold Scan.total
    omega
  exact Int.ofNat_lt.2 h

/-- A time of day, and an offset that a clock can have. -/
structure InDay (time : Nat) (offset : Option Int) : Prop where
  day : (time : Int) < dayLength
  zone : ((offset.getD 0).natAbs : Int) < dayLength
  whole : offset.getD 0 = 0 ∨ second ≤ (offset.getD 0).natAbs

theorem inDay_of_getD {time : Nat} {offset : Option Int} (h : (time : Int) < dayLength)
    (hoffset : offset.getD 0 = 0) : InDay time offset := by
  refine ⟨h, ?_, .inl hoffset⟩
  rw [hoffset]
  exact Int.mul_pos (by decide) (by decide)

theorem inDay_signed {time size : Nat} (h : (time : Int) < dayLength)
    (hday : (size : Int) < dayLength) (hwhole : second ≤ size) (sign : Char) :
    InDay time (some (if sign = '-' then -(size : Int) else size)) := by
  have hsize : (if sign = '-' then -(size : Int) else size).natAbs = size := by
    split_ifs
    · rw [Int.natAbs_neg, Int.natAbs_natCast]
    · exact Int.natAbs_natCast size
  refine ⟨h, ?_, .inr ?_⟩
  · rw [Option.getD_some, hsize]
    exact hday
  · rw [Option.getD_some, hsize]
    exact hwhole

theorem inDay_of_readTime {s : List Char} {time : Nat} {offset : Option Int}
    (h : readTime s = some (time, offset)) : InDay time offset := by
  unfold readTime at h
  generalize cutAtOffset s = parts at h
  obtain ⟨clock, zone⟩ := parts
  obtain ⟨x, hscan, h⟩ := Option.bind_eq_some_iff.1 h
  by_cases hfields : 24 ≤ x.field 0 ∨ 60 ≤ x.field 1 ∨ 60 ≤ x.field 2
  · rw [if_pos hfields] at h
    cases h
  rw [if_neg hfields] at h
  have htotal := total_lt (by omega) (by omega) (by omega) (micros_of_scanFields hscan)
  split at h
  · split_ifs at h
    cases h
    exact inDay_of_getD htotal rfl
  · split_ifs at h
    cases h
    exact inDay_of_getD htotal rfl
  · rename_i sign rest _ _
    obtain ⟨y, -, h⟩ := Option.bind_eq_some_iff.1 h
    by_cases hrefused : !y.clean ∨ dayLength ≤ y.total
    · rw [if_pos hrefused] at h
      cases h
    rw [if_neg hrefused] at h
    by_cases hsmall : (y.total : Int) < second
    · rw [if_pos hsmall] at h
      cases h
      exact inDay_of_getD htotal rfl
    · rw [if_neg hsmall] at h
      have hday : (y.total : Int) < dayLength := Int.not_le.1 fun hle => hrefused (.inr hle)
      obtain ⟨rfl, rfl⟩ := Prod.mk.inj (Option.some.inj h)
      exact inDay_signed htotal hday (Int.not_lt.1 hsmall) sign

theorem inRange_of_inDay {date : Date} (hdate : date.IsValid) {time : Nat} {offset : Option Int}
    (h : InDay time offset) :
    (Moment.mk (((date.number : Int) - epochDay) * dayLength + time) offset).toStamp.InRange where
  face := by
    have hnumber := hdate.inNumbers
    have htime := h.day
    unfold InNumbers at hnumber
    simp only [Moment.toStamp, InCalendar, epochDay, dayLength, second] at htime ⊢
    omega
  offset := h.zone
  whole := h.whole

/-- What is read is in range. -/
theorem inRange_of_readBytes {s : List Char} {m : Moment} (h : readBytes s = some m) :
    m.toStamp.InRange := by
  unfold readBytes at h
  obtain ⟨stop, -, h⟩ := Option.bind_eq_some_iff.1 h
  obtain ⟨date, -, h⟩ := Option.bind_eq_some_iff.1 h
  dsimp only at h
  split at h
  · rw [Option.bind_eq_bind, Option.bind_some] at h
    split_ifs at h with hdate
    obtain rfl := Option.some.inj h
    exact inRange_of_inDay hdate (inDay_of_getD (Int.mul_pos (by decide) (by decide)) rfl)
  · obtain ⟨⟨time, offset⟩, htime, h⟩ := Option.bind_eq_some_iff.1 h
    dsimp only at h
    split_ifs at h with hdate
    obtain rfl := Option.some.inj h
    exact inRange_of_inDay hdate (inDay_of_readTime htime)

theorem Stamp.inRange_of_ofText? {s : String} {t : Stamp} (h : ofText? s = some t) :
    t.InRange := by
  obtain ⟨m, hm, rfl⟩ := Option.map_eq_some_iff.1 h
  unfold readIso at hm
  dsimp only at hm
  split_ifs at hm
  exact inRange_of_readBytes hm

/-! ## Values -/

/-- A value that is no clock reading stands for a stamp in range, if for any. -/
theorem Stamp.inRange_of_ofValue? {v : Value} (hv : ∀ m, v ≠ .moment m) {t : Stamp}
    (h : ofValue? v = some t) : t.InRange := by
  unfold ofValue? at h
  split at h
  · exact absurd rfl (hv _)
  · exact inRange_of_ofMilliseconds? h
  · obtain ⟨q, -, hq⟩ := Option.bind_eq_some_iff.1 h
    exact inRange_of_ofMilliseconds? hq
  · obtain ⟨q, -, hq⟩ := Option.bind_eq_some_iff.1 h
    exact inRange_of_ofMilliseconds? hq
  · obtain ⟨s, -, hs⟩ := Option.bind_eq_some_iff.1 h
    exact inRange_of_ofText? hs

end TypingTrace.Time
