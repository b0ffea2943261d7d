import Mathlib.Data.List.Basic
import TypingTrace.Proofs.Time.Range

/-!
# Stamps in text and back

**Theorem (`Stamp.ofText?_iso`).** A stamp in range that is written in ISO 8601 notation reads back
as the same stamp, with its offset.

The text is taken apart as characters first (`toList_iso`): a date of ten characters, the mark `T`,
a time of day, the sign of the offset, and its size. Each part is read by the function that is meant
for it. The time ends at the first sign since it has digits, colons and points only, and its scan
stops where it ends, with or without a fraction. An offset is written without seconds only if it
has none.
-/

namespace TypingTrace.Time

open Text

/-! ## The characters of a stamp -/

/-- A fraction of a second as it is written, if there is one. -/
def fractionChars (micros : Nat) : List Char :=
  if micros = 0 then [] else '.' :: paddedChars 6 micros

/-- A time of day, or a size of an offset, as it is written with seconds. -/
def clockChars (micros : Nat) : List Char :=
  let (h, m, s, f) := hms micros
  paddedChars 2 h ++ ':' :: (paddedChars 2 m ++ ':' :: (paddedChars 2 s ++ fractionChars f))

/-- The size of an offset as it is written. -/
def zoneChars (micros : Nat) : List Char :=
  let (h, m, s, f) := hms micros
  if s = 0 ∧ f = 0 then paddedChars 2 h ++ ':' :: paddedChars 2 m else clockChars micros

def dateChars (d : Date) : List Char :=
  paddedChars 4 d.year ++ '-' :: (paddedChars 2 d.month ++ '-' :: paddedChars 2 d.day)

def signOf (offset : Int) : Char := if offset < 0 then '-' else '+'

theorem toList_padded (width n : Nat) : (padded width n).toList = paddedChars width n :=
  String.toList_ofList

theorem toList_fractionText (micros : Nat) :
    (fractionText micros).toList = fractionChars micros := by
  unfold fractionText fractionChars
  split_ifs
  · rfl
  · rw [String.toList_append, toList_padded]
    rfl

theorem toList_faceText (face : Int) : (faceText "T" face).toList =
    dateChars (dateOf face) ++ 'T' :: clockChars (timeOf face) := by
  simp [faceText, dateChars, clockChars, toList_padded, toList_fractionText]

theorem toList_offsetText (offset : Int) : (offsetText offset).toList =
    signOf offset :: zoneChars offset.natAbs := by
  unfold offsetText signOf zoneChars clockChars
  dsimp only
  split_ifs <;> simp [toList_padded, toList_fractionText]

theorem toList_iso (t : Stamp) : t.iso.toList =
    dateChars (dateOf t.face) ++ 'T' ::
      (clockChars (timeOf t.face) ++ signOf t.offset :: zoneChars t.offset.natAbs) := by
  rw [Stamp.iso, String.toList_append, toList_faceText, toList_offsetText, List.append_assoc,
    List.cons_append]

/-! ## Reading numbers -/

theorem takeNumber_paddedChars {width n : Nat} (hwidth : 0 < width) (h : n < 10 ^ width)
    (rest : List Char) : takeNumber width (paddedChars width n ++ rest) = some (n, rest) := by
  have hlength := length_paddedChars hwidth h
  have hdigits : (paddedChars width n).all Char.isDigit :=
    List.all_eq_true.2 fun c hc => isDigit_of_mem_paddedChars hc
  unfold takeNumber
  rw [List.take_left' hlength, List.drop_left' hlength]
  dsimp only
  rw [if_pos ⟨hlength, hdigits⟩, ofDigits_paddedChars]

theorem takeNumber_two {n : Nat} (h : n < 100) (rest : List Char) :
    takeNumber 2 (paddedChars 2 n ++ rest) = some (n, rest) :=
  takeNumber_paddedChars (by decide) h rest

theorem paddedTwo_ne_nil {n : Nat} (h : n < 100) : paddedChars 2 n ≠ [] :=
  paddedChars_ne_nil (by decide) h

/-! ## Reading a time of day -/

theorem scanFraction_padded {fields : List Nat} {micros : Nat} (h : micros < 1000000) :
    scanFraction fields (paddedChars 6 micros) = some ⟨fields, micros, true⟩ := by
  have hread := takeNumber_paddedChars (show 0 < 6 by decide) h []
  rw [List.append_nil] at hread
  rw [scanFraction, length_paddedChars (by decide) h, Nat.min_self, hread]
  simp [isEnd]

/-- A field with a colon after it is followed by the next one. -/
theorem scanFields_colon {colons : Option Bool} (hcolons : colons.getD true = true)
    {fields : List Nat} {rounds n : Nat} (h : n < 100) {after : List Char} (hafter : after ≠ []) :
    scanFields colons fields (rounds + 1) (paddedChars 2 n ++ ':' :: after) =
      scanFields (some true) (fields ++ [n]) rounds after := by
  rw [scanFields, takeNumber_two h]
  cases colons <;> simp_all

/-- After the last field there may be a fraction. -/
theorem scanFields_last {colons : Option Bool} {fields : List Nat} {rounds n micros : Nat}
    (h : n < 100) (hmicros : micros < 1000000) :
    scanFields colons fields (rounds + 1) (paddedChars 2 n ++ fractionChars micros) =
      some ⟨fields ++ [n], micros, true⟩ := by
  rw [scanFields, takeNumber_two h]
  unfold fractionChars
  split_ifs with hzero
  · rw [hzero]
    rfl
  · have hne : paddedChars 6 micros ≠ [] := paddedChars_ne_nil (by decide) hmicros
    simp [hne, scanFraction_padded hmicros]

/-- A scan that took in all of a time of day, or of an offset. -/
structure Scan.IsOf (x : Scan) (micros : Nat) : Prop where
  clean : x.clean = true
  total : x.total = micros
  hours : x.field 0 < 24
  minutes : x.field 1 < 60
  seconds : x.field 2 < 60

theorem hms_spec (micros : Nat) : let (h, m, s, f) := hms micros
    ((h * 60 + m) * 60 + s) * 1000000 + f = micros ∧ m < 60 ∧ s < 60 ∧ f < 1000000 := by
  simp only [hms]
  omega

theorem scan_clockChars {micros : Nat} (h : micros < 86400000000) :
    ∃ x, scan (clockChars micros) = some x ∧ x.IsOf micros := by
  have hspec := hms_spec micros
  unfold clockChars scan
  generalize hms micros = parts at hspec ⊢
  obtain ⟨hour, minute, sec, frac⟩ := parts
  obtain ⟨htotal, hminute, hsec, hfrac⟩ := hspec
  have hhour : hour < 24 := by omega
  refine ⟨⟨[hour, minute, sec], frac, true⟩, ?_, rfl, htotal, hhour, hminute, hsec⟩
  have hne : paddedChars 2 sec ++ fractionChars frac ≠ [] :=
    List.append_ne_nil_of_left_ne_nil (paddedTwo_ne_nil (by omega)) _
  dsimp only
  rw [scanFields_colon rfl (by omega) (by simp), scanFields_colon rfl (by omega) hne,
    scanFields_last (by omega) hfrac]
  rfl

theorem scan_zoneChars {micros : Nat} (h : micros < 86400000000) :
    ∃ x, scan (zoneChars micros) = some x ∧ x.IsOf micros := by
  by_cases hshort : (hms micros).2.2.1 = 0 ∧ (hms micros).2.2.2 = 0
  · have hspec := hms_spec micros
    have hchars : zoneChars micros =
        paddedChars 2 (hms micros).1 ++ ':' :: paddedChars 2 (hms micros).2.1 := if_pos hshort
    rw [hchars, scan]
    generalize hms micros = parts at hspec hshort ⊢
    obtain ⟨hour, minute, sec, frac⟩ := parts
    obtain ⟨rfl, rfl⟩ : sec = 0 ∧ frac = 0 := hshort
    obtain ⟨htotal, hminute, -, -⟩ := hspec
    have hhour : hour < 24 := by omega
    refine ⟨⟨[hour, minute], 0, true⟩, ?_, rfl, htotal, hhour, hminute, Nat.zero_lt_succ _⟩
    have hlast := @scanFields_last (some true) [hour] 1 minute 0 (by omega) (by decide)
    rw [show fractionChars 0 = [] from rfl, List.append_nil] at hlast
    dsimp only
    rw [scanFields_colon rfl (by omega) (paddedTwo_ne_nil (by omega)), List.nil_append, hlast]
    rfl
  · have hchars : zoneChars micros = clockChars micros := if_neg hshort
    rw [hchars]
    exact scan_clockChars h

/-! ## Characters of a time -/

/-- A character that belongs to a clock part, and not to the mark of an offset. -/
def IsClockChar (c : Char) : Prop := c.isDigit ∨ c = ':' ∨ c = '.'

theorem isClockChar_padded {width n : Nat} {c : Char} (h : c ∈ paddedChars width n) :
    IsClockChar c := .inl (isDigit_of_mem_paddedChars h)

theorem isClockChar_fractionChars {micros : Nat} {c : Char} (h : c ∈ fractionChars micros) :
    IsClockChar c := by
  unfold fractionChars at h
  split_ifs at h
  · cases h
  · rcases List.mem_cons.1 h with rfl | h
    · exact .inr (.inr rfl)
    · exact isClockChar_padded h

theorem isClockChar_clockChars {micros : Nat} {c : Char} (h : c ∈ clockChars micros) :
    IsClockChar c := by
  unfold clockChars at h
  simp only [List.mem_append, List.mem_cons] at h
  rcases h with h | rfl | h | rfl | h | h
  · exact isClockChar_padded h
  · exact .inr (.inl rfl)
  · exact isClockChar_padded h
  · exact .inr (.inl rfl)
  · exact isClockChar_padded h
  · exact isClockChar_fractionChars h

theorem isClockChar_zoneChars {micros : Nat} {c : Char} (h : c ∈ zoneChars micros) :
    IsClockChar c := by
  unfold zoneChars at h
  dsimp only at h
  split_ifs at h
  · simp only [List.mem_append, List.mem_cons] at h
    rcases h with h | rfl | h
    · exact isClockChar_padded h
    · exact .inr (.inl rfl)
    · exact isClockChar_padded h
  · exact isClockChar_clockChars h

theorem signOf_cases (offset : Int) : signOf offset = '-' ∨ signOf offset = '+' := by
  unfold signOf
  split_ifs
  · exact .inl rfl
  · exact .inr rfl

theorem cutAtOffset_append {clock : List Char} (h : ∀ c ∈ clock, IsClockChar c) {sign : Char}
    (hsign : sign = '-' ∨ sign = '+') (rest : List Char) :
    cutAtOffset (clock ++ sign :: rest) = (clock, sign :: rest) := by
  have hplain : ∀ c ∈ clock, (c != '+' && c != '-' && c != 'Z') = true := by
    intro c hc
    rcases h c hc with hdigit | rfl | rfl
    · have := isDigit_iff.1 hdigit
      simp only [Bool.and_eq_true, bne_iff_ne, ne_eq]
      refine ⟨⟨?_, ?_⟩, ?_⟩ <;> (rintro rfl; revert this; decide)
    · rfl
    · rfl
  have hstop : (sign != '+' && sign != '-' && sign != 'Z') = false := by
    rcases hsign with rfl | rfl <;> rfl
  unfold cutAtOffset
  dsimp only
  rw [List.takeWhile_append_of_pos hplain, List.dropWhile_append_of_pos hplain,
    List.takeWhile_cons, List.dropWhile_cons, hstop]
  simp

/-- A time of day with an offset is read by scanning both. -/
theorem readTime_append {clock rest : List Char} (hclock : ∀ c ∈ clock, IsClockChar c)
    {sign : Char} (hsign : sign = '-' ∨ sign = '+') {x y : Scan} {micros size : Nat}
    (hx : scan clock = some x) (hxclock : x.IsOf micros) (hy : scan rest = some y)
    (hyzone : y.IsOf size) (hsize : (size : Int) < dayLength) :
    readTime (clock ++ sign :: rest) = if (size : Int) < second then some (micros, some 0)
      else some (micros, some (if sign = '-' then -(size : Int) else size)) := by
  have hfields : ¬(24 ≤ x.field 0 ∨ 60 ≤ x.field 1 ∨ 60 ≤ x.field 2) := by
    have := hxclock.hours
    have := hxclock.minutes
    have := hxclock.seconds
    omega
  have hrefused : ¬(!y.clean ∨ dayLength ≤ y.total) := by
    rw [hyzone.clean, hyzone.total]
    simp [Int.not_le.2 hsize]
  rw [← hxclock.total, ← hyzone.total]
  unfold readTime
  rw [cutAtOffset_append hclock hsign]
  dsimp only
  rw [hx, Option.bind_eq_bind, Option.bind_some, if_neg hfields]
  rcases hsign with rfl | rfl
  · show (scan rest >>= _) = _
    rw [hy, Option.bind_eq_bind, Option.bind_some, if_neg hrefused]
  · show (scan rest >>= _) = _
    rw [hy, Option.bind_eq_bind, Option.bind_some, if_neg hrefused]

/-- **Reading a time.** -/
theorem readTime_chars {micros : Nat} {offset : Int} (h : micros < 86400000000)
    (hoffset : (offset.natAbs : Int) < dayLength) (hwhole : offset = 0 ∨ second ≤ offset.natAbs) :
    readTime (clockChars micros ++ signOf offset :: zoneChars offset.natAbs) =
      some (micros, some offset) := by
  obtain ⟨x, hx, hclock⟩ := scan_clockChars h
  obtain ⟨y, hy, hzone⟩ := scan_zoneChars (Int.ofNat_lt.1 hoffset)
  rw [readTime_append (fun c => isClockChar_clockChars) (signOf_cases offset) hx hclock hy hzone
    hoffset]
  rcases hwhole with rfl | hwhole
  · rfl
  · have hsigned : (if signOf offset = '-' then -(offset.natAbs : Int) else offset.natAbs) =
        offset := by
      unfold signOf
      by_cases hnegative : offset < 0
      · rw [if_pos hnegative, if_pos rfl]
        omega
      · rw [if_neg hnegative, if_neg (by decide)]
        omega
    rw [if_neg (Int.not_lt.2 hwhole), hsigned]

/-! ## Reading a date -/

/-- The numbers of a date have as many digits as they are written with. -/
theorem Date.IsValid.lt {d : Date} (h : d.IsValid) :
    d.year < 10 ^ 4 ∧ d.month < 100 ∧ d.day < 100 := by
  obtain ⟨-, hyear, -, hmonth, -, hday⟩ := h
  have := daysInMonth_le d.year d.month
  omega

theorem length_dateChars {d : Date} (h : d.IsValid) : (dateChars d).length = 10 := by
  obtain ⟨hyear, hmonth, hday⟩ := h.lt
  rw [dateChars, List.length_append, List.length_cons, List.length_append, List.length_cons,
    length_paddedChars (by decide) hyear, length_paddedChars (by decide) hmonth,
    length_paddedChars (by decide) hday]

/-- Two digits are no mark of a week. -/
theorem exists_twoChars {n : Nat} (h : n < 100) :
    ∃ a b, paddedChars 2 n = [a, b] ∧ a ≠ 'W' := by
  obtain ⟨a, b, hab⟩ := List.length_eq_two.1 (length_paddedChars (by decide) h)
  refine ⟨a, b, hab, ?_⟩
  rintro rfl
  have hdigit := @isDigit_of_mem_paddedChars 2 n 'W' (by rw [hab]; exact List.mem_cons_self)
  exact absurd hdigit (by decide)

theorem readDate_dateChars {d : Date} (h : d.IsValid) : readDate (dateChars d) = some d := by
  obtain ⟨hyear, hmonth, hday⟩ := h.lt
  obtain ⟨a, b, hab, ha⟩ := exists_twoChars hmonth
  have hread := takeNumber_two hmonth ('-' :: paddedChars 2 d.day)
  have hread' := takeNumber_two hday []
  rw [hab] at hread
  rw [List.append_nil] at hread'
  rw [dateChars, readDate, takeNumber_paddedChars (by decide) hyear, hab]
  simp only [Option.bind_eq_bind, Option.bind_some]
  simp only [List.head?_cons, beq_self_eq_true, if_true, List.drop_succ_cons, List.drop_zero]
  split
  · rename_i heq
    exact absurd (List.cons.inj heq).1 ha
  · rw [hread]
    simp only [Option.bind_some, takeHyphen, if_true, hread']
    rfl

theorem dateEnd_dateChars {d : Date} (h : d.IsValid) {mark : Char} {rest : List Char} :
    dateEnd (dateChars d ++ mark :: rest) = some 10 := by
  obtain ⟨hyear, hmonth, hday⟩ := h.lt
  obtain ⟨a, b, hab, ha⟩ := exists_twoChars hmonth
  have hlength : (paddedChars 4 d.year).length = 4 := length_paddedChars (by decide) hyear
  have hhyphen : (dateChars d ++ mark :: rest)[4]? = some '-' := by
    rw [dateChars, List.append_assoc, List.getElem?_append_right (by omega), hlength]
    rfl
  have hmonth : (dateChars d ++ mark :: rest)[5]? = some a := by
    rw [dateChars, List.append_assoc, List.getElem?_append_right (by omega), hlength, hab]
    rfl
  have hshort : ¬ (dateChars d ++ mark :: rest).length = 7 := by
    rw [List.length_append, length_dateChars h]
    omega
  unfold dateEnd
  dsimp only
  rw [if_neg hshort, if_pos hhyphen, hmonth, if_neg (by simpa using ha)]

/-! ## Reading a stamp -/

theorem replaceHalf_of_storable {s : List Char} (h : isStorable s) : replaceHalf s = s := by
  have hnone : [7, 8, 10].find? (fun i => (s[i]?.bind half?).isSome) = none := by
    refine List.find?_eq_none.2 fun i _ => ?_
    cases hi : s[i]? with
    | none => simp
    | some c =>
      have hc := List.all_eq_true.1 h c (List.mem_of_getElem? hi)
      rw [Option.bind_some]
      simpa using hc
  rw [replaceHalf, hnone]

theorem writeOutZ_of_not_mem {s : List Char} (h : 'Z' ∉ s) : writeOutZ s = s := by
  induction s with
  | nil => rfl
  | cons c s ih =>
    rw [List.mem_cons, not_or] at h
    rw [writeOutZ, List.flatMap_cons, if_neg (Ne.symm h.1)]
    exact congrArg (c :: ·) (ih h.2)

/-- A reading of the calendar as a date and a time of day. -/
theorem face_spec {face : Int} (h : InCalendar face) :
    (dateOf face).IsValid ∧ timeOf face < 86400000000 ∧
      (((dateOf face).number : Int) - epochDay) * dayLength + timeOf face = face := by
  have hlength : dayLength = 86400000000 := rfl
  have hepoch : epochDay = 719163 := rfl
  unfold InCalendar at h
  rw [hlength] at h
  have hnumbers : InNumbers ((face.fdiv dayLength) + epochDay).toNat := by
    rw [Int.fdiv_eq_ediv_of_nonneg _ (by decide), hlength, hepoch, InNumbers]
    omega
  obtain ⟨hvalid, hnumber⟩ := number_ofNumber hnumbers
  refine ⟨hvalid, ?_, ?_⟩
  · rw [timeOf, Int.fmod_eq_emod_of_nonneg _ (by decide), hlength]
    omega
  · rw [dateOf, hnumber, timeOf, Int.fdiv_eq_ediv_of_nonneg _ (by decide),
      Int.fmod_eq_emod_of_nonneg _ (by decide), hlength, hepoch]
    omega

theorem readBytes_iso {t : Stamp} (h : t.InRange) : readBytes t.iso.toList = some t.toMoment := by
  obtain ⟨hvalid, htime, hface⟩ := face_spec h.face
  have hlength := length_dateChars hvalid
  have hread := readTime_chars htime h.offset h.whole
  rw [toList_iso, readBytes, dateEnd_dateChars hvalid, Option.bind_eq_bind, Option.bind_some,
    List.take_left' hlength, readDate_dateChars hvalid, Option.bind_eq_bind, Option.bind_some,
    List.drop_left' hlength]
  dsimp only
  rw [show 10 + widthFrom 'T' = 10 + 1 from rfl, ← List.drop_drop, List.drop_left' hlength,
    List.drop_succ_cons, List.drop_zero, hread, Option.bind_eq_bind, Option.bind_some,
    if_pos hvalid, hface]
  rfl

/-! ## Reading the text -/

theorem IsClockChar.ascii {c : Char} (h : IsClockChar c) : c.toNat < 128 ∧ c ≠ 'Z' := by
  rcases h with hdigit | rfl | rfl
  · have := isDigit_iff.1 hdigit
    refine ⟨by omega, ?_⟩
    rintro rfl
    exact absurd hdigit (by decide)
  · decide
  · decide

theorem ascii_dateChars {d : Date} {c : Char} (h : c ∈ dateChars d) : c.toNat < 128 ∧ c ≠ 'Z' := by
  simp only [dateChars, List.mem_append, List.mem_cons] at h
  rcases h with h | rfl | h | rfl | h
  · exact (isClockChar_padded h).ascii
  · decide
  · exact (isClockChar_padded h).ascii
  · decide
  · exact (isClockChar_padded h).ascii

theorem ascii_iso (t : Stamp) {c : Char} (h : c ∈ t.iso.toList) : c.toNat < 128 ∧ c ≠ 'Z' := by
  simp only [toList_iso, List.mem_append, List.mem_cons] at h
  rcases h with h | rfl | h | rfl | h
  · exact ascii_dateChars h
  · decide
  · exact (isClockChar_clockChars h).ascii
  · rcases signOf_cases t.offset with hsign | hsign <;> rw [hsign] <;> decide
  · exact (isClockChar_zoneChars h).ascii

/-- **A stamp that is written reads back.** -/
theorem Stamp.ofText?_iso {t : Stamp} (h : t.InRange) : ofText? t.iso = some t := by
  have hascii : ∀ c ∈ t.iso.toList, c.toNat < 128 := fun c hc => (ascii_iso t hc).1
  have hnotz : 'Z' ∉ t.iso.toList := fun hz => (ascii_iso t hz).2 rfl
  have hstorable := isStorable_of_ascii hascii
  have hlong : ¬ t.iso.toList.length < 7 := by
    rw [toList_iso, List.length_append, length_dateChars (face_spec h.face).1]
    omega
  rw [ofText?, writeOutZ_of_not_mem hnotz, readIso, replaceHalf_of_storable hstorable,
    if_neg (by simp [hlong, hstorable]), bytes_of_ascii hascii, readBytes_iso h]
  rfl

end TypingTrace.Time
