import TypingTrace.Proofs.Number.Order
import TypingTrace.Proofs.Text.Ascii
import TypingTrace.Report.Format

/-!
# Durations in reports, read back

A duration is read word by word (`readFields`): a word is a number with the letter of its unit, and
a unit without a word counts as zero (`amountOf`).

**Theorem (`durationText_reads`).** What is read back of a duration in milliseconds are its whole
seconds, with less than sixty of the minutes and of the seconds, and no zero in front. So two
durations look alike exactly if they have equally many whole seconds. Whatever is below zero looks
like zero.

A duration is shown if its hours have no more digits than a text may have. Machine integers of eight
bits are not shown at all, since they have no room for the thousand that they are divided by
(`durationText_refused`).

The text is that of a list of fields (`secondsText_eq`), and reading undoes the writing of any such
list (`readFields_fieldsText`). What the fields add up to is then a matter of remainders
(`shows_fieldsOf`).
-/

namespace TypingTrace.Report

open Text

/-! ## Fields -/

/-- One field of a duration: the letter of a unit, and how many of it. -/
abbrev DurationField := Char × Nat

/-- The field that a word spells: digits, and the letter of the unit after them. -/
def readField (word : List Char) : Option DurationField :=
  match takeDigits word with
  | (d :: digits, [unit]) => some (unit, ofDigits (d :: digits))
  | _ => none

/-- The fields of a duration, with blanks between them. -/
def readFields (text : String) : Option (List DurationField) :=
  (text.toList.splitOn ' ').mapM readField

/-- How many of a unit there are, zero if the field is absent. -/
def amountOf (unit : Char) (fields : List DurationField) : Nat := (fields.lookup unit).getD 0

/-- How a field is written. -/
def DurationField.word (f : DurationField) : List Char := natChars f.2 ++ [f.1]

/-- Fields as they are written, a blank between any two. -/
def fieldsText (fields : List DurationField) : String :=
  String.ofList ([' '].intercalate (fields.map DurationField.word))

theorem readField_word {f : DurationField} (h : f.1.isDigit = false) :
    readField f.word = some f := by
  have hne : (natChars f.2).map (·.toNat - 48) ≠ [] := by simp [natChars]
  obtain ⟨d, digits, hcons⟩ := List.exists_cons_of_ne_nil hne
  rw [readField, DurationField.word,
    takeDigits_append (fun _ => isDigit_of_mem_natChars) (by simpa using h), hcons]
  dsimp only
  rw [← hcons, ofDigits_natChars]

theorem blank_notMem_word {f : DurationField} (h : f.1 ≠ ' ') : ' ' ∉ f.word := by
  intro hmem
  rcases List.mem_append.1 hmem with hdigit | hunit
  · have hblank := isDigit_of_mem_natChars hdigit
    cases hblank
  · exact h (List.mem_singleton.1 hunit).symm

theorem mapM_readField_words {fields : List DurationField}
    (h : ∀ f ∈ fields, f.1.isDigit = false) :
    (fields.map DurationField.word).mapM readField = some fields := by
  induction fields with
  | nil => rfl
  | cons f rest ih =>
    have hfirst := readField_word (h f List.mem_cons_self)
    have hrest := ih fun f' hf' => h f' (List.mem_cons_of_mem f hf')
    simp [List.mapM_cons, hfirst, hrest]

/-- **Reading undoes writing**, for units that are neither digits nor blanks. -/
theorem readFields_fieldsText {fields : List DurationField} (hne : fields ≠ [])
    (h : ∀ f ∈ fields, f.1.isDigit = false ∧ f.1 ≠ ' ') :
    readFields (fieldsText fields) = some fields := by
  have hblanks : ∀ word ∈ fields.map DurationField.word, ' ' ∉ word := by
    intro word hword
    obtain ⟨f, hf, rfl⟩ := List.mem_map.1 hword
    exact blank_notMem_word (h f hf).2
  rw [readFields, fieldsText, String.toList_ofList,
    List.splitOn_intercalate ' ' hblanks (by simpa using hne),
    mapM_readField_words fun f hf => (h f hf).1]

/-! ## Whole seconds -/

/-- Fields that show a number of whole seconds: the larger units first, none left out after the
first field, and that one zero only if it stands alone. -/
structure ShowsSeconds (fields : List DurationField) (seconds : Nat) : Prop where
  nonempty : fields ≠ []
  units : fields.map Prod.fst <:+ ['h', 'm', 's']
  total : amountOf 'h' fields * 3600 + amountOf 'm' fields * 60 + amountOf 's' fields = seconds
  minutes_lt : amountOf 'm' fields < 60
  seconds_lt : amountOf 's' fields < 60
  leading : ∀ first others, fields = first :: others → others ≠ [] → first.2 ≠ 0

/-- The fields that a number of whole seconds is written with. -/
def fieldsOf (seconds : Nat) : List DurationField :=
  let minutes := seconds / 60
  let hours := minutes / 60
  if 0 < hours then [('h', hours), ('m', minutes % 60), ('s', seconds % 60)]
  else if 0 < minutes then [('m', minutes), ('s', seconds % 60)]
  else [('s', seconds)]

theorem secondsText_eq (seconds : Nat) : secondsText seconds = fieldsText (fieldsOf seconds) := by
  rw [← String.toList_inj]
  unfold secondsText fieldsOf fieldsText
  dsimp only
  split_ifs <;> simp [DurationField.word, natText]

theorem shows_fieldsOf (seconds : Nat) : ShowsSeconds (fieldsOf seconds) seconds := by
  unfold fieldsOf
  dsimp only
  split_ifs with hhours hminutes
  · refine ⟨by simp, List.suffix_refl _, ?_, ?_, ?_, ?_⟩
    all_goals simp [amountOf, List.lookup]
    all_goals omega
  · refine ⟨by simp, ⟨['h'], rfl⟩, ?_, ?_, ?_, ?_⟩
    all_goals simp [amountOf, List.lookup]
    all_goals omega
  · refine ⟨by simp, ⟨['h', 'm'], rfl⟩, ?_, ?_, ?_, ?_⟩
    all_goals simp [amountOf, List.lookup]
    all_goals omega

theorem ShowsSeconds.readFields_fieldsText {fields : List DurationField} {seconds : Nat}
    (h : ShowsSeconds fields seconds) : readFields (fieldsText fields) = some fields := by
  have hletters : ∀ unit ∈ ['h', 'm', 's'], unit.isDigit = false ∧ unit ≠ ' ' := by simp
  exact Report.readFields_fieldsText h.nonempty fun f hf =>
    hletters f.1 (h.units.subset (List.mem_map_of_mem hf))

theorem readFields_secondsText (seconds : Nat) :
    readFields (secondsText seconds) = some (fieldsOf seconds) := by
  rw [secondsText_eq, (shows_fieldsOf seconds).readFields_fieldsText]

example : readFields "1h 2m 3s" = some [('h', 1), ('m', 2), ('s', 3)] := by decide +kernel

/-- A number of seconds is known from its text. -/
theorem secondsText_inj {m n : Nat} : secondsText m = secondsText n ↔ m = n := by
  refine ⟨fun h => ?_, fun h => congrArg secondsText h⟩
  have hfields : fieldsOf m = fieldsOf n := by
    have hread := congrArg readFields h
    rwa [readFields_secondsText, readFields_secondsText, Option.some.injEq] at hread
  have hm := (shows_fieldsOf m).total
  rwa [hfields, (shows_fieldsOf n).total, eq_comm] at hm

/-! ## Milliseconds -/

theorem durationText_natCast (n : Nat) : durationText (.int n) =
      if n / 3600000 < 10 ^ digitLimit then .ok (secondsText (n / 1000))
      else .error .longInteger := by
  rw [durationText, Value.compare_numbers rfl rfl, Comparison.numbers, Number.le_int]
  by_cases hzero : (n : Int) ≤ 0
  · obtain rfl : n = 0 := by omega
    rw [if_pos (Nat.pow_pos (by decide))]
    rfl
  · have hseconds : ((n : Int).fdiv 1000).toNat = n / 1000 := by
      rw [Int.fdiv_eq_ediv_of_nonneg _ (by decide)]
      omega
    have hhours : (((n / 1000 : Nat) : Int) / 3600).natAbs = n / 3600000 := by omega
    rw [decide_eq_false hzero]
    show (if fitsDigits ((((n : Int).fdiv 1000).toNat : Int) / 3600) then _ else _) = _
    rw [hseconds]
    exact if_congr (fitsDigits_iff.trans (by rw [hhours])) rfl rfl

/-- A number below zero, of whatever type. -/
theorem durationText_of_lt {v : Value} {x : Number} (hv : v.number? = some x) (h : x.lt 0) :
    durationText v = .ok "0s" := by
  have hcompare : v.compare .le (.int 0) = .ok true :=
    (Value.compare_numbers hv rfl .le).trans (congrArg Except.ok (Number.le_of_lt h))
  rw [durationText, hcompare]
  rfl

/-- **Durations read back.** A number of milliseconds that is not negative is shown unless its hours
have too many digits, and what is shown reads back as its whole seconds. One that is shown looks
like another exactly if these are the same, and what is negative is shown as zero is. -/
theorem durationText_reads :
    (∀ n : Nat, n / 3600000 < 10 ^ digitLimit → ∃ text fields, durationText (.int n) = .ok text ∧
      readFields text = some fields ∧ ShowsSeconds fields (n / 1000)) ∧
    (∀ n : Nat, 10 ^ digitLimit ≤ n / 3600000 → durationText (.int n) = .error .longInteger) ∧
    (∀ m n : Nat, m / 3600000 < 10 ^ digitLimit →
      (durationText (.int m) = durationText (.int n) ↔ m / 1000 = n / 1000)) ∧
    ∀ {v : Value} {x : Number}, v.number? = some x → x.lt 0 → durationText v = .ok "0s" := by
  refine ⟨fun n hn => ?_, fun n hn => ?_, fun m n hm => ?_, fun hv hnegative => ?_⟩
  · exact ⟨_, _, (durationText_natCast n).trans (if_pos hn), readFields_secondsText _,
      shows_fieldsOf _⟩
  · exact (durationText_natCast n).trans (if_neg (Nat.not_lt.2 hn))
  · rw [durationText_natCast, durationText_natCast, if_pos hm]
    by_cases hn : n / 3600000 < 10 ^ digitLimit
    · rw [if_pos hn, Except.ok.injEq, secondsText_inj]
    · -- A duration with longer hours is not shown, and has other whole seconds.
      rw [if_neg hn]
      exact iff_of_false nofun fun h => hn (by rwa [show n / 3600000 = m / 3600000 by omega])
  · exact durationText_of_lt hv hnegative

/-- The last millisecond of an hour shows the second that it belongs to, and the next one another;
half a millisecond less than nothing shows nothing. -/
theorem durationText_reads_lastOfHour :
    durationText (.int 3599999) = durationText (.int 3599000) ∧
      durationText (.int 3599999) ≠ durationText (.int 3600000) ∧
      (Number.fraction (mkRat (-1) 2)).lt 0 ∧
      durationText (.fraction (mkRat (-1) 2)) = .ok "0s" := by
  obtain ⟨-, -, hsame, hnegative⟩ := durationText_reads
  have hhours : 3599999 / 3600000 < 10 ^ digitLimit := Nat.pow_pos (by decide)
  have hless : (Number.fraction (mkRat (-1) 2)).lt 0 := by decide
  have hother : durationText (.int 3599999) ≠ durationText (.int 3600000) := fun h =>
    absurd ((hsame 3599999 3600000 hhours).1 h) (by decide)
  exact ⟨(hsame 3599999 3599000 hhours).2 rfl, hother, hless, hnegative rfl hless⟩

/-- **Durations that are not shown**: one with an hour too many for its digits, and one of a fifth
of a second as a machine integer. -/
theorem durationText_refused :
    durationText (.int (3600000 * 10 ^ digitLimit : Nat)) = .error .longInteger ∧
      durationText (.scalar (.uint8 200)) = .error (.outOfBounds 1000 "uint8") := by
  refine ⟨?_, by rfl⟩
  rw [durationText_natCast, Nat.mul_div_cancel_left _ (by decide), if_neg (Nat.lt_irrefl _)]

end TypingTrace.Report
