import Mathlib.Data.Finset.Prod
import Mathlib.Data.Finset.Union
import Mathlib.Order.Interval.Finset.Nat
import TypingTrace.Proofs.Metric.Rates
import TypingTrace.Proofs.Metric.Timing

/-!
# Bursts are maximal runs of short intervals

**Theorem (`detectBursts_runs`).** The number of bursts among checked events is the number of
maximal runs of short intervals that are long enough (`longRuns`), also where so few keys are
pressed that the intervals are not looked at. The speed is a rate over all short intervals.

The counter goes through the intervals once. At every place it knows the length of the run that is
open there, so what it returns counts the runs of the rest behind a run of that length
(`burstCount_eq_card`). A long interval divides the runs into those before it and those after it
(`IsMaximalRun.append_false_iff`).

The length of a word may be an exact fraction, and so small a one that short intervals make more
words than any double. Then there is no rate, and with it no count (`tinyWord_overflows`).
-/

namespace TypingTrace

/-! ## Maximal runs -/

/-- The places from `start` up to, but not including, `stop` are a maximal run of `true`. -/
structure IsMaximalRun (short : List Bool) (start stop : Nat) : Prop where
  nonempty : start < stop
  inside : ∀ i < stop, start ≤ i → short[i]? = some true
  before : start = 0 ∨ short[start - 1]? ≠ some true
  after : short[stop]? ≠ some true

namespace IsMaximalRun

variable {short xs ys : List Bool} {start stop : Nat}

instance : Decidable (IsMaximalRun short start stop) :=
  decidable_of_iff (start < stop ∧ (∀ i < stop, start ≤ i → short[i]? = some true) ∧
      (start = 0 ∨ short[start - 1]? ≠ some true) ∧ short[stop]? ≠ some true)
    ⟨fun ⟨h, h', h'', h'''⟩ => ⟨h, h', h'', h'''⟩, fun ⟨h, h', h'', h'''⟩ => ⟨h, h', h'', h'''⟩⟩

theorem stop_le (h : IsMaximalRun short start stop) : stop ≤ short.length := by
  have hlast := h.inside (stop - 1) (by have := h.nonempty; omega) (by have := h.nonempty; omega)
  have := (List.getElem?_eq_some_iff.1 hlast).1
  omega

/-- All of a list of nothing but `true` is its only run. -/
theorem replicate_iff {n : Nat} :
    IsMaximalRun (List.replicate n true) start stop ↔ 0 < n ∧ start = 0 ∧ stop = n := by
  have hget : ∀ i, (List.replicate n true)[i]? = some true ↔ i < n := by
    intro i
    simp [List.getElem?_replicate]
  constructor
  · intro ⟨hne, hinside, hbefore, hafter⟩
    simp only [ne_eq, hget] at hinside hbefore hafter
    have := hinside (stop - 1) (by omega) (by omega)
    omega
  · rintro ⟨hpos, rfl, rfl⟩
    exact ⟨hpos, fun i hi _ => (hget i).2 hi, .inl rfl, by simp⟩

/-- Up to a `false`, only what is before it is `true`. -/
theorem getElem?_before {i : Nat} (hi : i ≤ xs.length) :
    (xs ++ false :: ys)[i]? = some true ↔ xs[i]? = some true := by
  rcases hi.lt_or_eq with hlt | rfl
  · rw [List.getElem?_append_left hlt]
  · simp

theorem getElem?_behind (i : Nat) : (xs ++ false :: ys)[xs.length + 1 + i]? = ys[i]? := by
  have hplace : xs.length + 1 + i - xs.length = i + 1 := by omega
  rw [List.getElem?_append_right (by omega), hplace, List.getElem?_cons_succ]

theorem append_left (h : IsMaximalRun xs start stop) :
    IsMaximalRun (xs ++ false :: ys) start stop := by
  have hstop := h.stop_le
  have hne := h.nonempty
  exact {
    nonempty := hne
    inside := fun i hi hle => (getElem?_before (by omega)).2 (h.inside i hi hle)
    before := h.before.imp_right fun hb hlast => hb ((getElem?_before (by omega)).1 hlast)
    after := fun hnext => h.after ((getElem?_before hstop).1 hnext) }

theorem append_right (h : IsMaximalRun ys start stop) :
    IsMaximalRun (xs ++ false :: ys) (xs.length + 1 + start) (xs.length + 1 + stop) where
  nonempty := Nat.add_lt_add_left h.nonempty _
  inside := by
    intro i hi hle
    obtain ⟨j, rfl⟩ := Nat.exists_eq_add_of_le (show xs.length + 1 ≤ i by omega)
    rw [getElem?_behind]
    exact h.inside j (by omega) (by omega)
  before := by
    right
    rcases Nat.eq_zero_or_pos start with rfl | hpos
    · simp
    · have hplace : xs.length + 1 + start - 1 = xs.length + 1 + (start - 1) := by omega
      rw [hplace, getElem?_behind]
      exact h.before.resolve_left hpos.ne'
  after := by
    rw [getElem?_behind]
    exact h.after

/-- A `false` divides the runs into those before it and those after it. -/
theorem append_false_iff : IsMaximalRun (xs ++ false :: ys) start stop ↔
    IsMaximalRun xs start stop ∨ ∃ start' stop', IsMaximalRun ys start' stop' ∧
      start = xs.length + 1 + start' ∧ stop = xs.length + 1 + stop' := by
  constructor
  · intro ⟨hne, hinside, hbefore, hafter⟩
    by_cases hstart : start ≤ xs.length
    · left
      -- The `false` itself would be inside a run that began before it and reached behind it.
      have hstop : stop ≤ xs.length := by
        by_contra hlong
        have hmiddle := hinside xs.length (by omega) hstart
        simp at hmiddle
      exact {
        nonempty := hne
        inside := fun i hi hle => (getElem?_before (by omega)).1 (hinside i hi hle)
        before := hbefore.imp_right fun hb hlast => hb ((getElem?_before (by omega)).2 hlast)
        after := fun hnext => hafter ((getElem?_before hstop).2 hnext) }
    · right
      obtain ⟨start', rfl⟩ := Nat.exists_eq_add_of_le (show xs.length + 1 ≤ start by omega)
      obtain ⟨stop', rfl⟩ := Nat.exists_eq_add_of_le (show xs.length + 1 ≤ stop by omega)
      rw [getElem?_behind] at hafter
      refine ⟨start', stop', ⟨by omega, fun i hi hle => ?_, ?_, hafter⟩, rfl, rfl⟩
      · rw [← getElem?_behind]
        exact hinside (xs.length + 1 + i) (by omega) (by omega)
      · refine (Nat.eq_zero_or_pos start').imp_right fun hpos => ?_
        have hplace : xs.length + 1 + start' - 1 = xs.length + 1 + (start' - 1) := by omega
        rw [hplace, getElem?_behind] at hbefore
        exact hbefore.resolve_left (by omega)
  · rintro (h | ⟨start', stop', h, rfl, rfl⟩)
    · exact h.append_left
    · exact h.append_right

end IsMaximalRun

/-! ## Counting runs -/

section Counting

variable {least : Int} {short : List Bool}

/-- The maximal runs of a length that is enough. -/
def longRuns (least : Int) (short : List Bool) : Finset (Nat × Nat) :=
  (Finset.range (short.length + 1) ×ˢ Finset.range (short.length + 1)).filter fun run =>
    IsMaximalRun short run.1 run.2 ∧ run.1 + least ≤ run.2

theorem mem_longRuns {run : Nat × Nat} :
    run ∈ longRuns least short ↔ IsMaximalRun short run.1 run.2 ∧ run.1 + least ≤ run.2 := by
  simp only [longRuns, Finset.mem_filter, Finset.mem_product, Finset.mem_range,
    and_iff_right_iff_imp, and_imp]
  intro h _
  have := h.nonempty
  have := h.stop_le
  omega

/-- A run moved up. -/
def shiftRun (n : Nat) : Nat × Nat ↪ Nat × Nat where
  toFun run := (n + run.1, n + run.2)
  inj' a b h := by
    simp only [Prod.mk.injEq, Nat.add_left_cancel_iff] at h
    exact Prod.ext h.1 h.2

theorem longRuns_append_false (xs ys : List Bool) : longRuns least (xs ++ false :: ys) =
    longRuns least xs ∪ (longRuns least ys).map (shiftRun (xs.length + 1)) := by
  ext ⟨start, stop⟩
  simp only [Finset.mem_union, Finset.mem_map, mem_longRuns, IsMaximalRun.append_false_iff]
  constructor
  · rintro ⟨h | ⟨start', stop', h, rfl, rfl⟩, hlong⟩
    · exact .inl ⟨h, hlong⟩
    · exact .inr ⟨(start', stop'), ⟨h, by push_cast at hlong ⊢; omega⟩, rfl⟩
  · rintro (⟨h, hlong⟩ | ⟨⟨start', stop'⟩, ⟨h, hlong⟩, heq⟩)
    · exact ⟨.inl h, hlong⟩
    · cases heq
      exact ⟨.inr ⟨start', stop', h, rfl, rfl⟩, by push_cast at hlong ⊢; omega⟩

theorem card_longRuns_append_false (xs ys : List Bool) :
    (longRuns least (xs ++ false :: ys)).card =
      (longRuns least xs).card + (longRuns least ys).card := by
  rw [longRuns_append_false, Finset.card_union_of_disjoint, Finset.card_map]
  rw [Finset.disjoint_left]
  intro run hleft hright
  obtain ⟨run', -, rfl⟩ := Finset.mem_map.1 hright
  have hstop : xs.length + 1 + run'.2 ≤ xs.length := (mem_longRuns.1 hleft).1.stop_le
  omega

theorem card_longRuns_replicate (hleast : 1 ≤ least) (n : Nat) :
    (longRuns least (List.replicate n true)).card = closedRun least n := by
  unfold closedRun
  by_cases hlong : least ≤ n
  · rw [if_pos hlong, Finset.card_eq_one]
    refine ⟨(0, n), ?_⟩
    ext ⟨start, stop⟩
    rw [mem_longRuns, IsMaximalRun.replicate_iff, Finset.mem_singleton, Prod.mk.injEq]
    simp only
    omega
  · rw [if_neg hlong, Finset.card_eq_zero, Finset.eq_empty_iff_forall_notMem]
    intro run hrun
    rw [mem_longRuns, IsMaximalRun.replicate_iff] at hrun
    omega

/-- **The counter counts maximal runs.** The intervals seen so far have been a run that is still
open. -/
theorem burstCount_eq_card (hleast : 1 ≤ least) (current : Nat) (short : List Bool) :
    burstCount least current short =
      (longRuns least (List.replicate current true ++ short)).card := by
  induction short generalizing current with
  | nil => rw [burstCount, List.append_nil, card_longRuns_replicate hleast]
  | cons b rest ih =>
    cases b with
    | true => rw [burstCount, ih, List.replicate_succ', List.append_assoc, List.singleton_append]
    | false =>
      rw [burstCount, ih, card_longRuns_append_false, card_longRuns_replicate hleast,
        List.replicate_zero, List.nil_append]

/-- Too few intervals have no run that is long enough. -/
theorem longRuns_eq_empty (h : (short.length : Int) < least) : longRuns least short = ∅ := by
  rw [Finset.eq_empty_iff_forall_notMem]
  intro run hrun
  obtain ⟨hmaximal, hlong⟩ := mem_longRuns.1 hrun
  have := hmaximal.stop_le
  omega

end Counting

/-! ## Detection -/

section Detection

variable {t : Thresholds} {least : Int} {threshold perWord words : Number}

/-- What is marked by a test is what passes it. -/
theorem map_filter_zip_map {α : Type} (p : α → Bool) (l : List α) :
    ((l.zip (l.map p)).filter (·.2)).map (·.1) = l.filter p := by
  induction l with
  | nil => rfl
  | cons a l ih =>
    rw [List.map_cons, List.zip_cons_cons, List.filter_cons, List.filter_cons]
    by_cases ha : p a <;> simp [ha, ih]

/-- Whether an interval is below a threshold. -/
def isBelow (threshold : Number) (interval : Float) : Bool := (Number.float interval).lt threshold

theorem isShort_eq (hburst : t.burst.number? = some threshold) (interval : Float) :
    isShort t interval = .ok (isBelow threshold interval) :=
  Value.compare_numbers rfl hburst .lt

theorem detectBursts_few {events : List Observation} (hleast : t.burstLength.toInt = .ok least)
    (h : ((characterKeys events).length : Int) < least) : detectBursts t events = .ok ⟨0, 0⟩ := by
  rw [detectBursts, hleast]
  exact if_pos h

theorem detectBursts_many {events : List Observation} {xs : List Float}
    (hburst : t.burst.number? = some threshold) (hleast : t.burstLength.toInt = .ok least)
    (h : least ≤ (characterKeys events).length)
    (hintervals : intervals (characterKeys events) = .ok xs)
    (hwords : Value.countOver (xs.filter (isBelow threshold)).length t.charsPerWord = .ok words) :
    detectBursts t events =
      (perMinute words (.float ((xs.filter (isBelow threshold)).foldl (· + ·) 0.0))).map
        fun speed => ⟨burstCount least 0 (xs.map (isBelow threshold)), speed⟩ := by
  have hshort : xs.mapM (isShort t) = .ok (xs.map (isBelow threshold)) :=
    mapM_eq_ok fun x _ => isShort_eq hburst x
  rw [detectBursts, hleast]
  show (if ((characterKeys events).length : Int) < least then _ else _) = _
  rw [if_neg (not_lt.2 h), hintervals]
  show (xs.mapM (isShort t)).bind _ = _
  rw [hshort]
  show (Value.countOver ((((xs.zip _).filter _).map _).length) t.charsPerWord).bind _ = _
  simp only [map_filter_zip_map, hwords]
  show (perMinute words _).bind _ = _
  cases perMinute words (.float ((xs.filter (isBelow threshold)).foldl (· + ·) 0.0)) <;> rfl

/-- **Bursts of checked events.** The count is that of the long runs, and the speed is a rate,
unless a word is an exact fraction of a character and the quotient by it is beyond the range of
doubles. -/
theorem detectBursts_runs (hburst : t.burst.number? = some threshold)
    (hperWord : t.charsPerWord.number? = some perWord) (hne : perWord.isNonzero)
    (hleast : t.burstLength.toInt = .ok least) (hpos : 1 ≤ least) (rows : List Row) :
    let keys := rows.filter Row.typesCharacter
    let gaps := (differences (instants keys)).map milliseconds
    let brief := gaps.filter (isBelow threshold)
    let time := brief.foldl (· + ·) 0.0
    let runs := longRuns least (gaps.map (isBelow threshold))
    let bursts := detectBursts t (rows.map Row.observe)
    (keys.length < least → bursts = .ok ⟨runs.card, 0⟩) ∧
    (least ≤ keys.length → ∃ words, Number.countOver brief.length perWord = .ok words ∧
      ((∀ q, perWord = .fraction q → |brief.length / q| < doubleLimit) →
        ∃ speed, perMinute words (.float time) = .ok speed ∧ bursts = .ok ⟨runs.card, speed⟩) ∧
      ∀ q, perWord = .fraction q → doubleLimit ≤ |brief.length / q| →
        if (Number.int 0).lt (.float (time / 60000.0)) then
          ∃ f, bursts = .error f ∧ f.kind = "OverflowError"
        else bursts = .ok ⟨runs.card, .float 0.0⟩) := by
  intro keys gaps brief time runs bursts
  obtain ⟨words, hwords, hplain, hfraction⟩ := Number.exists_countOver brief.length hne
  have hlength : (characterKeys (rows.map Row.observe)).length = keys.length := by
    rw [characterKeys_observe, List.length_map]
  have hshort : (gaps.map (isBelow threshold)).length = keys.length - 1 := by
    simp only [gaps, instants, List.length_map, length_differences]
  have hmany (h : least ≤ keys.length) :
      bursts = (perMinute words (.float time)).map fun speed => ⟨runs.card, speed⟩ := by
    have hcount : burstCount least 0 (gaps.map (isBelow threshold)) = runs.card :=
      burstCount_eq_card hpos 0 _
    rw [← hcount]
    refine detectBursts_many hburst hleast (by rwa [hlength]) ?_ ?_
    · rw [characterKeys_observe, intervals_observe]
    · rw [Value.countOver, hperWord]
      exact hwords
  refine ⟨fun h => ?few, fun h => ⟨words, hwords, fun hsmall => ?many, fun q hq hlarge => ?huge⟩⟩
  case few =>
    have hruns : runs = ∅ := longRuns_eq_empty (by omega)
    rw [hruns]
    exact detectBursts_few hleast (by rwa [hlength])
  case many =>
    have hfits : words.FitsDouble := by
      by_cases hexact : ∃ q, perWord = .fraction q
      · obtain ⟨q, hq⟩ := hexact
        rw [hfraction q hq, Number.fitsDouble_iff rfl]
        exact hsmall q hq
      · exact hplain fun q hq => hexact ⟨q, hq⟩
    obtain ⟨speed, hspeed⟩ := exists_perMinute hfits time
    refine ⟨speed, hspeed, ?_⟩
    rw [hmany h, hspeed]
    rfl
  case huge =>
    have hhuge : ¬ words.FitsDouble := by
      rw [hfraction q hq, Number.fitsDouble_iff rfl]
      exact not_lt.2 hlarge
    rw [hmany h]
    by_cases htime : (Number.int 0).lt (.float (time / 60000.0))
    · rw [if_pos htime]
      obtain ⟨f, hf, hkind⟩ := perMinute_huge hhuge htime
      rw [hf]
      exact ⟨f, rfl, hkind⟩
    · rw [if_neg htime, perMinute_float, if_neg htime]
      rfl

/-- A key with a character, some milliseconds after the start of 1970. -/
def typedAt (ms : Int) : Row :=
  .plain { kind := .keydown, time := .ofInstant (ms * 1000), keyChar := .text "a" }

/-- Two runs, of which the second reaches the end. -/
theorem detectBursts_runs_twoRuns :
    let t : Thresholds := ⟨.int 2000, .int 300, .int 2, .int 5⟩
    let rows := [0, 100, 200, 1200, 1300, 1400].map typedAt
    ∃ speed, detectBursts t (rows.map Row.observe) = .ok ⟨2, speed⟩ := by
  intro t rows
  have hperWord : t.charsPerWord.number? = some (.int 5) := rfl
  obtain ⟨-, hmany⟩ :=
    detectBursts_runs (t := t) rfl hperWord (by decide +kernel) rfl (by decide) rows
  obtain ⟨words, -, hsmall, -⟩ := hmany (by decide +kernel)
  obtain ⟨speed, -, h⟩ := hsmall nofun
  have hruns : (longRuns 2 (((differences (instants (rows.filter Row.typesCharacter))).map
      milliseconds).map (isBelow (.int 300)))).card = 2 := by decide +kernel
  exact ⟨speed, hruns ▸ h⟩

/-- The length of a word that makes a count too large. -/
def tinyWord : Rat := mkRat 1 (Nat.pow 10 309)

/-- **A run that is not counted**: a word is an exact fraction of a character, and one short
interval is more words than any double. -/
theorem tinyWord_overflows :
    let t : Thresholds := ⟨.int 2000, .int 1000000000, .int 1, .fraction tinyWord⟩
    let rows := [0, 60000000].map typedAt
    let gaps := (differences (instants (rows.filter Row.typesCharacter))).map milliseconds
    (Number.fraction tinyWord).isNonzero ∧
      (longRuns 1 (gaps.map (isBelow (.int 1000000000)))).card = 1 ∧
      detectBursts t (rows.map Row.observe) = .error .quotientTooLarge := by
  intro t rows gaps
  refine ⟨by decide +kernel, by decide +kernel, ?_⟩
  have hkeys : characterKeys (rows.map Row.observe) = rows.map Row.observe := by
    rw [characterKeys_observe]
    rfl
  have hbrief : gaps.filter (isBelow (.int 1000000000)) = gaps :=
    List.filter_eq_self.2 (by decide +kernel)
  have htime : (Number.int 0).lt (.float (gaps.foldl (· + ·) 0.0 / 60000.0)) := by decide +kernel
  have hhuge : nearest ((1 : Nat) / tinyWord) = none :=
    (nearest_eq_none_iff _).2 (by decide +kernel)
  have hburst : t.burst.number? = some (.int 1000000000) := rfl
  have hintervals : intervals (characterKeys (rows.map Row.observe)) = .ok gaps := by
    rw [hkeys, intervals_observe]
    rfl
  have hwords : Value.countOver (gaps.filter (isBelow (.int 1000000000))).length t.charsPerWord =
      .ok (.fraction ((1 : Nat) / tinyWord)) := by
    rw [hbrief]
    exact Number.countOver_fraction 1 (show tinyWord ≠ 0 by decide +kernel)
  rw [detectBursts_many hburst rfl (by rw [hkeys]; decide) hintervals hwords, hbrief,
    perMinute_float, if_pos htime,
    Number.divide_float_of_rational rfl (Number.isZero_of_pos htime), Number.toFloat, hhuge]
  rfl

end Detection

end TypingTrace
