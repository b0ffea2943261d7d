import TypingTrace.Proofs.Engine.Agreement
import TypingTrace.Proofs.Number.Doubles

/-!
# What counts as a value

`Value.Holds` says which finite number a value holds: an integer, a fraction or a finite double
itself, a scalar the number inside, and a truth value, a NaN or an infinity none.

**Theorem (`invoke_finite`).** Without a deadline a metric has a value exactly if its calculator
returns something that holds a finite number which a double can come near to, and then it has this
number as it is. Otherwise it fails, and what a calculator raises is recorded with its kind and its
text, or with the call where there is no text.

The check of a number goes by the nearest double. An integer or a fraction of `doubleLimit` or more
has none (`nearest_eq_none_iff`), so it fails although it is finite (`huge_fails`).
-/

namespace TypingTrace

open Time Log

/-! ## Finite numbers -/

/-- The finite number that a value holds. -/
inductive Value.Holds : Value → Number → Prop
  | int (n : Int) : Holds (.int n) (.int n)
  | fraction (q : Rat) : Holds (.fraction q) (.fraction q)
  | float {x : Float} : (exactOf x).isSome → Holds (.float x) (.float x)
  | scalar {s : Scalar} {n : Number} : Holds (Value.scalar s).unwrap n → Holds (.scalar s) n

theorem Value.unwrap_ne_scalar (v : Value) (s : Scalar) : v.unwrap ≠ .scalar s := by
  rcases v with _ | _ | _ | _ | _ | _ | _ | _ | (_ | _ | _ | _ | _) | _ | _ <;> nofun

/-- A scalar holds what is left of it when it is unwrapped. -/
theorem Value.holds_unwrap (v : Value) (n : Number) : v.unwrap.Holds n ↔ v.Holds n := by
  cases v with
  | scalar s =>
    refine ⟨.scalar, fun h => ?_⟩
    cases h with
    | scalar h => exact h
  | _ => rfl

namespace Number

/-- Whether a number can be taken for a double. An integer or a fraction may be too large; what is
in doubles already, infinities among them, can. -/
def FitsDouble (a : Number) : Prop := ∀ q, a.rational? = some q → |q| < doubleLimit

theorem fitsDouble_iff {a : Number} {q : Rat} (h : a.rational? = some q) :
    a.FitsDouble ↔ |q| < doubleLimit :=
  ⟨fun hfits => hfits q h, fun hlt _ hp => Option.some.inj (h.symm.trans hp) ▸ hlt⟩

/-- An integer or a fraction has a nearest double, or is refused as too large. -/
theorem toFloat_cases {a : Number} {q : Rat} (h : a.rational? = some q) :
    (a.FitsDouble ∧ ∃ x, a.toFloat = .ok x) ∨
      (¬ a.FitsDouble ∧ ∃ f, a.toFloat = .error f ∧ f.kind = "OverflowError") := by
  rw [fitsDouble_iff h, ← not_le, ← nearest_eq_none_iff]
  cases a with
  | int n =>
    obtain rfl := Option.some.inj h
    rw [toFloat]
    cases nearest (n : Rat) with
    | some x => exact .inl ⟨Option.some_ne_none x, x, rfl⟩
    | none => exact .inr ⟨fun hne => hne rfl, _, rfl, rfl⟩
  | fraction p =>
    obtain rfl := Option.some.inj h
    rw [toFloat]
    cases nearest p with
    | some x => exact .inl ⟨Option.some_ne_none x, x, rfl⟩
    | none => exact .inr ⟨fun hne => hne rfl, _, rfl, rfl⟩
  | float | scalar => cases h

theorem isFinite_float (x : Float) : (Number.float x).isFinite = (exactOf x).isSome := by
  have hplace : (Number.float x).place = placeOfFloat x := rfl
  rw [isFinite, hplace, placeOfFloat]
  cases exactOf x with
  | some q => rfl
  | none =>
    dsimp only
    split_ifs <;> rfl

end Number

/-- What the check makes of an integer or a fraction that is not too large. -/
theorem Number.map_toFloat_eq_ok_iff {a n : Number} {q : Rat} (h : a.rational? = some q) :
    (a.toFloat.map fun _ => a) = .ok n ↔ a = n ∧ n.FitsDouble := by
  rcases toFloat_cases h with ⟨hfits, x, hx⟩ | ⟨hhuge, f, hf, -⟩
  · rw [hx]
    constructor
    · intro hmap
      obtain rfl := Except.ok.inj hmap
      exact ⟨rfl, hfits⟩
    · rintro ⟨rfl, -⟩
      rfl
  · rw [hf]
    refine iff_of_false nofun ?_
    rintro ⟨rfl, hfits⟩
    exact hhuge hfits

/-- **The check of a returned value.** -/
theorem finiteNumber_eq_ok_iff {v : Value} {n : Number} :
    finiteNumber v = .ok n ↔ v.Holds n ∧ n.FitsDouble := by
  have hplain := v.unwrap_ne_scalar
  rw [← v.holds_unwrap, finiteNumber]
  generalize v.unwrap = w at hplain ⊢
  cases w with
  | int m =>
    rw [Number.map_toFloat_eq_ok_iff rfl]
    refine and_congr_left' ⟨fun h => h ▸ .int m, fun h => ?_⟩
    cases h
    rfl
  | fraction q =>
    rw [Number.map_toFloat_eq_ok_iff rfl]
    refine and_congr_left' ⟨fun h => h ▸ .fraction q, fun h => ?_⟩
    cases h
    rfl
  | float x =>
    dsimp only
    rw [Number.isFinite_float]
    split_ifs with h
    · constructor
      · intro heq
        obtain rfl := Except.ok.inj heq
        exact ⟨.float h, nofun⟩
      · rintro ⟨hholds, -⟩
        cases hholds
        rfl
    · refine iff_of_false nofun fun hholds => h ?_
      cases hholds.1 with
      | float hx => exact hx
  | scalar s => exact absurd rfl (hplain s)
  | null | bool | text | list | object | kind | moment => exact iff_of_false nofun nofun

/-- A finite number that no double comes near to is refused as too large. -/
theorem finiteNumber_huge {v : Value} {n : Number} (h : v.Holds n) (hhuge : ¬ n.FitsDouble) :
    ∃ f, finiteNumber v = .error f ∧ f.kind = "OverflowError" := by
  have hplain := v.unwrap_ne_scalar
  have hrefused : ∀ q, n.rational? = some q →
      ∃ f, (n.toFloat.map fun _ => n) = .error f ∧ f.kind = "OverflowError" := by
    intro q hq
    obtain ⟨-, f, hf, hkind⟩ := (Number.toFloat_cases hq).resolve_left fun h => hhuge h.1
    rw [hf]
    exact ⟨f, rfl, hkind⟩
  rw [← v.holds_unwrap] at h
  rw [finiteNumber]
  generalize v.unwrap = w at h hplain ⊢
  cases h with
  | int m => exact hrefused m rfl
  | fraction q => exact hrefused q rfl
  | float _ => exact absurd nofun hhuge
  | scalar _ => exact absurd rfl (hplain _)

/-- What holds no finite number is refused for what it is. -/
theorem finiteNumber_of_not_holds {v : Value} (h : ∀ n, ¬ v.Holds n) :
    finiteNumber v = .error (.nonNumeric v.unwrap) ∨
      finiteNumber v = .error (.nonFinite v.unwrap) := by
  have hplain := v.unwrap_ne_scalar
  simp only [← v.holds_unwrap] at h
  rw [finiteNumber]
  generalize v.unwrap = w at h hplain ⊢
  cases w with
  | int m => exact absurd (.int m) (h _)
  | fraction q => exact absurd (.fraction q) (h _)
  | float x =>
    have hinfinite : ¬ (Number.float x).isFinite := by
      rw [Number.isFinite_float]
      exact fun hx => h _ (.float hx)
    exact .inr (if_neg hinfinite)
  | scalar s => exact absurd rfl (hplain s)
  | null | bool | text | list | object | kind | moment => exact .inl rfl

/-! ## Outcomes -/

namespace Engine

theorem invoke_untimed {e : Engine} (h : e.timeout.truthy = false) (d : Definition)
    (events : List Entry) (pool : Option Pool) :
    e.invoke d events pool = (d.outcome events, pool) := by
  have hcall : e.call d.calculator events pool = (d.calculator.answer events, pool) :=
    if_neg (by simp [h])
  rw [invoke, hcall]
  rfl

/-- In a run each metric of a registry has the value of its outcome. -/
theorem mem_values_run {e : Engine} (h : e.timeout.truthy = false) {events : List Entry}
    (hne : events ≠ []) {r : Registry} {d : Definition} (hd : d ∈ r.definitions) (now : Clock)
    (disk : Disk) :
    (d.id, e.valueOf (d.outcome events)) ∈ (e.run now events (some r) disk).1.values := by
  rw [run_eq h, Option.getD_some]
  refine List.mem_map.2 ⟨d, hd, ?_⟩
  rw [if_neg (mt List.isEmpty_iff.1 hne)]
  rfl

/-- **Values and failures of a metric**, without a deadline. -/
theorem invoke_finite {e : Engine} (h : e.timeout.truthy = false) (d : Definition)
    {events : List Entry} (hne : events ≠ []) (now : Clock) (pool : Option Pool) :
    let outcome := (e.invoke d events pool).1
    let failure (f : Fault) : Failure :=
      ⟨d.id, f.kind, if f.text = "" then f.call else f.text, now.stamp⟩
    (∀ n, outcome = .ok n ↔
      ∃ v, d.calculator.answer events = .ok v ∧ v.Holds n ∧ n.FitsDouble) ∧
    (∀ n, outcome = .ok n → failureOf now d outcome = none) ∧
    (∀ f, outcome = .error f → failureOf now d outcome = some (failure f)) ∧
    (∀ f, d.calculator.answer events = .error f → outcome = .error f) ∧
    (∀ v, d.calculator.answer events = .ok v → (∀ n, ¬ v.Holds n) →
      outcome = .error (.nonNumeric v.unwrap) ∨ outcome = .error (.nonFinite v.unwrap)) ∧
    (∀ v n, d.calculator.answer events = .ok v → v.Holds n → ¬ n.FitsDouble →
      ∃ f, outcome = .error f ∧ f.kind = "OverflowError") ∧
    ∀ (r : Registry) (disk : Disk), r.Built → d ∈ r.definitions →
      let result := (e.run now events (some r) disk).1
      (∀ n, outcome = .ok n → (d.id, .ofNumber n) ∈ result.values ∧ d.id ∉ result.failedIds) ∧
      ∀ f, outcome = .error f →
        (d.id, e.defaultValue) ∈ result.values ∧ failure f ∈ result.failures := by
  intro outcome failure
  have houtcome : outcome = d.outcome events := congrArg Prod.fst (invoke_untimed h d events pool)
  refine ⟨?value, ?unrecorded, ?recorded, ?raised, ?unfit, ?huge, ?run⟩
  case value =>
    intro n
    rw [houtcome, Definition.outcome]
    cases hanswer : d.calculator.answer events with
    | ok v => simp [Except.bind, finiteNumber_eq_ok_iff]
    | error f => simp [Except.bind]
  case unrecorded =>
    intro n hn
    rw [hn]
    rfl
  case recorded =>
    intro f hf
    rw [hf]
    rfl
  case raised =>
    intro f hf
    rw [houtcome, Definition.outcome, hf]
    rfl
  case unfit =>
    intro v hv hholds
    rw [houtcome, Definition.outcome, hv]
    exact finiteNumber_of_not_holds hholds
  case huge =>
    intro v n hv hholds hhuge
    rw [houtcome, Definition.outcome, hv]
    exact finiteNumber_huge hholds hhuge
  case run =>
    intro r disk hr hd result
    have hvalue := mem_values_run h hne hd now disk
    have hresult : result = ⟨e.valuesOn events r, failuresOn now events r⟩ :=
      run_eq h now events (some r) disk
    rw [houtcome]
    constructor
    · intro n hn
      rw [hn] at hvalue
      refine ⟨hvalue, ?_⟩
      rw [hresult, Run.failedIds, mem_failedIds hr hne hd now, Definition.fails, hn]
      exact Bool.false_ne_true
    · intro f hf
      rw [hf] at hvalue
      refine ⟨hvalue, ?_⟩
      rw [hresult]
      show failure f ∈ failuresOn now events r
      rw [failuresOn, if_neg (mt List.isEmpty_iff.1 hne)]
      refine List.mem_filterMap.2 ⟨d, hd, ?_⟩
      rw [hf]
      rfl

/-- A metric of one third. -/
def third : Definition where
  id := .text "third"
  calculator := ⟨fun _ => .ok (.fraction (1 / 3)), false⟩

/-- A fraction stays as it is. -/
theorem invoke_finite_third :
    let events := [Entry.loose ⟨none, none, none, none, none⟩]
    (counting.invoke third events none).1 = .ok (.fraction (1 / 3)) ∧
    (third.id, .fraction (1 / 3)) ∈ (counting.run ⟨5⟩ events (some ⟨[third], false⟩) {}).1.values ∧
    third.id ∉ (counting.run ⟨5⟩ events (some ⟨[third], false⟩) {}).1.failedIds := by
  intro events
  have hlist : Registry.ofList [third] = .ok ⟨[third], false⟩ := rfl
  obtain ⟨hvalue, -, -, -, -, -, hrun⟩ := invoke_finite (e := counting) rfl third
    (List.cons_ne_nil (Entry.loose ⟨none, none, none, none, none⟩) []) ⟨5⟩ none
  have hfits : (Number.fraction (1 / 3)).FitsDouble := by
    rw [Number.fitsDouble_iff rfl]
    decide +kernel
  have hok := (hvalue _).2 ⟨_, rfl, .fraction (1 / 3), hfits⟩
  exact ⟨hok, (hrun _ {} (Registry.built_ofList hlist) (List.mem_singleton.2 rfl)).1 _ hok⟩

/-- A metric that always has one integer. -/
def constantly (n : Int) : Definition where
  id := .text "constant"
  calculator := ⟨fun _ => .ok (.int n), false⟩

/-- An integer that is too large for a double makes its metric fail. -/
theorem run_constantly {n : Int} (h : doubleLimit ≤ |(n : Rat)|) :
    let events := [Entry.loose ⟨none, none, none, none, none⟩]
    (constantly n).calculator.answer events = .ok (.int n) ∧
    (Value.int n).Holds (.int n) ∧
    (counting.invoke (constantly n) events none).1 = .error .integerTooLarge ∧
    (counting.run ⟨5⟩ events (some ⟨[constantly n], false⟩) {}).1 =
      ⟨[(.text "constant", .int 0)], [⟨.text "constant", "OverflowError",
        "int too large to convert to float", (⟨5⟩ : Clock).stamp⟩]⟩ := by
  intro events
  have houtcome : (constantly n).outcome events = .error .integerTooLarge := by
    show (Number.toFloat (.int n)).map _ = _
    rw [Number.toFloat, (nearest_eq_none_iff _).2 h]
    rfl
  have hvalue : counting.valuesOn events ⟨[constantly n], false⟩ =
      [(.text "constant", counting.valueOf ((constantly n).outcome events))] := rfl
  have hfailure : failuresOn ⟨5⟩ events ⟨[constantly n], false⟩ =
      [constantly n].filterMap fun d => failureOf ⟨5⟩ d (d.outcome events) := rfl
  refine ⟨rfl, .int n, ?_, ?_⟩
  · rw [invoke_untimed rfl, houtcome]
  · rw [run_eq rfl, Option.getD_some, hvalue, hfailure, List.filterMap_cons, houtcome]
    rfl

/-- **A finite number that fails**: the calculator returns an integer, which is finite, and the
metric has no value. -/
theorem huge_fails :
    let events := [Entry.loose ⟨none, none, none, none, none⟩]
    (constantly (Nat.pow 10 309)).calculator.answer events = .ok (.int (Nat.pow 10 309)) ∧
    (Value.int (Nat.pow 10 309)).Holds (.int (Nat.pow 10 309)) ∧
    (counting.invoke (constantly (Nat.pow 10 309)) events none).1 = .error .integerTooLarge ∧
    (counting.run ⟨5⟩ events (some ⟨[constantly (Nat.pow 10 309)], false⟩) {}).1 =
      ⟨[(.text "constant", .int 0)], [⟨.text "constant", "OverflowError",
        "int too large to convert to float", (⟨5⟩ : Clock).stamp⟩]⟩ :=
  run_constantly (by decide +kernel)

end Engine

end TypingTrace
