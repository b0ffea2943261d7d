import TypingTrace.CommandLine.Basic
import TypingTrace.Proofs.Log.Reading

/-!
# The filters of a command line

**Theorem (`exists_filterOf`).** The arguments give a filter unless one of four things is wrong with
them (`Arguments.Misfiltered`): the start or the end is no date, the start is after the end, or a
kind is named that there is none of.
-/

namespace TypingTrace.CommandLine

open Time

/-! ## Dates -/

/-- An option that names no date. One that is empty counts as absent. -/
def IsNoDate (o : Option String) : Prop :=
  ∃ s, o = some s ∧ s ≠ "" ∧ ∀ t, Stamp.ofWire (.text s) ≠ .ok t

theorem exists_timeOption {o : Option String} : (∃ t, timeOption o = .ok t) ↔ ¬ IsNoDate o := by
  unfold timeOption
  split
  · simp [IsNoDate]
  · simp [IsNoDate]
  · next s hs =>
    cases hstamp : Stamp.ofWire (.text s) with
    | ok t =>
      refine iff_of_true ⟨some t, rfl⟩ ?_
      rintro ⟨s', hs', -, hno⟩
      exact hno t (Option.some.inj hs' ▸ hstamp)
    | error f => exact iff_of_false nofun (not_not.2 ⟨s, rfl, hs, by simp [hstamp]⟩)

theorem timeOption_eq_some {o : Option String} {t : Stamp} :
    timeOption o = .ok (some t) ↔ ∃ s, o = some s ∧ Stamp.ofWire (.text s) = .ok t := by
  have hempty : Stamp.ofWire (.text "") ≠ .ok t := nofun
  unfold timeOption
  split
  · simp
  · simp [hempty]
  · next s hs =>
    cases hstamp : Stamp.ofWire (.text s) <;> simp [Except.map, hstamp]

/-! ## Kinds -/

/-- A list is gone through if every item of it is. -/
theorem exists_mapM {α β : Type} {f : α → Except Fault β} {l : List α} :
    (∃ r, l.mapM f = .ok r) ↔ ∀ a ∈ l, ∃ b, f a = .ok b := by
  induction l with
  | nil => exact iff_of_true ⟨[], rfl⟩ nofun
  | cons a l ih =>
    rw [List.forall_mem_cons, ← ih, List.mapM_cons]
    cases f a with
    | error fault => simp [bind, Except.bind]
    | ok b => cases l.mapM f <;> simp [bind, Except.bind, pure, Except.pure]

/-- The kind that an item of a collection names. -/
def kindOf (item : Value) : Except Fault EventKind :=
  match item.kind? with
  | some k => .ok k
  | none => .error (.notAKind item)

theorem kindOf_text {name : String} {k : EventKind} :
    kindOf (.text name) = .ok k ↔ k.name = name := by
  rw [← EventKind.ofName?_eq_some_iff, kindOf, Value.kind?]
  cases EventKind.ofName? name <;> simp

theorem exists_checkKinds {kinds : Option (List String)} :
    (∃ k, Filter.checkKinds ((kinds.map fun l => Value.list (l.map .text)).getD .null) = .ok k) ↔
      ∀ names, kinds = some names → ∀ name ∈ names, ∃ k : EventKind, k.name = name := by
  cases kinds with
  | none => exact iff_of_true ⟨none, rfl⟩ nofun
  | some names =>
    have hlist : Filter.checkKinds (.list (names.map .text)) =
        (names.map .text).mapM kindOf >>= fun ks => .ok (some ks) := rfl
    have hnamed : (∃ ks, (names.map .text).mapM kindOf = .ok ks) ↔
        ∀ name ∈ names, ∃ k : EventKind, k.name = name := by
      rw [exists_mapM, List.forall_mem_map]
      exact forall₂_congr fun name _ => exists_congr fun k => kindOf_text
    simp only [Option.some.injEq, forall_eq', Option.map_some, Option.getD_some, hlist, ← hnamed]
    constructor
    · rintro ⟨k, h⟩
      obtain ⟨ks, hks, -⟩ := exists_of_bind_ok h
      exact ⟨ks, hks⟩
    · rintro ⟨ks, hks⟩
      exact ⟨some ks, by rw [hks]; rfl⟩

/-! ## Filters -/

/-- Arguments that ask for no filter: a date is none, the start is after the end, or a name is that
of no kind of event. -/
inductive Arguments.Misfiltered (a : Arguments) : Prop
  | start : IsNoDate a.start → Misfiltered a
  | stop : IsNoDate a.stop → Misfiltered a
  | order {first last : String} {x y : Stamp} : a.start = some first → a.stop = some last →
      Stamp.ofWire (.text first) = .ok x → Stamp.ofWire (.text last) = .ok y →
      y.instant < x.instant → Misfiltered a
  | kind {names : List String} {name : String} : a.kinds = some names → name ∈ names →
      (∀ k : EventKind, k.name ≠ name) → Misfiltered a

/-- **Which arguments give a filter.** -/
theorem exists_filterOf {a : Arguments} : (∃ f, filterOf a = .ok f) ↔ ¬ a.Misfiltered := by
  constructor
  · rintro ⟨f, h⟩ hbad
    obtain ⟨start, hstart, h⟩ := exists_of_bind_ok h
    obtain ⟨stop, hstop, h⟩ := exists_of_bind_ok h
    dsimp only at h
    unfold Filter.check at h
    split_ifs at h with hreversed
    · cases h
    obtain ⟨-, -, h⟩ := exists_of_bind_ok h
    obtain ⟨-, -, h⟩ := exists_of_bind_ok h
    obtain ⟨kinds, hkinds, -⟩ := exists_of_bind_ok h
    cases hbad with
    | start hno => exact exists_timeOption.1 ⟨start, hstart⟩ hno
    | stop hno => exact exists_timeOption.1 ⟨stop, hstop⟩ hno
    | order hfirst hlast hx hy hlt =>
      obtain rfl := Except.ok.inj (hstart.symm.trans (timeOption_eq_some.2 ⟨_, hfirst, hx⟩))
      obtain rfl := Except.ok.inj (hstop.symm.trans (timeOption_eq_some.2 ⟨_, hlast, hy⟩))
      exact hreversed (decide_eq_true hlt)
    | kind hnames hname hno =>
      obtain ⟨k, hk⟩ := exists_checkKinds.1 ⟨kinds, hkinds⟩ _ hnames _ hname
      exact hno k hk
  · intro hgood
    obtain ⟨start, hstart⟩ := exists_timeOption.2 fun hno => hgood (.start hno)
    obtain ⟨stop, hstop⟩ := exists_timeOption.2 fun hno => hgood (.stop hno)
    obtain ⟨kinds, hkinds⟩ := exists_checkKinds.2 fun names hnames name hname => by
      by_contra hno
      exact hgood (.kind hnames hname (not_exists.1 hno))
    have hreversed : ¬ Filter.reversed start stop := by
      intro hreversed
      unfold Filter.reversed at hreversed
      split at hreversed
      · obtain ⟨first, hfirst, hx⟩ := timeOption_eq_some.1 hstart
        obtain ⟨last, hlast, hy⟩ := timeOption_eq_some.1 hstop
        exact hgood (.order hfirst hlast hx hy (of_decide_eq_true hreversed))
      · cases hreversed
    have hcheck : Filter.check (textOption a.project) (textOption a.session) .null start stop
        ((a.kinds.map fun l => Value.list (l.map .text)).getD .null) .null .null =
          .ok ⟨textOption a.project, textOption a.session, .null, start, stop, kinds, .null,
            .null⟩ := by
      rw [Filter.check, if_neg hreversed, hkinds]
      rfl
    exact ⟨_, by rw [filterOf, hstart, hstop]; exact hcheck⟩

/-- The filter of a command line asks for no page. -/
theorem page_of_filterOf {a : Arguments} {f : Filter} (h : filterOf a = .ok f) :
    f.limit = .null ∧ f.offset = .null := by
  obtain ⟨start, -, h⟩ := exists_of_bind_ok h
  obtain ⟨stop, -, h⟩ := exists_of_bind_ok h
  exact Log.page_of_check h

end TypingTrace.CommandLine
