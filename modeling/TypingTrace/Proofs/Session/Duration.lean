import TypingTrace.Proofs.Session.Submission

/-!
# How long a session took

**Theorem (`duration_after`).** The statistics of a session that started without events count the
events of all its batches, and give its duration: from its start to its end, or nothing if the end
comes first. The end is the one that is set; as long as none is, it is the time of the latest event
of all batches, in whatever order they were delivered. So a further batch may only lengthen the
session while it is open, and once it has an end nothing changes its duration.

A session looks at its last event only. That this is the latest one is due to the order of what is
stored (`StableSort.max?_map`), which every change keeps (`Chronicle`).
-/

namespace TypingTrace

open Time

/-- The greatest key is that of the last item in the order of keys. -/
theorem StableSort.max?_map {α : Type*} {key : α → Int} {l sorted : List α}
    (h : StableSort key l sorted) : (l.map key).max? = (sorted.map key).getLast? := by
  rcases List.eq_nil_or_concat sorted with hnil | ⟨init, a, hlast⟩
  · have hl : l = [] := List.perm_nil.1 (hnil ▸ h.perm).symm
    simp [hnil, hl]
  · rw [hlast, List.map_concat, List.concat_eq_append, List.getLast?_concat, List.max?_eq_some_iff]
    have hordered := h.ordered
    rw [hlast, List.concat_eq_append, List.pairwise_append] at hordered
    constructor
    · apply List.mem_map_of_mem
      apply h.perm.mem_iff.1
      simp [hlast]
    · intro k hk
      obtain ⟨b, hb, rfl⟩ := List.mem_map.1 hk
      have hmem := h.perm.mem_iff.2 hb
      simp only [hlast, List.concat_eq_append, List.mem_append, List.mem_singleton] at hmem
      rcases hmem with hinit | rfl
      · exact hordered.2.2 b hinit a (List.mem_singleton_self a)
      · exact Int.le_refl _

/-- The instant of the latest interaction. -/
def latest? (batch : List Interaction) : Option Int := (batch.map Interaction.instant).max?

theorem latest?_append_le {d : List Interaction} {t : Int} (h : latest? d = some t)
    (batch : List Interaction) : ∃ t', latest? (d ++ batch) = some t' ∧ t ≤ t' := by
  have hmem : t ∈ (d ++ batch).map Interaction.instant := by
    rw [List.map_append]
    exact List.mem_append_left _ (List.max?_mem h)
  obtain ⟨t', ht'⟩ := Option.isSome_iff_exists.1 (List.isSome_max?_of_mem hmem)
  exact ⟨t', ht', (List.max?_eq_some_iff.1 ht').2 t hmem⟩

namespace Session

/-! ## The end -/

theorem instant_finish (s : Session) : s.finish.instant =
    ((s.stop.map Stamp.instant).or
      (s.events.getLast?.map StoredEvent.instant)).getD s.start.instant := by
  rw [finish]
  cases s.stop with
  | some stop => rfl
  | none => cases s.events.getLast? <;> rfl

/-- The duration by all that was delivered. -/
theorem duration_of_contents {s : Session} {d : List Interaction}
    (h : StableSort Interaction.instant d (s.events.map StoredEvent.interaction)) :
    s.duration = max 0 (((s.stop.map Stamp.instant).or (latest? d)).getD s.start.instant -
      s.start.instant) := by
  have hlast : s.events.getLast?.map StoredEvent.instant = latest? d := by
    rw [latest?, h.max?_map, List.map_map, List.getLast?_map]
    rfl
  rw [duration, instant_finish, hlast]

theorem duration_nonneg (s : Session) : 0 ≤ s.duration := Int.le_max_left 0 _

/-- What an open session is given may only lengthen it. -/
theorem duration_le_append {s : Session} {d : List Interaction}
    (h : StableSort Interaction.instant d (s.events.map StoredEvent.interaction))
    (hopen : s.stop = none) (now : Stamp) (drawn : Nat) (batch : List Interaction) :
    s.duration ≤ (s.append now drawn batch).2.duration := by
  have hstop : (s.append now drawn batch).2.stop = none := hopen
  have hstart : (s.append now drawn batch).2.start = s.start := rfl
  rw [duration_of_contents (contents_append h now drawn batch), hstop, hstart,
    duration_of_contents h, hopen, Option.map_none, Option.none_or, Option.none_or]
  cases hlatest : latest? d with
  | none => simp
  | some t =>
    obtain ⟨t', ht', hle⟩ := latest?_append_le hlatest batch
    simp only [ht', Option.getD_some]
    omega

/-! ## Any changes -/

theorem start_apply (st : Stage) (c : Change) :
    (c.apply st).2.session.start = st.session.start := by
  cases c with
  | append now batch => rfl
  | submit time =>
    cases hs : st.session.submit time with
    | error f => simp only [Change.apply, hs]
    | ok t => simp only [Change.apply, hs, submit_ok hs]
  | drawElsewhere count => rfl

/-- An end that is set stays. -/
theorem stop_apply {st : Stage} {stop : Stamp} (h : st.session.stop = some stop) (c : Change) :
    (c.apply st).2.session.stop = some stop := by
  cases c with
  | append now batch => exact h
  | submit time =>
    cases hs : st.session.submit time with
    | error f => simpa only [Change.apply, hs] using h
    | ok t => simp [Change.apply, hs, submit_ok hs, h]
  | drawElsewhere count => exact h

theorem start_after (st : Stage) (changes : List Change) :
    (st.after changes).session.start = st.session.start :=
  after_of_apply (P := fun t => t.session.start = st.session.start)
    (fun t c ht => (start_apply t c).trans ht) rfl changes

theorem stop_after {st : Stage} {stop : Stamp} (h : st.session.stop = some stop)
    (changes : List Change) : (st.after changes).session.stop = some stop :=
  after_of_apply (P := fun t => t.session.stop = some stop) (fun _ c ht => stop_apply ht c) h
    changes

/-- Nothing changes the duration of a session that has an end. -/
theorem duration_after_of_stop {st : Stage} (h : st.session.stop ≠ none) (changes : List Change) :
    (st.after changes).session.duration = st.session.duration := by
  obtain ⟨stop, hstop⟩ := Option.ne_none_iff_exists'.1 h
  simp only [duration, finish, start_after, stop_after hstop, hstop, Option.getD_some]

/-- An open session ends with its first submission, unless it had an end. -/
theorem stop_after_of_open {st : Stage} (h : st.session.submitted.truthy = false)
    (changes : List Change) : (st.after changes).session.stop =
      st.session.stop.or (firstSubmission changes) := by
  have hstanding := congrArg Standing.stop (standing_after h changes)
  refine hstanding.trans ?_
  cases firstSubmission changes with
  | none => exact (Option.or_none).symm
  | some time =>
    show some (st.session.stop.getD time) = _
    cases st.session.stop <;> rfl

theorem length_delivered (changes : List Change) :
    (delivered changes).length = (changes.map fun c => c.batch.length).sum :=
  List.length_flatMap

/-- **Count and duration.** After any changes to a session without events, its statistics have the
number of events in all batches and its duration. The duration reaches to the end that is set, to
the latest event of all batches if none is, and to the start if there are no events either; it is
never negative. An open session ends by its first submission. A batch does not shorten a session
without an end, and no changes touch the duration of one that has an end. -/
theorem duration_after {s : Session} (hs : s.events = []) (drawn : Nat) (changes : List Change) :
    let st := Stage.after ⟨s, drawn⟩ changes
    Fields.get? "eventCount" st.session.statistics =
        some (.int ((changes.map fun c => c.batch.length).sum : Nat)) ∧
      Fields.get? "duration" st.session.statistics =
        some (.float (milliseconds st.session.duration)) ∧
      st.session.duration =
        max 0 (((st.session.stop.map Stamp.instant).or (latest? (delivered changes))).getD
          s.start.instant - s.start.instant) ∧
      0 ≤ st.session.duration ∧
      (s.IsOpen → st.session.stop = s.stop.or (firstSubmission changes)) ∧
      (st.session.stop = none → ∀ now batch,
        st.session.duration ≤ (st.session.append now st.drawn batch).2.duration) ∧
      (st.session.stop ≠ none → ∀ later,
        (st.after later).session.duration = st.session.duration) := by
  intro st
  have h : Chronicle (delivered changes) (Stage.returned ⟨s, drawn⟩ changes) st := by
    simpa using (Chronicle.nil hs drawn).after changes
  have hstart : st.session.start = s.start := start_after ⟨s, drawn⟩ changes
  have hduration := duration_of_contents h.contents
  rw [hstart] at hduration
  refine ⟨?count, ?field, hduration, duration_nonneg _, fun hopen => ?_, fun hopen now batch => ?_,
    fun hstop later => duration_after_of_stop hstop later⟩
  case count =>
    have hlength : st.session.events.length = (changes.map fun c => c.batch.length).sum := by
      rw [← length_delivered, ← h.contents.perm.length_eq, List.length_map]
    rw [← hlength]
    simp [statistics, toFields, Fields.get?]
  case field => simp [statistics, toFields, Fields.get?]
  · exact @stop_after_of_open ⟨s, drawn⟩ hopen.submitted changes
  · exact duration_le_append h.contents hopen now st.drawn batch

/-- The session ends when it is submitted, although its last event is later. -/
theorem duration_after_lateDelivery :
    let st := Stage.after ⟨draft, 0⟩ lateDelivery
    draft.events = [] ∧ st.session.stop = some (.ofInstant 10) ∧ st.session.duration = 10 ∧
      Fields.get? "eventCount" st.session.statistics = some (.int 5) ∧
      (st.after resubmission).session.duration = 10 := by
  intro st
  have hempty : draft.events = [] := rfl
  obtain ⟨hcount, -, hduration, -, hstop, -, hfinal⟩ := duration_after hempty 0 lateDelivery
  have hend : st.session.stop = some (.ofInstant 10) := hstop ⟨rfl, rfl⟩
  have hten : st.session.duration = 10 := by
    rw [hduration, hend]
    rfl
  have hended : st.session.stop ≠ none := by simp [hend]
  refine ⟨hempty, hend, hten, hcount, ?_⟩
  rw [hfinal hended, hten]

end Session

end TypingTrace
