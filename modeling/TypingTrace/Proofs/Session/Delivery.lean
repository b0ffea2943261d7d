import TypingTrace.Proofs.Session.Analytics
import TypingTrace.Proofs.Session.Chronology

/-!
# Delivery does not matter

**Delivery.** What a call delivers to a session is the batch that it asks to be stored there, if the
batch is accepted. `Service.deliveries` joins what some calls deliver to one session, in their
order.

**Theorem (`contents_after`).** What a session stores is the stable sort of what was delivered to
it, by any calls, to this session and to others.

**Theorem (`delivery_independent`).** Two recorders that were delivered the same events of every
single time, in the same order, store the same events in the same order, and the values of their
analytics are the same. How the events were cut into batches, in which order events of different
times came, and what happened in between, leaves no trace.

For a list has one stable sort only, and it is determined by the events of each time. Ids and times
of acceptance do differ, but no metric sees them.
-/

namespace TypingTrace

open Time

/-! ## Deliveries -/

/-- The events that a call delivers to a session. -/
def Service.delivery (v : Service) (id : Value) (call : Clock × Call) : List Interaction :=
  match call.2.batch?, (v.respond (call.2.request call.1)).1 with
  | some batch, .ok _ => if batch.session.same id then batch.events else []
  | _, _ => []

/-- The events that calls deliver to a session, one after the other. -/
def Service.deliveries (v : Service) (id : Value) : List (Clock × Call) → List Interaction
  | [] => []
  | call :: calls => v.delivery id call ++ (v.step call).deliveries id calls

namespace Recorder

/-! ## Contents -/

/-- What a session stores of its events; nothing if there is no such session. -/
def contents (r : Recorder) (id : Value) : List Interaction :=
  ((r.find? id).map fun s => s.events.map StoredEvent.interaction).getD []

theorem contents_of_find? {r : Recorder} {id : Value} {s : Session} (h : r.find? id = some s) :
    r.contents id = s.events.map StoredEvent.interaction := by rw [contents, h]; rfl

theorem observe_entries (s : Session) : (entries s).map Entry.observe =
    (s.events.map StoredEvent.interaction).map Interaction.observe := by
  rw [entries, List.map_map, List.map_map]
  rfl

theorem contents_withSession (r : Recorder) {s : Session} (hs : s.events = []) (id : Value) :
    (r.withSession s).contents id = r.contents id := by
  rw [contents, contents, find?_withSession]
  cases r.find? id with
  | some u => rfl
  | none => split_ifs <;> simp [hs]

/-- Replacing a session by one that stores the same changes no contents. -/
theorem contents_replace {r : Recorder} {id : Value} {s t : Session} (hs : r.find? id = some s)
    (ht : t.id = s.id) (hevents : t.events = s.events) (id' : Value) :
    (r.replace t).contents id' = r.contents id' := by
  cases hu : r.find? id' with
  | none => rw [contents, contents, find?_replace, hu]; rfl
  | some u =>
    rw [contents_of_find? hu]
    rcases find?_replace_cases hs ht hu with ⟨rfl, hfind⟩ | hfind
    · rw [contents_of_find? hfind, hevents]
    · exact contents_of_find? hfind

/-- A batch becomes part of the contents of its session, and of no other one. -/
theorem contents_withBatch {r : Recorder} {id : Value} {s : Session} (hs : r.find? id = some s)
    (now : Stamp) (batch : List Interaction) (id' : Value) :
    (r.withBatch s now batch).contents id' =
      if id.same id' then (s.append now r.drawn batch).2.events.map StoredEvent.interaction
      else r.contents id' := by
  have hsid := same_of_find? hs
  rw [contents, withBatch, find?_replace, contents]
  show Option.getD (((r.find? id').map fun u =>
    if u.id.same s.id then (s.append now r.drawn batch).2 else u).map _) [] = _
  split_ifs with hsame
  · rw [← r.find?_congr hsame, hs, Option.map_some, if_pos (Value.same_refl s.id)]
    rfl
  · cases hu : r.find? id' with
    | none => rfl
    | some u =>
      have hne : ¬ u.id.same s.id := fun h => hsame <|
        Value.same_trans (Value.same_symm (Value.same_trans h hsid)) (same_of_find? hu)
      rw [Option.map_some, if_neg hne]

/-- Contents that are the stable sort of what was delivered stay so when a batch is delivered. -/
theorem stableSort_contents_withBatch {r : Recorder} {id id' : Value} {s : Session}
    (hs : r.find? id = some s) (now : Stamp) (batch : List Interaction) {d : List Interaction}
    (h : StableSort Interaction.instant d (r.contents id')) :
    StableSort Interaction.instant (d ++ if id.same id' then batch else [])
      ((r.withBatch s now batch).contents id') := by
  rw [contents_withBatch hs]
  split_ifs with hsame
  · rw [r.find?_congr hsame] at hs
    rw [contents_of_find? hs] at h
    exact Session.contents_append h now r.drawn batch
  · rwa [List.append_nil]

end Recorder

namespace Service

/-! ## One call -/

/-- A call without a batch changes no contents. -/
theorem contents_step_quiet (v : Service) (now : Clock) {call : Call} (h : call.batch? = none)
    (id : Value) : (v.step (now, call)).recorder.contents id = v.recorder.contents id := by
  have hmove := v.move_step now call
  generalize (v.step (now, call)).recorder = r at hmove
  cases hmove with
  | start metadata _ => exact v.recorder.contents_withSession rfl id
  | @submit _ s t hs ht =>
    have hid : t.id = s.id := by rw [Session.submit_ok ht]
    have hevents : t.events = s.events := by rw [Session.submit_ok ht]
    exact Recorder.contents_replace hs hid hevents id
  | append hbatch => exact absurd (h.symm.trans hbatch) (by simp)
  | _ => rfl

/-- What a call delivers to a session is merged into what the session stores. -/
theorem contents_step (v : Service) (call : Clock × Call) {id : Value} {d : List Interaction}
    (h : StableSort Interaction.instant d (v.recorder.contents id)) :
    StableSort Interaction.instant (d ++ v.delivery id call)
      ((v.step call).recorder.contents id) := by
  obtain ⟨now, call⟩ := call
  cases hbatch : call.batch? with
  | none =>
    rw [delivery, hbatch, List.append_nil, contents_step_quiet v now hbatch]
    exact h
  | some batch =>
    rw [step, delivery, hbatch]
    rcases v.step_batch_cases now hbatch with ⟨f, hrefused⟩ | ⟨s, answer, w, hs, -, hanswer, hw⟩
    · rw [hrefused, List.append_nil]
      exact h
    · rw [hanswer]
      show StableSort _ _ (w.recorder.contents id)
      rw [hw]
      exact Recorder.stableSort_contents_withBatch hs now.stamp batch.events h

/-! ## All calls -/

theorem contents_after_of_stableSort {v : Service} {id : Value} {d : List Interaction}
    (h : StableSort Interaction.instant d (v.recorder.contents id))
    (calls : List (Clock × Call)) :
    StableSort Interaction.instant (d ++ v.deliveries id calls)
      ((v.after calls).recorder.contents id) := by
  induction calls generalizing v d with
  | nil =>
    rw [deliveries, List.append_nil]
    exact h
  | cons call calls ih =>
    rw [deliveries, ← List.append_assoc, after_cons]
    exact ih (v.contents_step call h)

/-- **Contents.** After any calls to a recorder without sessions, a session stores the stable sort
of what was delivered to it. -/
theorem contents_after {start : Service} (hsessions : start.recorder.sessions = [])
    (calls : List (Clock × Call)) (id : Value) :
    StableSort Interaction.instant (start.deliveries id calls)
      ((start.after calls).recorder.contents id) := by
  have hempty : StableSort Interaction.instant [] (start.recorder.contents id) := by
    rw [Recorder.contents, Recorder.find?, hsessions]
    exact .nil
  have h := contents_after_of_stableSort hempty calls
  rwa [List.nil_append] at h

/-! ## Two recorders -/

/-- **Delivery independence.** Let two new recorders of the typing metrics with the same settings
answer any calls, with any batches, submissions and other sessions among them, and let each have a
session to which the same events of every time were delivered in the same order. Then these sessions
store the same interactions in the same order, and their analytics, asked for at any time and with
any token, have equal values. -/
theorem delivery_independent {t : Thresholds} {v w : Service} (hv : v.recorder.IsNew t)
    (hw : w.recorder.IsNew t) (hsettings : v.recorder.engine.SameSettings w.recorder.engine)
    {calls calls' : List (Clock × Call)} {id id' : Value} {s s' : Session}
    (hs : (v.after calls).recorder.session id = .ok s)
    (hs' : (w.after calls').recorder.session id' = .ok s')
    (hsame : ∀ time, ofKey Interaction.instant time (v.deliveries id calls) =
      ofKey Interaction.instant time (w.deliveries id' calls')) :
    s.events.map StoredEvent.interaction = s'.events.map StoredEvent.interaction ∧
      ∀ (now now' : Clock) (token token' : Option Value), ∃ result x result' x',
        (v.after calls).respond ((Call.analytics id token).request now) =
            (.ok (.analytics result), x) ∧
          (w.after calls').respond ((Call.analytics id' token').request now') =
            (.ok (.analytics result'), x') ∧
          result.values = result'.values := by
  have hcontents := contents_after hv.sessions calls id
  have hcontents' := contents_after hw.sessions calls' id'
  rw [Recorder.contents_of_find? (Recorder.session_ok hs)] at hcontents
  rw [Recorder.contents_of_find? (Recorder.session_ok hs')] at hcontents'
  have hevents : s.events.map StoredEvent.interaction = s'.events.map StoredEvent.interaction :=
    eq_of_ofKey_eq hcontents.ordered hcontents'.ordered fun time => by
      rw [hcontents.stable, hcontents'.stable, hsame]
  refine ⟨hevents, fun now now' token token' => ?_⟩
  obtain ⟨result, x, hanswer, hvalues⟩ := respond_analytics_of_isNew hv calls hs now token
  obtain ⟨result', x', hanswer', hvalues'⟩ := respond_analytics_of_isNew hw calls' hs' now' token'
  refine ⟨result, x, result', x', hanswer, hanswer', ?_⟩
  rw [hvalues, hvalues', hsettings.firstValues]
  refine Engine.firstValues_observed _ t ?_
  rw [Recorder.observe_entries, Recorder.observe_entries, hevents]

/-! ### One delivery and two -/

/-- A service of the typing metrics. -/
def typist : Service where
  recorder := {
    engine := {
      registry := typingRegistry Settings.defaults.thresholds
      defaultValue := .int 0
      timeout := .null
      workers := .int 4
      log := .absent }
    registry := none
    maxBatch := .int 1000 }

/-- A call that delivers events to the session of a given number. -/
def deliver (number : Nat) (events : List Interaction) : Call :=
  .ingestEntries (.text (identity number)) (events.map fun e => .event (.plain e)) .null

open Session (observed)

/-- Three events for the first session, in one batch. -/
def oneBatch : List (Clock × Call) :=
  [(⟨2⟩, deliver 1 [observed .keydown 5, observed .keyup 7, observed .paste 5])]

/-- The same events for the second session, the last of them first. -/
def twoBatches : List (Clock × Call) := [
  (⟨3⟩, deliver 2 [observed .keyup 7]), (⟨4⟩, .analytics (.text (identity 2)) none),
  (⟨5⟩, .submit (.text (identity 2)) .null), (⟨6⟩, deliver 1 [observed .cut 3]),
  (⟨7⟩, deliver 2 [observed .keydown 5, observed .paste 5])]

theorem delivery_independent_twoBatches :
    ∃ s s', (typist.after (opening :: oneBatch)).recorder.session (.text (identity 1)) = .ok s ∧
      (typist.after (opening :: opening :: twoBatches)).recorder.session (.text (identity 2)) =
        .ok s' ∧
      s.events.map StoredEvent.interaction = s'.events.map StoredEvent.interaction ∧
      ∃ result x result' x',
        (typist.after (opening :: oneBatch)).respond
            ((Call.analytics (.text (identity 1)) none).request ⟨8⟩) =
          (.ok (.analytics result), x) ∧
        (typist.after (opening :: opening :: twoBatches)).respond
            ((Call.analytics (.text (identity 2)) (some (.int 0))).request ⟨9⟩) =
          (.ok (.analytics result'), x') ∧
        result.values = result'.values := by
  have hnew : typist.recorder.IsNew Settings.defaults.thresholds := ⟨rfl, rfl, rfl, rfl⟩
  have hfirst : ((typist.step opening).recorder.find? (.text (identity 1))).isSome := rfl
  have hsecond :
      (((typist.step opening).step opening).recorder.find? (.text (identity 2))).isSome := rfl
  obtain ⟨s, hs⟩ := exists_find?_after hfirst oneBatch
  obtain ⟨s', hs'⟩ := exists_find?_after hsecond twoBatches
  rw [← after_cons] at hs
  rw [← after_cons, ← after_cons] at hs'
  have hsession := Recorder.session_of_find? rfl hs
  have hsession' := Recorder.session_of_find? rfl hs'
  have hone : typist.deliveries (.text (identity 1)) (opening :: oneBatch) =
      [observed .keydown 5, observed .keyup 7, observed .paste 5] := rfl
  have htwo : typist.deliveries (.text (identity 2)) (opening :: opening :: twoBatches) =
      [observed .keyup 7, observed .keydown 5, observed .paste 5] := rfl
  have hsame : ∀ time,
      ofKey Interaction.instant time
          (typist.deliveries (.text (identity 1)) (opening :: oneBatch)) =
        ofKey Interaction.instant time
          (typist.deliveries (.text (identity 2)) (opening :: opening :: twoBatches)) := by
    rw [hone, htwo]
    exact ofKey_swap (by decide) _
  obtain ⟨hevents, hvalues⟩ :=
    delivery_independent hnew hnew (.refl _) hsession hsession' hsame
  exact ⟨s, s', hsession, hsession', hevents, hvalues ⟨8⟩ ⟨9⟩ none (some (.int 0))⟩

end Service

end TypingTrace
