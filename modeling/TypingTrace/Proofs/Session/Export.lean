import TypingTrace.Proofs.Event.Batch
import TypingTrace.Proofs.Log.Export
import TypingTrace.Proofs.Session.Delivery
import TypingTrace.Proofs.Session.Integrity

/-!
# What a recorder exports is what it stores

**Theorem (`export_restored`).** Let a recorder answer calls that come from outside, and write all
that it then stores to an empty file. Of every session, reading the file gives just the events that
the session stores, in their order and without a warning, and an engine with the same settings
computes from them the values that the recorder answers.

A call comes from outside (`Call.IsWire`) if its batch is a value of JSON and the project of a new
session is a text. Then every event of every session is readable (`Recorder.Exportable`): its own
time was read from JSON, the time of its acceptance was shown by a clock, and the id of its session
is one of the recorder's. Reading sorts the events of all sessions together. Those of one session
come out as they were, even among others of the same time, since they are all events with its id
and were in order when they were written.
-/

namespace TypingTrace

open Time Log

/-! ## Calls from outside -/

namespace Call

/-- A call that comes from outside. Entries that are no values of JSON do not. -/
def IsWire : Call → Prop
  | start project .. => ∃ p, project = .text p
  | ingestWire batch _ => batch.isJson
  | ingestEntries .. => False
  | _ => True

theorem IsWire.inRange {call : Call} (h : call.IsWire) {batch : Batch}
    (hbatch : call.batch? = some batch) {e : Interaction} (he : e ∈ batch.events) :
    e.time.InRange := by
  cases call with
  | ingestWire sent project =>
    cases sent with
    | object fields =>
      cases hread : Batch.ofFields fields with
      | error f => simp [batch?, hread, Except.toOption] at hbatch
      | ok read =>
        obtain rfl : read = batch := by simpa [batch?, hread, Except.toOption] using hbatch
        exact Batch.inRange_of_ofFields h hread he
    | _ => simp [batch?] at hbatch
  | ingestEntries => exact h.elim
  | _ => cases hbatch

end Call

/-! ## Readable events -/

/-- A session of which all events are read back as they are written. -/
structure Session.Exportable (s : Session) : Prop where
  project : ∃ p, s.project = .text p
  events : ∀ e ∈ s.events, e.Readable

theorem Session.Exportable.append {s : Session} (h : s.Exportable) (hid : ∃ a, s.id = .text a)
    {now : Stamp} (hnow : now.InRange) (drawn : Nat) {batch : List Interaction}
    (hbatch : ∀ e ∈ batch, e.time.InRange) : (s.append now drawn batch).2.Exportable where
  project := h.project
  events e he := by
    rcases List.mem_append.1 ((merge_perm _ _).mem_iff.1 he) with hold | hnew
    · exact h.events e hold
    · obtain ⟨⟨e', i⟩, hmem, rfl⟩ := List.mem_map.1 hnew
      have hmem' : e' ∈ batch :=
        (stableSort_inOrder batch).perm.mem_iff.1 (List.fst_mem_of_mem_zipIdx hmem)
      refine ⟨hbatch e' hmem', ?_, hid, h.project⟩
      rintro t ⟨⟩
      exact hnow

namespace Recorder

variable {r r' : Recorder}

/-- A recorder of which all events are read back as they are written. -/
structure Exportable (r : Recorder) : Prop where
  numbered : r.Numbered
  sessions : ∀ s ∈ r.sessions, s.Exportable

theorem Exportable.replace (h : r.Exportable) {s t : Session} (hs : s ∈ r.sessions)
    (hid : t.id = s.id) (ht : t.Exportable) : (r.replace t).Exportable where
  numbered := h.numbered.replace hs hid
  sessions u hu := by
    rcases mem_sessions_replace hu with rfl | hold
    · exact ht
    · exact h.sessions u hold

theorem Exportable.draw (h : r.Exportable) (count : Nat) :
    Exportable { r with drawn := r.drawn + count } := ⟨h.numbered.draw count, h.sessions⟩

theorem Exportable.move {now : Clock} {call : Call} (h : r.Exportable) (hwire : call.IsWire)
    (hclock : InCalendar now.stamp.face) (hmove : r.Move now call r') : r'.Exportable := by
  cases hmove with
  | draw count => exact h.draw count
  | @start project owner address agent given metadata hcall =>
    obtain rfl := hcall
    refine ⟨h.numbered.withSession now.stamp project owner address agent metadata, ?_⟩
    intro s hs
    rcases mem_sessions_withSession hs with hold | rfl
    · exact h.sessions s hold
    · exact ⟨hwire, fun e he => absurd he List.not_mem_nil⟩
  | submit hs ht =>
    have hsession := h.sessions _ (mem_of_find? hs)
    obtain rfl := Session.submit_ok ht
    exact h.replace (mem_of_find? hs) rfl ⟨hsession.project, hsession.events⟩
  | @append batch s hbatch hs =>
    have hmem := mem_of_find? hs
    have hsession := (h.sessions s hmem).append (h.numbered.id_text hmem)
      (Stamp.inRange_ofInstant hclock) r.drawn fun e => hwire.inRange hbatch
    exact (h.draw _).replace hmem rfl hsession
  | analyse => exact ⟨h.numbered, h.sessions⟩
  | reset => exact ⟨h.numbered, h.sessions⟩

/-! ## Exports -/

/-- Without criteria all events are found. -/
theorem query_all (r : Recorder) : r.query {} = .ok (r.sessions.flatMap Session.events) := by
  have hall : ∀ owner row, Filter.admits {} owner row = true := fun _ _ => rfl
  show Except.ok (List.drop 0 (List.filter _ (r.sessions.flatMap Session.events))) = _
  rw [List.drop_zero, List.filter_eq_self.2 fun e _ => hall _ _]

/-- Of all events, those that bear the id of a session are the ones that it stores. -/
theorem Intact.filter_events (h : r.Intact) {s : Session} (hs : s ∈ r.sessions) :
    (r.sessions.flatMap Session.events).filter (fun e => e.session.equals s.id) = s.events := by
  obtain ⟨before, after, hsplit⟩ := List.append_of_mem hs
  have hown : s.events.filter (fun e => e.session.equals s.id) = s.events := by
    obtain ⟨a, ha⟩ := h.numbered.id_text hs
    refine List.filter_eq_self.2 fun e he => ?_
    rw [((h.orderly s hs).owned e he).1, ha, Value.equals_text, decide_eq_true rfl]
  -- No other session has this id, and events bear the id of the session that they are in.
  have hother : ∀ l ⊆ before ++ after,
      (l.flatMap Session.events).filter (fun e => e.session.equals s.id) = [] := by
    intro l hl
    refine List.filter_eq_nil_iff.2 fun e he hequal => ?_
    obtain ⟨u, hu, heu⟩ := List.mem_flatMap.1 he
    have hmem : u ∈ r.sessions := by
      rw [hsplit]
      exact List.perm_middle.mem_iff.2 (List.mem_cons_of_mem s (hl hu))
    rw [((h.orderly u hmem).owned e heu).1, Value.equals, Bool.and_eq_true] at hequal
    exact h.numbered.not_same hsplit u (hl hu) hequal.1
  rw [hsplit, List.flatMap_append, List.flatMap_cons, List.filter_append, List.filter_append,
    hown, hother before (List.subset_append_left _ _), hother after (List.subset_append_right _ _),
    List.nil_append, List.append_nil]

theorem map_toFields_stored (events : List StoredEvent) :
    (events.map Row.stored).map Row.toFields = events.map StoredEvent.toFields := by
  rw [List.map_map]
  rfl

/-- What a recorder stores is read back from an empty file, session by session. -/
theorem Intact.readFiltered_export (h : r.Intact) (hexport : r.Exportable)
    (hjson : ∀ s ∈ r.sessions, ∀ e ∈ s.events, ∃ text, Json.Restores text e.toWire)
    {path : String} {disk : Disk} (hpath : disk.obstacle? path = none)
    (hempty : (disk.stored? path).getD "" = "") :
    ∃ disk', appendEntries path ((r.sessions.flatMap Session.events).map StoredEvent.toFields)
        disk = (.ok (), disk') ∧
      ∀ s ∈ r.sessions, readFiltered path ((disk'.read? path).getD "") { session := s.id } =
        .ok (s.events.map .stored, []) := by
  have hevent : ∀ row ∈ (r.sessions.flatMap Session.events).map Row.stored,
      row.Readable ∧ ∃ text, Json.Restores text row.toWire := by
    intro row hrow
    obtain ⟨e, he, rfl⟩ := List.mem_map.1 hrow
    obtain ⟨s, hs, hes⟩ := List.mem_flatMap.1 he
    exact ⟨(hexport.sessions s hs).events e hes, hjson s hs e hes⟩
  have hreadable := fun row hrow => (hevent row hrow).1
  have hrestored := fun row hrow => (hevent row hrow).2
  have hstored := (readEvents_entryLines hreadable hrestored path).1
  rw [map_toFields_stored] at hstored
  obtain ⟨disk', happend, htext⟩ := exists_appendEntries hpath hempty hstored
  refine ⟨disk', happend, fun s hs => ?_⟩
  rw [htext, ← map_toFields_stored]
  refine readFiltered_session hreadable hrestored path ?_ ?_ ?_
  · obtain ⟨a, ha⟩ := h.numbered.id_text hs
    rw [ha]
    rfl
  · rw [List.filter_map]
    exact congrArg (List.map Row.stored) (h.filter_events hs)
  · exact List.pairwise_map.2 (h.orderly s hs).ordered

end Recorder

namespace Service

theorem exportable_after {start : Service} (hsessions : start.recorder.sessions = [])
    {calls : List (Clock × Call)} (hwire : ∀ call ∈ calls, call.2.IsWire)
    (hclock : ∀ call ∈ calls, InCalendar call.1.stamp.face) :
    (start.after calls).recorder.Exportable := by
  refine after_of_move (P := Recorder.Exportable) ?_ ⟨numbered_after hsessions [], ?_⟩
  · intro now call hmem r r' h hmove
    have hcall : call.IsWire := hwire (now, call) hmem
    have hnow : InCalendar now.stamp.face := hclock (now, call) hmem
    exact h.move hcall hnow hmove
  · simp [hsessions]

/-- **Export.** Let a new recorder of the typing metrics answer calls that come from outside, at
times of the calendar, and let JSON restore each event that it then stores. What it finds without
criteria are all events of all sessions, and they can be appended to a file that is empty or
missing. Of each session, that file gives the events that the session stores, in their order and
without a warning, and an engine of the typing metrics with the same settings computes from them, at
any time, the values that the analytics of the session have. -/
theorem export_restored {t : Thresholds} {start : Service} (hnew : start.recorder.IsNew t)
    {calls : List (Clock × Call)} (hwire : ∀ call ∈ calls, call.2.IsWire)
    (hclock : ∀ call ∈ calls, InCalendar call.1.stamp.face)
    (hjson : ∀ s ∈ (start.after calls).recorder.sessions, ∀ e ∈ s.events,
      ∃ text, Json.Restores text e.toWire)
    {path : String} {disk : Disk} (hpath : disk.obstacle? path = none)
    (hempty : (disk.stored? path).getD "" = "")
    {e : Engine} (he : start.recorder.engine.IsReady e) {registry : Option Registry}
    (hmetrics : registry.getD e.registry = typingRegistry t) :
    ∃ exported disk', (start.after calls).recorder.query {} = .ok exported ∧
      exported = (start.after calls).recorder.sessions.flatMap Session.events ∧
      appendEntries path (exported.map StoredEvent.toFields) disk = (.ok (), disk') ∧
      ∀ s ∈ (start.after calls).recorder.sessions, ∃ rows,
        readFiltered path ((disk'.read? path).getD "") { session := s.id } = .ok (rows, []) ∧
        rows = s.events.map .stored ∧
        ∀ (now now' : Clock) (token : Option Value) (log : Disk), ∃ result w,
          (start.after calls).respond ((Call.analytics s.id token).request now) =
            (.ok (.analytics result), w) ∧
          (e.run now' (rows.map .event) registry log).1.values = result.values := by
  have hintact := intact_after hnew.sessions hnew.memos calls
  obtain ⟨disk', happend, hread⟩ := hintact.readFiltered_export
    (exportable_after hnew.sessions hwire hclock) hjson hpath hempty
  refine ⟨_, disk', Recorder.query_all _, rfl, happend, fun s hs =>
    ⟨_, hread s hs, rfl, fun now now' token log => ?_⟩⟩
  obtain ⟨a, ha⟩ := hintact.numbered.id_text hs
  have hsession : (start.after calls).recorder.session s.id = .ok s :=
    Recorder.session_of_find? (by rw [ha]; rfl) (hintact.find?_id hs)
  obtain ⟨result, w, hanswer, hvalues⟩ := respond_analytics_of_isNew hnew calls hsession now token
  refine ⟨result, w, hanswer, ?_⟩
  have hprompt : (registry.getD e.registry).IsPrompt := hmetrics ▸ isPrompt_typingRegistry t
  rw [(Engine.values_run_of_idle hprompt he.idle now' _ log).1, hmetrics, he.settings.firstValues,
    hvalues, Recorder.entries, List.map_map]
  rfl

/-! ### Two sessions -/

/-- A batch that is accepted is stored in its session. -/
theorem recorder_step_ingestWire {v : Service} {r : Recorder} (hv : v.recorder = r) (now : Clock)
    {batch : Batch} (hrange : ∀ e ∈ batch.events, e.time.InRange) {s : Session}
    (hsize : r.checkSize batch.events.length = .ok ())
    (hs : r.checkedSession batch.session .null = .ok s) :
    (v.step (now, .ingestWire (.object batch.toFields) .null)).recorder =
      r.withBatch s now.stamp batch.events := by
  rw [step, Call.request, respond_return, respond_ingestWire, Batch.ofFields_toFields hrange]
  show (v.respond (Request.ingest now.stamp batch .null)).2.recorder = _
  rw [respond_ingest, hv, hsize, hs]

open Session (observed)

/-- A stored event that holds no more than texts is restored from its line. -/
theorem exists_restores_observed (kind : EventKind) (time : Int) (accepted : Stamp)
    {id session project : String} (hid : Text.isStorable id.toList)
    (hsession : Text.isStorable session.toList) (hproject : Text.isStorable project.toList) :
    ∃ text, Json.Restores text (StoredEvent.mk (observed kind time) id (.text session)
      (.text project) (some accepted)).toWire := by
  have hiso (t : Stamp) : Text.isStorable t.iso.toList :=
    Text.isStorable_of_ascii fun c hc => (ascii_iso t hc).1
  have hkind : Text.isStorable kind.name.toList := by cases kind <;> decide
  have hfields : (StoredEvent.mk (observed kind time) id (.text session) (.text project)
      (some accepted)).toFields = Json.textFields [
        ("eventType", kind.name), ("timestamp", (Stamp.ofInstant time).iso), ("id", id),
        ("sessionId", session), ("projectId", project), ("createdAt", accepted.iso)] := rfl
  rw [StoredEvent.toWire, hfields]
  refine Json.exists_restores ?_ ?_
  · show (["eventType", "timestamp", "id", "sessionId", "projectId", "createdAt"] :
      List String).Nodup
    decide
  · simp only [List.forall_mem_cons, hiso, hkind, hid, hsession, hproject, List.not_mem_nil,
      and_true, IsEmpty.forall_iff, implies_true]
    decide

/-- A batch of one event at one and the same time, for the session of a given number. -/
def keystroke (number : Nat) (kind : EventKind) : Batch :=
  ⟨.text (identity number), [observed kind 5]⟩

/-- The session of a given number as `opening` starts it. -/
def started (number : Nat) : Session :=
  .opened (Clock.mk 1).stamp number (.text "p") (.text "u") .null .null (.object [])

theorem exists_restores_keystroke {number : Nat} {now : Stamp} {drawn other : Nat}
    {kind : EventKind} {e : StoredEvent}
    (he : e ∈ ((started number).append now drawn (keystroke other kind).events).2.events) :
    ∃ text, Json.Restores text e.toWire := by
  have hevents : ((started number).append now drawn (keystroke other kind).events).2.events =
      [(started number).accept now (observed kind 5) (drawn + 1)] := by
    show Session.merge [] ((started number).acceptAll now drawn [observed kind 5]) = _
    rw [Session.merge, List.nil_merge, Session.acceptAll, Session.inOrder,
      List.mergeSort_singleton]
    rfl
  have hidentity (n : Nat) : Text.isStorable (identity n).toList :=
    Text.isStorable_of_ascii fun c hc => ascii_identity hc
  rw [hevents, List.mem_singleton] at he
  rw [he]
  exact exists_restores_observed kind 5 now (hidentity _) (hidentity number) (by decide)

/-- Two sessions, each with one event. -/
def bothSessions : List (Clock × Call) := [
  opening, opening, (⟨2⟩, .ingestWire (.object (keystroke 1 .keydown).toFields) .null),
  (⟨3⟩, .ingestWire (.object (keystroke 2 .paste).toFields) .null)]

theorem recorder_bothSessions : (typist.after bothSessions).recorder =
    (((typist.step opening).step opening).recorder.withBatch (started 1) (Clock.mk 2).stamp
      (keystroke 1 .keydown).events).withBatch (started 2) (Clock.mk 3).stamp
        (keystroke 2 .paste).events := by
  have hrange (number : Nat) (kind : EventKind) :
      ∀ e ∈ (keystroke number kind).events, e.time.InRange := by
    intro e he
    obtain rfl := List.mem_singleton.1 he
    exact Stamp.inRange_ofInstant (by decide +kernel)
  have hfirst := recorder_step_ingestWire (v := (typist.step opening).step opening) rfl ⟨2⟩
    (hrange 1 .keydown) (s := started 1) rfl rfl
  have hsecond := recorder_step_ingestWire hfirst ⟨3⟩ (hrange 2 .paste) (s := started 2) rfl rfl
  simpa only [after, bothSessions, List.foldl_cons, List.foldl_nil] using hsecond

theorem exists_restores_bothSessions :
    ∀ s ∈ (typist.after bothSessions).recorder.sessions, ∀ e ∈ s.events,
      ∃ text, Json.Restores text e.toWire := by
  intro s hs e he
  rw [recorder_bothSessions] at hs
  rcases Recorder.mem_sessions_replace hs with rfl | hs
  · exact exists_restores_keystroke he
  rcases Recorder.mem_sessions_replace hs with rfl | hs
  · exact exists_restores_keystroke he
  have hempty : ∀ s ∈ [started 1, started 2], s.events = [] := by
    simp [started, Session.opened]
  rw [hempty s hs] at he
  cases he

theorem export_restored_bothSessions :
    ∃ exported disk', (typist.after bothSessions).recorder.query {} = .ok exported ∧
      appendEntries "events.jsonl" (exported.map StoredEvent.toFields) {} = (.ok (), disk') ∧
      ∀ s ∈ (typist.after bothSessions).recorder.sessions, ∃ rows,
        readFiltered "events.jsonl" ((disk'.read? "events.jsonl").getD "") { session := s.id } =
          .ok (rows, []) ∧
        rows = s.events.map .stored ∧ ∃ result w,
          (typist.after bothSessions).respond ((Call.analytics s.id none).request ⟨4⟩) =
            (.ok (.analytics result), w) ∧
          (typist.recorder.engine.run ⟨5⟩ (rows.map .event) none {}).1.values =
            result.values := by
  have hnew : typist.recorder.IsNew Settings.defaults.thresholds := ⟨rfl, rfl, rfl, rfl⟩
  have hwire : ∀ call ∈ bothSessions, call.2.IsWire := by
    simp only [bothSessions, List.forall_mem_cons, List.not_mem_nil, IsEmpty.forall_iff,
      implies_true, and_true]
    exact ⟨⟨"p", rfl⟩, ⟨"p", rfl⟩, rfl, rfl⟩
  have hclock : ∀ call ∈ bothSessions, InCalendar call.1.stamp.face := by decide +kernel
  have hpath : ({} : Disk).obstacle? "events.jsonl" = none := rfl
  have hempty : (({} : Disk).stored? "events.jsonl").getD "" = "" := rfl
  have hmetrics : (none : Option Registry).getD typist.recorder.engine.registry =
      typingRegistry Settings.defaults.thresholds := rfl
  obtain ⟨exported, disk', hquery, -, happend, hread⟩ := export_restored hnew hwire hclock
    exists_restores_bothSessions hpath hempty hnew.isReady hmetrics
  refine ⟨exported, disk', hquery, happend, fun s hs => ?_⟩
  obtain ⟨rows, hrows, hevents, hvalues⟩ := hread s hs
  exact ⟨rows, hrows, hevents, hvalues ⟨4⟩ ⟨5⟩ none {}⟩

end Service

end TypingTrace
