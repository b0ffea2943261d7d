import TypingTrace.Proofs.Session.Ingestion
import TypingTrace.Proofs.Session.Renaming

/-!
# Twins

Two recorders are twins in a session of each if what they hold of the two sessions is the same but
for the names of things: the session with its events, and the last analytics with their token.

**Theorem (`inStep_request`).** Twins answer a call to the one session and the same call to the
other alike, and they are twins afterwards, under a table of names that a batch makes longer.
-/

namespace TypingTrace

open Time Log

/-! ## Two runs with one session in common -/

/-- One recorder holds of a session what the other one holds of another, but for the names. -/
structure Recorder.Twin (names : List (String × String)) (a a' : String) (r r' : Recorder) :
    Prop where
  session : ∃ s s', r.find? (.text a) = some s ∧ r'.find? (.text a') = some s' ∧
    s.Renamed names s'
  memo : r'.memoOf (.text a') = r.memoOf (.text a)
  given : Issued r.drawn (names.map Prod.fst)
  given' : Issued r'.drawn (names.map Prod.snd)

/-- Answers that correspond, of recorders that are twins afterwards. -/
structure Service.InStep {α β : Type} (names : List (String × String)) (a a' : String)
    (R : α → β → Prop) (p : Except Fault α × Service) (p' : Except Fault β × Service) : Prop where
  answer : Alike names R p.1 p'.1
  twin : Recorder.Twin names a a' p.2.recorder p'.2.recorder

namespace Recorder

variable {names : List (String × String)} {a a' : String} {r r' : Recorder} {id id' : Value}
variable {s s' t t' : Session}

namespace Twin

theorem lookUp (h : Twin names a a' r r') (hid : id.same (.text a)) (hid' : id'.same (.text a')) :
    ∃ s s', r.find? id = some s ∧ r'.find? id' = some s' ∧ s.Renamed names s' ∧
      id.Renamed names id' := by
  obtain ⟨s, s', hs, hs', hrenamed⟩ := h.session
  obtain ⟨p, hp, hfst, hsnd⟩ := hrenamed.id
  refine ⟨s, s', (r.find?_congr hid).trans hs, (r'.find?_congr hid').trans hs', hrenamed,
    p, hp, ?_, ?_⟩
  · exact Value.same_trans hid (Value.same_trans (Value.same_symm (same_of_find? hs)) hfst)
  · exact Value.same_trans hid' (Value.same_trans (Value.same_symm (same_of_find? hs')) hsnd)

theorem memoOf (h : Twin names a a' r r') (hid : id.same (.text a)) (hid' : id'.same (.text a')) :
    r'.memoOf id' = r.memoOf id := by
  rw [r.memoOf_congr hid, r'.memoOf_congr hid', h.memo]

/-- Other identities may be given out in between. -/
theorem mono (h : Twin names a a' r r') {w w' : Recorder} (hw : Spares (.text a) r w)
    (hw' : Spares (.text a') r' w') (hdrawn : r.drawn ≤ w.drawn) (hdrawn' : r'.drawn ≤ w'.drawn) :
    Twin names a a' w w' where
  session := by
    rw [hw.session, hw'.session]
    exact h.session
  memo := by rw [hw.memo, hw'.memo, h.memo]
  given := h.given.mono hdrawn
  given' := h.given'.mono hdrawn'

theorem draw (h : Twin names a a' r r') (count : Nat) :
    Twin (names ++ namesAfter r.drawn r'.drawn count) a a' { r with drawn := r.drawn + count }
      { r' with drawn := r'.drawn + count } where
  session := by
    obtain ⟨s, s', hs, hs', hrenamed⟩ := h.session
    exact ⟨s, s', hs, hs', hrenamed.mono (List.subset_append_left _ _)⟩
  memo := h.memo
  given := by
    rw [List.map_append, map_fst_namesAfter]
    exact h.given.append count
  given' := by
    rw [List.map_append, map_snd_namesAfter]
    exact h.given'.append count

theorem replace (h : Twin names a a' r r') (hid : id.same (.text a)) (hid' : id'.same (.text a'))
    (hs : r.find? id = some s) (hs' : r'.find? id' = some s') (ht : t.id = s.id)
    (ht' : t'.id = s'.id) (hrenamed : t.Renamed names t') :
    Twin names a a' (r.replace t) (r'.replace t') where
  session := by
    refine ⟨t, t', ?_, ?_, hrenamed⟩
    · rw [find?_replace, ← r.find?_congr hid, hs, Option.map_some, ht, if_pos (Value.same_refl _)]
    · rw [find?_replace, ← r'.find?_congr hid', hs', Option.map_some, ht',
        if_pos (Value.same_refl _)]
  memo := h.memo
  given := h.given
  given' := h.given'

theorem withMemo (h : Twin names a a' r r') (hid : id.same (.text a))
    (hid' : id'.same (.text a')) (m : Memo Nat Run) :
    Twin names a a' (r.withMemo id m) (r'.withMemo id' m) where
  session := h.session
  memo := by rw [memoOf_withMemo, memoOf_withMemo, if_pos hid, if_pos hid']
  given := h.given
  given' := h.given'

theorem checkedSession (h : Twin names a a' r r') (hid : id.same (.text a))
    (hid' : id'.same (.text a')) (project : Value) :
    (∃ s s', r.checkedSession id project = .ok s ∧ r'.checkedSession id' project = .ok s' ∧
      r.find? id = some s ∧ r'.find? id' = some s' ∧ s.Renamed names s') ∨
    ∃ f f', r.checkedSession id project = .error f ∧ r'.checkedSession id' project = .error f' ∧
      f.Renamed names f' := by
  obtain ⟨s, s', hs, hs', hrenamed, hids⟩ := h.lookUp hid hid'
  have hproject : s'.project = s.project := hrenamed.eq_of_bare Session.project fun _ => rfl
  rw [checkedSession_eq r (Value.isHashable_of_same_text hid) project,
    checkedSession_eq r' (Value.isHashable_of_same_text hid') project, hs, hs']
  dsimp only
  rw [hproject]
  split_ifs
  · exact .inl ⟨s, s', rfl, rfl, rfl, rfl, hrenamed⟩
  · exact .inr ⟨_, _, rfl, rfl, .projectMismatch project hids⟩

/-- Sessions that are started in both, at the same time and with the same data. -/
theorem withSession (hr : r.Intact) (hr' : r'.Intact) (now : Stamp)
    (project owner address agent metadata : Value) :
    Twin (namesAfter r.drawn r'.drawn 1) (identity (r.drawn + 1)) (identity (r'.drawn + 1))
      (r.withSession (.opened now (r.drawn + 1) project owner address agent metadata))
      (r'.withSession (.opened now (r'.drawn + 1) project owner address agent metadata)) where
  session := by
    refine ⟨_, _, hr.numbered.find?_withSession_fresh rfl, hr'.numbered.find?_withSession_fresh rfl,
      ⟨_, List.mem_singleton_self _, Value.same_refl _, Value.same_refl _⟩, .nil, rfl⟩
  memo := by
    show r'.memoOf (.text (identity (r'.drawn + 1))) = r.memoOf (.text (identity (r.drawn + 1)))
    rw [hr.memoOf_fresh, hr'.memoOf_fresh]
  given := by
    rw [map_fst_namesAfter]
    exact (Issued.nil r.drawn).append 1
  given' := by
    rw [map_snd_namesAfter]
    exact (Issued.nil r'.drawn).append 1

end Twin

end Recorder

open Recorder

/-! ## Requests one by one -/

theorem Recorder.checkSize_congr {r r' : Recorder} (h : r'.maxBatch = r.maxBatch) (size : Nat) :
    r'.checkSize size = r.checkSize size := by
  rw [checkSize, checkSize, h]

namespace Service

variable {names : List (String × String)} {a a' : String} {v v' : Service} {id id' : Value}

theorem inStep_submit (h : Twin names a a' v.recorder v'.recorder) (hid : id.same (.text a))
    (hid' : id'.same (.text a')) (now : Stamp) (project : Value) :
    InStep names a a' (Session.Renamed names) (v.respond (Request.submit now id project))
      (v'.respond (Request.submit now id' project)) := by
  rw [respond_submit, respond_submit]
  rcases h.checkedSession hid hid' project with
    ⟨s, s', hs, hs', hfind, hfind', hrenamed⟩ | ⟨f, f', hf, hf', hfault⟩
  · rw [hs, hs']
    dsimp only
    have hsubmit := hrenamed.submit now
    generalize ht : s.submit now = x at hsubmit ⊢
    generalize ht' : s'.submit now = x' at hsubmit ⊢
    cases hsubmit with
    | error hfault => exact ⟨.error hfault, h⟩
    | ok hrenamed' =>
      exact ⟨.ok hrenamed', h.replace hid hid' hfind hfind' (Session.Grows.submit ht).id
        (Session.Grows.submit ht').id hrenamed'⟩
  · rw [hf, hf']
    exact ⟨.error hfault, h⟩

theorem inStep_ingest (h : Twin names a a' v.recorder v'.recorder)
    (hsize : v'.recorder.maxBatch = v.recorder.maxBatch) (hid : id.same (.text a))
    (hid' : id'.same (.text a')) (now : Stamp) (events : List Interaction) (project : Value) :
    ∃ longer, names ⊆ longer ∧
      InStep longer a a' (List.Forall₂ (StoredEvent.Renamed longer))
        (v.respond (Request.ingest now ⟨id, events⟩ project))
        (v'.respond (Request.ingest now ⟨id', events⟩ project)) := by
  rw [respond_ingest, respond_ingest]
  dsimp only
  rw [checkSize_congr hsize]
  cases v.recorder.checkSize events.length with
  | error f => exact ⟨names, List.Subset.refl _, .error (.same f), h⟩
  | ok =>
    rcases h.checkedSession hid hid' project with
      ⟨s, s', hs, hs', hfind, hfind', hrenamed⟩ | ⟨f, f', hf, hf', hfault⟩
    · rw [hs, hs']
      refine ⟨_, List.subset_append_left _ _,
        .ok (hrenamed.acceptAll now v.recorder.drawn v'.recorder.drawn events), ?_⟩
      exact (h.draw events.length).replace hid hid' hfind hfind' rfl rfl
        (hrenamed.append now v.recorder.drawn v'.recorder.drawn events)
    · rw [hf, hf']
      exact ⟨names, List.Subset.refl _, .error hfault, h⟩

theorem inStep_ingestWire (h : Twin names a a' v.recorder v'.recorder)
    (hsize : v'.recorder.maxBatch = v.recorder.maxBatch) {fields : Fields}
    (hid : ((fields.get? "sessionId").getD (.text "")).same (.text a)) (now : Stamp)
    (project : Value) : ∃ longer, names ⊆ longer ∧
      InStep longer a a' (List.Forall₂ (StoredEvent.Renamed longer))
        (v.respond (Request.ingestWire now (.object fields) project))
        (v'.respond (Request.ingestWire now
          (.object (Fields.set "sessionId" (.text a') fields)) project)) := by
  rw [respond_ingestWire, respond_ingestWire, Batch.ofFields_set, Batch.ofFields_eq_map]
  cases Batch.eventsOf fields with
  | error f => exact ⟨names, List.Subset.refl _, .error (.same f), h⟩
  | ok events => exact inStep_ingest h hsize hid (Value.same_refl _) now events project

theorem inStep_ingestEntries (h : Twin names a a' v.recorder v'.recorder)
    (hsize : v'.recorder.maxBatch = v.recorder.maxBatch) (hid : id.same (.text a))
    (hid' : id'.same (.text a')) (now : Stamp) (entries : List Entry) (project : Value) :
    ∃ longer, names ⊆ longer ∧
      InStep longer a a' (List.Forall₂ (StoredEvent.Renamed longer))
        (v.respond (Request.ingestEntries now id entries project))
        (v'.respond (Request.ingestEntries now id' entries project)) := by
  cases hevents : Session.interactions? entries with
  | some events =>
    rw [Request.ingestEntries, Request.ingestEntries, hevents]
    exact inStep_ingest h hsize hid hid' now events project
  | none =>
    refine ⟨names, List.Subset.refl _, ?_⟩
    rw [respond_ingestEntries_loose hevents, respond_ingestEntries_loose hevents,
      checkSize_congr hsize]
    cases v.recorder.checkSize entries.length with
    | error f => exact ⟨.error (.same f), h⟩
    | ok =>
      rcases h.checkedSession hid hid' project with
        ⟨s, s', hs, hs', -⟩ | ⟨f, f', hf, hf', hfault⟩
      · rw [hs, hs']
        cases Session.looseFault entries with
        | none => exact ⟨.ok .nil, h⟩
        | some fault =>
          exact ⟨.error (.same fault.1),
            h.mono ⟨rfl, rfl⟩ ⟨rfl, rfl⟩ (Nat.le_add_right _ _) (Nat.le_add_right _ _)⟩
      · rw [hf, hf']
        exact ⟨.error hfault, h⟩

theorem inStep_reset (h : Twin names a a' v.recorder v'.recorder) (hid : id.same (.text a))
    (hid' : id'.same (.text a')) :
    InStep names a a' (· = ·) (v.respond (Request.reset id)) (v'.respond (Request.reset id')) := by
  obtain ⟨s, s', hs, hs', -⟩ := h.lookUp hid hid'
  rw [respond_reset, respond_reset, session_of_find? (Value.isHashable_of_same_text hid) hs,
    session_of_find? (Value.isHashable_of_same_text hid') hs', h.memoOf hid hid']
  exact ⟨.ok rfl, h.withMemo hid hid' _⟩

theorem inStep_statistics (h : Twin names a a' v.recorder v'.recorder) (hid : id.same (.text a))
    (hid' : id'.same (.text a')) :
    InStep names a a' (Session.Renamed names) (v.respond (Request.ask fun r => r.session id))
      (v'.respond (Request.ask fun r => r.session id')) := by
  obtain ⟨s, s', hs, hs', hrenamed, -⟩ := h.lookUp hid hid'
  have hsession := session_of_find? (Value.isHashable_of_same_text hid) hs
  have hsession' := session_of_find? (Value.isHashable_of_same_text hid') hs'
  refine ⟨?_, h⟩
  show Alike names _ (v.recorder.session id) (v'.recorder.session id')
  rw [hsession, hsession']
  exact .ok hrenamed

theorem inStep_query (h : Twin names a a' v.recorder v'.recorder) (hv : v.recorder.Intact)
    (hv' : v'.recorder.Intact) {f : Filter} (hset : f.session ≠ .null)
    (hid : f.session.same (.text a)) :
    InStep names a a' (List.Forall₂ (StoredEvent.Renamed names))
      (v.respond (Request.ask fun r => r.query f))
      (v'.respond (Request.ask fun r => r.query { f with session := .text a' })) := by
  have hid' : (Value.text a').same (.text a') := Value.same_refl _
  obtain ⟨s, s', hs, hs', hrenamed, -⟩ := h.lookUp hid hid'
  refine ⟨?_, h⟩
  show Alike names _ (v.recorder.query f) (v'.recorder.query { f with session := .text a' })
  rw [hv.query_eq_scan (Value.isHashable_of_same_text hid),
    hv'.query_eq_scan (f := { f with session := .text a' }) rfl, hv.scan_of_find? hset hs,
    hv'.scan_of_find? (f := { f with session := .text a' }) (by simp) hs']
  exact Filter.forall₂_page rfl rfl (hv.forall₂_selected hv' hs hs' hid hid' hrenamed)

theorem inStep_analytics {t : Thresholds} {start : Recorder}
    (htimeout : start.engine.timeout.truthy = false)
    (hmetrics : start.registry.getD start.engine.registry = typingRegistry t)
    (hv : Steady start v.recorder) (hv' : Steady start v'.recorder)
    (h : Twin names a a' v.recorder v'.recorder) (hid : id.same (.text a))
    (hid' : id'.same (.text a')) (now : Clock) (token : Option Value) :
    InStep names a a' (· = ·) (v.respond (Request.analytics now id token))
      (v'.respond (Request.analytics now id' token)) := by
  obtain ⟨s, s', hs, hs', hrenamed, -⟩ := h.lookUp hid hid'
  rw [respond_analytics, respond_analytics,
    session_of_find? (Value.isHashable_of_same_text hid) hs,
    session_of_find? (Value.isHashable_of_same_text hid') hs']
  dsimp only
  rw [analyse_eq, analyse_eq, h.memoOf hid hid', hrenamed.sequence]
  cases (v.recorder.memoOf id).kept s.sequence token with
  | some kept => exact ⟨.ok rfl, h.withMemo hid hid' _⟩
  | none =>
    have hrun : ∀ r : Recorder, Steady start r → r.engine.timeout.truthy = false ∧
        r.registry.getD r.engine.registry = typingRegistry t := by
      intro r hr
      rw [hr.engine.timeout, hr.registry, hr.engine.registry]
      exact ⟨htimeout, hmetrics⟩
    have hresult := Engine.run_observed (hrun _ hv).1 (hrun _ hv').1 (hrun _ hv).2 (hrun _ hv').2
      (hv'.engine.defaultValue.trans hv.engine.defaultValue.symm) hrenamed.observe_entries now
      v.disk v'.disk
    have hengines : ∀ e e', Twin names a a' { v.recorder with engine := e }
        { v'.recorder with engine := e' } :=
      fun e e' => ⟨h.session, h.memo, h.given, h.given'⟩
    dsimp only
    rw [hresult]
    exact ⟨.ok rfl, (hengines _ _).withMemo hid hid' _⟩

/-! ## A call to both -/

theorem InStep.map {α β γ δ : Type} {R : α → β → Prop} {S : γ → δ → Prop} {x : Request α}
    {y : Request β} {f : α → γ} {g : β → δ}
    (h : InStep names a a' R (v.respond x) (v'.respond y))
    (hmap : ∀ x y, R x y → S (f x) (g y)) :
    InStep names a a' S (v.respond (x >>= fun a => pure (f a)))
      (v'.respond (y >>= fun a => pure (g a))) := by
  rw [respond_map, respond_map]
  exact ⟨h.answer.map hmap, h.twin⟩

/-- **Twins answer alike**: a call to the one and the same call to the other. -/
theorem inStep_request {t : Thresholds} {start : Recorder}
    (htimeout : start.engine.timeout.truthy = false)
    (hmetrics : start.registry.getD start.engine.registry = typingRegistry t)
    (hv : Steady start v.recorder) (hv' : Steady start v'.recorder)
    (h : Twin names a a' v.recorder v'.recorder) (now : Clock) {call : Call}
    (hcall : call.isFor (.text a)) :
    ∃ longer, names ⊆ longer ∧ InStep longer a a' (Response.Renamed longer)
      (v.respond (call.request now)) (v'.respond ((call.readdress (.text a')).request now)) := by
  have hid' : (Value.text a').same (.text a') := Value.same_refl _
  have hsize : v'.recorder.maxBatch = v.recorder.maxBatch := hv'.maxBatch.trans hv.maxBatch.symm
  cases call with
  | start => cases hcall
  | ingestWire sent project =>
    cases sent with
    | object fields =>
      obtain ⟨longer, hsub, hstep⟩ := inStep_ingestWire h hsize hcall now.stamp project
      exact ⟨longer, hsub, hstep.map fun _ _ => .accepted⟩
    | _ => cases hcall
  | ingestEntries id entries project =>
    obtain ⟨longer, hsub, hstep⟩ :=
      inStep_ingestEntries h hsize hcall hid' now.stamp entries project
    exact ⟨longer, hsub, hstep.map fun _ _ => .accepted⟩
  | submit id project =>
    exact ⟨names, List.Subset.refl _,
      (inStep_submit h hcall hid' now.stamp project).map fun _ _ => .session⟩
  | analytics id token =>
    refine ⟨names, List.Subset.refl _,
      (inStep_analytics htimeout hmetrics hv hv' h hcall hid' now token).map ?_⟩
    rintro result _ rfl
    exact .analytics result
  | reset id =>
    refine ⟨names, List.Subset.refl _, (inStep_reset h hcall hid').map ?_⟩
    rintro token _ rfl
    exact .token token
  | query f =>
    have hset : f.session ≠ .null := by
      intro hnull
      rw [Call.isFor, Call.address?, hnull] at hcall
      cases hcall
    have hisNull : ¬ f.session.isNull := mt Value.isNull_iff.1 hset
    rw [Call.isFor, Call.address?, if_neg hisNull] at hcall
    rw [Call.readdress, if_neg hisNull]
    exact ⟨names, List.Subset.refl _,
      (inStep_query h hv.intact hv'.intact hset hcall).map fun _ _ => .found⟩
  | statistics id =>
    refine ⟨names, List.Subset.refl _, (inStep_statistics h hcall hid').map ?_⟩
    intro s s' hs
    obtain ⟨fields, hfields, hfields'⟩ := hs.statistics
    rw [hfields, hfields']
    exact .statistics fields hs.id

end Service

end TypingTrace
