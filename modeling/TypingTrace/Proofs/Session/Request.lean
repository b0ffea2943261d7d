import TypingTrace.Session.Request

/-!
# What requests do

One equation for each request says how it is answered and what it leaves behind, so that nothing
else has to look at the steps it is made of. In every equation the cases are those of its checks, in
their order; a check that fails leaves the service as it was, since all checks come before the first
change. Only a batch with unchecked objects may be refused after identities were given out for it
(`respond_ingestEntries_of_eq_none`).
-/

namespace TypingTrace

open Time

/-- A recorder with a batch appended to one of its sessions. -/
def Recorder.withBatch (r : Recorder) (s : Session) (now : Stamp) (batch : List Interaction) :
    Recorder :=
  { r with drawn := r.drawn + batch.length }.replace (s.append now r.drawn batch).2

/-- A recorder with a new session. -/
def Recorder.withSession (r : Recorder) (s : Session) : Recorder :=
  { r with sessions := r.sessions ++ [s], drawn := r.drawn + 1 }

namespace Service

variable {α β : Type}

/-! ## Steps -/

theorem respond_bind_ok {v w : Service} {x : Request α} {a : α} (h : v.respond x = (.ok a, w))
    (f : α → Request β) : v.respond (x >>= f) = w.respond (f a) := by
  show ExceptT.bindCont f (x v).1 (x v).2 = f a w
  rw [show x v = (.ok a, w) from h]
  rfl

theorem respond_bind_error {v w : Service} {x : Request α} {e : Fault}
    (h : v.respond x = (.error e, w)) (f : α → Request β) :
    v.respond (x >>= f) = (.error e, w) := by
  show ExceptT.bindCont f (x v).1 (x v).2 = _
  rw [show x v = (.error e, w) from h]
  rfl

theorem respond_bind_congr {v : Service} {x y : Request α} (h : v.respond x = v.respond y)
    (f : α → Request β) : v.respond (x >>= f) = v.respond (y >>= f) := by
  show ExceptT.bindCont f (x v).1 (x v).2 = ExceptT.bindCont f (y v).1 (y v).2
  rw [show x v = y v from h]

theorem respond_ask_ok {v : Service} {f : Recorder → Except Fault α} {a : α}
    (h : f v.recorder = .ok a) (g : α → Request β) :
    v.respond (Request.ask f >>= g) = v.respond (g a) :=
  respond_bind_ok (congrArg (·, v) h) g

theorem respond_ask_error {v : Service} {f : Recorder → Except Fault α} {e : Fault}
    (h : f v.recorder = .error e) (g : α → Request β) :
    v.respond (Request.ask f >>= g) = (.error e, v) :=
  respond_bind_error (congrArg (·, v) h) g

theorem respond_discard_ok {v : Service} {f : Recorder → Except Fault α} {a : α}
    (h : f v.recorder = .ok a) (g : Unit → Request β) :
    v.respond (discard (Request.ask f) >>= g) = v.respond (g ()) :=
  respond_bind_ok (respond_ask_ok h fun _ => pure ()) g

theorem respond_discard_error {v : Service} {f : Recorder → Except Fault α} {e : Fault}
    (h : f v.recorder = .error e) (g : Unit → Request β) :
    v.respond (discard (Request.ask f) >>= g) = (.error e, v) :=
  respond_bind_error (respond_ask_error h fun _ => pure ()) g

/-! ## Requests -/

theorem respond_append (v : Service) (s : Session) (now : Stamp) (batch : List Interaction) :
    v.respond (Request.append s now batch) =
      (.ok (s.acceptAll now v.recorder.drawn batch),
        { v with recorder := v.recorder.withBatch s now batch }) := rfl

theorem respond_submit (v : Service) (now : Stamp) (id project : Value) :
    v.respond (Request.submit now id project) =
      match v.recorder.checkedSession id project with
      | .error f => (.error f, v)
      | .ok s => match s.submit now with
        | .error f => (.error f, v)
        | .ok t => (.ok t, { v with recorder := v.recorder.replace t }) := by
  cases h : v.recorder.checkedSession id project with
  | error f => exact respond_ask_error h _
  | ok s =>
    rw [Request.submit, respond_ask_ok h]
    dsimp only
    cases s.submit now <;> rfl

theorem respond_ingest (v : Service) (now : Stamp) (batch : Batch) (project : Value) :
    v.respond (Request.ingest now batch project) =
      match v.recorder.checkSize batch.events.length with
      | .error f => (.error f, v)
      | .ok () => match v.recorder.checkedSession batch.session project with
        | .error f => (.error f, v)
        | .ok s => (.ok (s.acceptAll now v.recorder.drawn batch.events), { v with
            recorder := v.recorder.withBatch s now batch.events
            warnings := v.warnings ++ Recorder.lateWarning batch.events.length s }) := by
  cases h : v.recorder.checkSize batch.events.length with
  | error f => exact respond_ask_error h _
  | ok =>
    rw [Request.ingest, respond_ask_ok h]
    cases h : v.recorder.checkedSession batch.session project with
    | error f => exact respond_ask_error h _
    | ok s =>
      rw [respond_ask_ok h, respond_bind_ok (respond_append v s now batch.events),
        Session.length_acceptAll]
      rfl

theorem respond_start (v : Service) (now : Stamp) (project owner address agent metadata : Value) :
    v.respond (Request.start now project owner address agent metadata) =
      if !owner.truthy then (.error .userRequired, v)
      else match Recorder.metadataOf metadata with
        | .error f => (.error f, v)
        | .ok metadata =>
          let s := Session.opened now (v.recorder.drawn + 1) project owner address agent metadata
          (.ok s, { v with recorder := v.recorder.withSession s }) := by
  by_cases hown : !owner.truthy
  · rw [if_pos hown, Request.start, if_pos hown]
    rfl
  · rw [if_neg hown, Request.start, if_neg hown]
    cases Recorder.metadataOf metadata <;> rfl

theorem respond_analytics (v : Service) (now : Clock) (id : Value) (token : Option Value) :
    v.respond (Request.analytics now id token) =
      match v.recorder.session id with
      | .error f => (.error f, v)
      | .ok s =>
        let ((result, memo), engine, disk, warnings) :=
          v.recorder.analyse now id s token (v.recorder.engine, v.disk, v.warnings)
        (.ok result, ⟨{ v.recorder with engine }.withMemo id memo, disk, warnings⟩) := by
  cases h : v.recorder.session id with
  | error f => exact respond_ask_error h _
  | ok s => exact respond_ask_ok h _

theorem respond_reset (v : Service) (id : Value) :
    v.respond (Request.reset id) =
      match v.recorder.session id with
      | .error f => (.error f, v)
      | .ok _ => (.ok (v.recorder.memoOf id).reset.own,
          { v with recorder := v.recorder.withMemo id (v.recorder.memoOf id).reset }) := by
  cases h : v.recorder.session id with
  | error f => exact respond_discard_error h _
  | ok s => exact respond_discard_ok h _

theorem respond_ingestWire (v : Service) (now : Stamp) (fields : Fields) (project : Value) :
    v.respond (Request.ingestWire now (.object fields) project) =
      match Batch.ofFields fields with
      | .error f => (.error f, v)
      | .ok batch => v.respond (Request.ingest now batch project) := by
  cases h : Batch.ofFields fields with
  | error f => exact respond_ask_error (f := fun _ => Batch.ofFields fields) h _
  | ok batch => exact respond_ask_ok (f := fun _ => Batch.ofFields fields) h _

theorem respond_ingestEntries_loose {entries : List Entry}
    (h : Session.interactions? entries = none) (v : Service) (now : Stamp) (id project : Value) :
    v.respond (Request.ingestEntries now id entries project) =
      match v.recorder.checkSize entries.length with
      | .error f => (.error f, v)
      | .ok () => match v.recorder.checkedSession id project with
        | .error f => (.error f, v)
        | .ok _ => match Session.looseFault entries with
          | some (f, n) =>
            (.error f, { v with recorder := { v.recorder with drawn := v.recorder.drawn + n } })
          | none => (.ok [], v) := by
  rw [Request.ingestEntries, h]
  cases hsize : v.recorder.checkSize entries.length with
  | error f => exact respond_ask_error hsize _
  | ok =>
    rw [respond_ask_ok hsize]
    cases hs : v.recorder.checkedSession id project with
    | error f => exact respond_discard_error hs _
    | ok s =>
      rw [respond_discard_ok hs]
      cases Session.looseFault entries <;> rfl

/-- A batch with unchecked objects is never stored; at most it uses up some identities. -/
theorem respond_ingestEntries_of_eq_none {entries : List Entry}
    (h : Session.interactions? entries = none) (v : Service) (now : Stamp) (id project : Value) :
    ∃ count, (v.respond (Request.ingestEntries now id entries project)).2 =
      { v with recorder := { v.recorder with drawn := v.recorder.drawn + count } } := by
  rw [respond_ingestEntries_loose h]
  cases v.recorder.checkSize entries.length with
  | error f => exact ⟨0, rfl⟩
  | ok =>
    cases v.recorder.checkedSession id project with
    | error f => exact ⟨0, rfl⟩
    | ok s =>
      cases Session.looseFault entries with
      | none => exact ⟨0, rfl⟩
      | some fault => exact ⟨fault.2, rfl⟩

end Service

/-! ## The work of the engine -/

theorem Recorder.analyse_eq (r : Recorder) (now : Clock) (id : Value) (s : Session)
    (token : Option Value) (x : Engine × Log.Disk × List String) : r.analyse now id s token x =
      match (r.memoOf id).kept s.sequence token with
      | some result => ((result, r.memoOf id), x)
      | none =>
        let (result, e, d, more) := x.1.run now (entries s) r.registry x.2.1
        ((result, (r.memoOf id).keep s.sequence token result), e, d, x.2.2 ++ more) := by
  unfold analyse Memo.compute
  cases (r.memoOf id).kept s.sequence token <;> rfl

end TypingTrace
