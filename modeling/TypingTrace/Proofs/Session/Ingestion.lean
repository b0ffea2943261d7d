import TypingTrace.Proofs.Event.Grammar
import TypingTrace.Proofs.Session.Chronology
import TypingTrace.Proofs.Session.Move

/-!
# How a batch is decided

**Theorem (`ingest_decided`).** Whatever calls a recorder has answered, a batch is refused for the
first of these that holds: one of its items is no event; it is empty or too large; its session is
not known; that session belongs to another project than the one named. A refused batch leaves
everything as it was. An accepted one is merged into the events of its session, changes nothing of
any other session, and is warned of only if its session was submitted before.

The kind of the refusal is that of its cause if what the fault shows can be written. An integer with
too many digits in an item hides the cause behind a fault of another kind (`endlessTime_hidden`).

`Recorder.refusal?` states the order of the checks in one place. The proof goes through the checks
in the order in which they are made, and none of them comes after the first change.
-/

namespace TypingTrace

open Time

namespace Recorder

/-- The kind of fault that stands for the cause of which a batch is refused, if it is. -/
def refusal? (r : Recorder) (limit : Number) (id : Value) (items : List Value) (project : Value) :
    Option String :=
  if !items.all Value.isEvent then some "MalformedEvent"
  else if items.isEmpty || limit.lt (.int items.length) then some "InvalidBatch"
  else match r.find? id with
    | none => some "SessionNotFound"
    | some s =>
      if project.isNull || s.project.equals project then none else some "SessionProjectMismatch"

/-- An empty batch is never accepted. -/
theorem ne_nil_of_refusal? {r : Recorder} {limit : Number} {id project : Value}
    {items : List Value} (h : r.refusal? limit id items project = none) : items ≠ [] := by
  rintro rfl
  cases h

/-- Whether everything that the refusal of a batch may show can be written. -/
def canTell (r : Recorder) (items : List Value) (project : Value) : Bool :=
  items.all Value.isWritable && (r.maxBatch.isWritable && project.isWritable)

/-- A fault of a given kind, or one that hides it as something cannot be written. -/
def Tells (writable : Bool) (kind : String) (f : Fault) : Prop :=
  f.kind = kind ∨ writable = false ∧ f.kind = "ValueError"

theorem Tells.mono {writable whole : Bool} {kind : String} {f : Fault} (h : Tells writable kind f)
    (hwhole : whole → writable) : Tells whole kind f := by
  refine h.imp_right fun ⟨hunwritable, hkind⟩ => ⟨?_, hkind⟩
  cases whole with
  | false => rfl
  | true => exact absurd (hwhole rfl) (by simp [hunwritable])

/-! ## The checks one by one -/

theorem compare_gt_limit {limit : Number} {v : Value} (h : v.number? = some limit) (n : Int) :
    (Value.int n).compare .gt v = .ok (limit.lt (.int n)) := Value.compare_numbers rfl h .gt

/-- A batch has an admissible size, or it is empty or too large. -/
theorem checkSize_cases {r : Recorder} {limit : Number} (h : r.maxBatch.number? = some limit)
    (items : List Value) :
    ((items.isEmpty || limit.lt (.int items.length)) = false ∧
      r.checkSize items.length = .ok ()) ∨
    ∃ f : Fault, (items.isEmpty || limit.lt (.int items.length)) = true ∧
      r.checkSize items.length = .error f ∧ Tells r.maxBatch.isWritable "InvalidBatch" f := by
  unfold checkSize
  rw [compare_gt_limit h]
  cases items with
  | nil => exact .inr ⟨.emptyBatch, rfl, rfl, .inl rfl⟩
  | cons item rest =>
    rw [if_neg (List.length_cons ▸ Nat.succ_ne_zero _)]
    cases limit.lt (.int (item :: rest).length) with
    | true =>
      exact .inr ⟨.oversizedBatch r.maxBatch, rfl, rfl,
        Fault.kind_cases fun h => by simp [Fault.isWritable, Fault.shown, h]⟩
    | false => exact .inl ⟨rfl, rfl⟩

theorem checkedSession_eq (r : Recorder) {id : Value} (hid : id.isHashable) (project : Value) :
    r.checkedSession id project = match r.find? id with
      | none => .error (.sessionNotFound id)
      | some s =>
        if project.isNull || s.project.equals project then .ok s
        else .error (.projectMismatch id project) := by
  rw [checkedSession, session, if_neg (by simp [hid])]
  cases r.find? id <;> rfl

end Recorder

theorem Batch.ofFields_eq {fields : Fields} {id : Value} {items : List Value}
    (hid : fields.get? "sessionId" = some id) (hitems : fields.get? "events" = some (.list items)) :
    Batch.ofFields fields = (items.mapM Interaction.ofWire).map fun events => ⟨id, events⟩ := by
  have hget : fields.get "events" = .list items := by rw [Fields.get, hitems, Option.getD_some]
  rw [Batch.ofFields, hget, Value.itemsIfAny_list, hid]
  show (items.mapM Interaction.ofWire >>= fun events => .ok (Batch.mk id events)) = _
  cases items.mapM Interaction.ofWire <;> rfl

/-- The items of a batch are read as they stand, or one of them is malformed. -/
theorem Batch.items_cases (items : List Value) :
    (∃ batch : List Interaction, items.all Value.isEvent = true ∧
      items.mapM Interaction.ofWire = .ok batch ∧ items.map Interaction.ofWire = batch.map .ok ∧
      batch.length = items.length) ∨
    ∃ f : Fault, items.all Value.isEvent = false ∧ items.mapM Interaction.ofWire = .error f ∧
      Recorder.Tells (items.all Value.isWritable) "MalformedEvent" f := by
  have hread : Checked (items.all Value.isWritable) (items.all Value.isEvent)
      (items.mapM Interaction.ofWire) :=
    checked_mapM fun item hitem =>
      (checked_ofWire item).mono fun hall => List.all_eq_true.1 hall item hitem
  generalize hread' : items.mapM Interaction.ofWire = read, items.all Value.isEvent = valid at hread
  cases hread with
  | ok batch =>
    have hmap := map_eq_of_mapM hread'
    have hlength := congrArg List.length hmap
    rw [List.length_map, List.length_map] at hlength
    exact .inl ⟨batch, rfl, rfl, hmap, hlength.symm⟩
  | @refused f hf => exact .inr ⟨f, rfl, rfl, hf⟩

namespace Service

variable {v : Service} {limit : Number} {fields : Fields} {id : String} {items : List Value}

/-- A batch is refused as `Recorder.refusal?` says, or it is accepted. -/
theorem ingestWire_cases (hlimit : v.recorder.maxBatch.number? = some limit)
    (hid : fields.get? "sessionId" = some (.text id))
    (hitems : fields.get? "events" = some (.list items)) (project : Value) (now : Stamp) :
    let refusal := v.recorder.refusal? limit (.text id) items project
    let answer := v.respond (Request.ingestWire now (.object fields) project)
    (∃ kind f, refusal = some kind ∧ Recorder.Tells (v.recorder.canTell items project) kind f ∧
      answer = (.error f, v)) ∨
    ∃ s batch, refusal = none ∧ v.recorder.find? (.text id) = some s ∧
      items.map Interaction.ofWire = batch.map .ok ∧
      answer = (.ok (s.acceptAll now v.recorder.drawn batch), { v with
        recorder := v.recorder.withBatch s now batch
        warnings := v.warnings ++ Recorder.lateWarning items.length s }) := by
  intro refusal answer
  have hanswer : answer = _ := v.respond_ingestWire now fields project
  rw [Batch.ofFields_eq hid hitems] at hanswer
  have hrefusal : refusal = v.recorder.refusal? limit (.text id) items project := rfl
  unfold Recorder.refusal? at hrefusal
  have hitem : v.recorder.canTell items project → items.all Value.isWritable :=
    fun h => (Bool.and_eq_true_iff.1 h).1
  have hrest : v.recorder.canTell items project →
      v.recorder.maxBatch.isWritable ∧ project.isWritable :=
    fun h => Bool.and_eq_true_iff.1 (Bool.and_eq_true_iff.1 h).2
  rcases Batch.items_cases items with ⟨batch, hvalid, hread, hmap, hlength⟩ | ⟨f, hvalid, hread, hf⟩
  · have hingest : answer = v.respond (Request.ingest now ⟨.text id, batch⟩ project) := by
      rw [hanswer, hread]
      rfl
    rw [respond_ingest, hlength] at hingest
    rcases Recorder.checkSize_cases hlimit items with ⟨hsize, hcheck⟩ | ⟨f, hsize, hcheck, hf⟩
    · rw [hcheck, Recorder.checkedSession_eq _ rfl] at hingest
      rw [hvalid, hsize] at hrefusal
      cases hfind : v.recorder.find? (.text id) with
      | none =>
        rw [hfind] at hingest hrefusal
        exact .inl ⟨_, .sessionNotFound (.text id), hrefusal, .inl rfl, hingest⟩
      | some s =>
        rw [hfind] at hingest hrefusal
        by_cases hproject : project.isNull || s.project.equals project
        · simp only [if_pos hproject] at hingest hrefusal
          exact .inr ⟨s, batch, hrefusal, rfl, hmap, hingest⟩
        · simp only [if_neg hproject] at hingest hrefusal
          refine .inl ⟨_, .projectMismatch (.text id) project, hrefusal, ?_, hingest⟩
          exact Fault.kind_cases fun h => by
            simp [Fault.isWritable, Fault.shown, Value.isWritable, (hrest h).2]
    · rw [hcheck] at hingest
      rw [hvalid, hsize] at hrefusal
      exact .inl ⟨_, f, hrefusal, hf.mono fun h => (hrest h).1, hingest⟩
  · rw [hread] at hanswer
    rw [hvalid] at hrefusal
    exact .inl ⟨_, f, hrefusal, hf.mono hitem, hanswer⟩

/-- **The decision.** A batch of any values, for a session of any name, is refused with the kind of
fault that `Recorder.refusal?` gives, or one that hides it as what the fault shows cannot be
written, and then the service is as it was. If `Recorder.refusal?` gives none, the batch is
accepted: its items, stably sorted, are merged into the events of its session, all else in the
recorder stays but the count of identities, and if that session was submitted there is a warning
with the number of its items. -/
theorem ingest_decided {start : Service} (hsessions : start.recorder.sessions = [])
    {limit : Number} (hlimit : start.recorder.maxBatch.number? = some limit)
    (calls : List (Clock × Call)) (now : Clock) {fields : Fields} {id : String}
    {items : List Value} (hid : fields.get? "sessionId" = some (.text id))
    (hitems : fields.get? "events" = some (.list items)) (project : Value) :
    let v := start.after calls
    let refusal := v.recorder.refusal? limit (.text id) items project
    let answer := v.respond ((Call.ingestWire (.object fields) project).request now)
    (∀ kind, refusal = some kind → ∃ f : Fault, answer = (.error f, v) ∧
        (f.kind = kind ∨ v.recorder.canTell items project = false ∧ f.kind = "ValueError")) ∧
      (refusal = none → ∃ s before after batch accepted,
        v.recorder.find? (.text id) = some s ∧ v.recorder.sessions = before ++ s :: after ∧
        items.map Interaction.ofWire = batch.map .ok ∧
        StableSort Interaction.instant batch (accepted.map StoredEvent.interaction) ∧
        (Session.merge s.events accepted).Perm (s.events ++ accepted) ∧
        answer = (.ok (.accepted accepted), { v with
          recorder := { v.recorder with
            sessions := before ++ { s with
              events := Session.merge s.events accepted, version := s.version + 1 } :: after
            drawn := v.recorder.drawn + items.length }
          warnings := v.warnings ++ if s.submitted.truthy then
            ["Warning: Accepted " ++ Text.natText items.length ++
              " late events for submitted session " ++ id] else [] })) := by
  intro v refusal answer
  have hnumbered : v.recorder.Numbered := numbered_after hsessions calls
  have hlimit : v.recorder.maxBatch.number? = some limit := by
    rw [maxBatch_after]
    exact hlimit
  rcases ingestWire_cases hlimit hid hitems project now.stamp with
    ⟨kind, f, hrefusal, htells, hrefused⟩ | ⟨s, batch, hrefusal, hfind, hmap, haccepted⟩
  · refine ⟨fun kind' hkind => ⟨f, respond_bind_error hrefused _, ?_⟩, fun hnone => ?_⟩
    · obtain rfl := Option.some.inj (hrefusal.symm.trans hkind)
      exact htells
    · exact absurd (hnone.symm.trans hrefusal) (by simp)
  · refine ⟨fun kind hkind => absurd (hkind.symm.trans hrefusal) (by simp), fun _ => ?_⟩
    have hlength := congrArg List.length hmap
    rw [List.length_map, List.length_map] at hlength
    have hbatch : batch ≠ [] := by
      rintro rfl
      exact Recorder.ne_nil_of_refusal? hrefusal (List.eq_nil_of_length_eq_zero hlength)
    obtain ⟨before, after, hsplit, hrecorder⟩ :=
      hnumbered.withBatch_eq (Recorder.mem_of_find? hfind) now.stamp batch
    refine ⟨s, before, after, batch, s.acceptAll now.stamp v.recorder.drawn batch, hfind, hsplit,
      hmap, ?_, Session.merge_perm _ _, ?_⟩
    · rw [Session.map_interaction_acceptAll]
      exact Session.stableSort_inOrder batch
    · rw [Recorder.lateWarning, hnumbered.id_of_find? hfind, Value.inserted_text, hrecorder,
        ← hlength, Session.append_of_ne_nil hbatch] at haccepted
      exact respond_bind_ok haccepted _

/-! ### One batch refused and one accepted -/

/-- A keystroke on the wire. -/
def keydown : Value := .object [("eventType", .text "keydown"), ("timestamp", .int 5)]

def batchOf (id : String) (items : List Value) : Fields :=
  [("sessionId", .text id), ("events", .list items)]

/-- A batch for no session with an item that is no event, and one for the first session. -/
theorem ingest_decided_firstId :
    tally.recorder.sessions = [] ∧ tally.recorder.maxBatch.number? = some (.int 1000) ∧
      (∃ f : Fault, f.kind = "MalformedEvent" ∧
        (tally.after [opening]).respond ((Call.ingestWire
          (.object (batchOf "s" [keydown, .null, keydown])) .null).request ⟨2⟩) =
            (.error f, tally.after [opening])) ∧
      ∃ accepted w, (tally.after [opening]).respond ((Call.ingestWire
        (.object (batchOf (identity 1) [keydown])) .null).request ⟨2⟩) =
          (.ok (.accepted accepted), w) := by
  have hsizes : tally.recorder.maxBatch.number? = some (.int 1000) := rfl
  refine ⟨rfl, hsizes, ?_, ?_⟩
  · obtain ⟨hrefused, -⟩ := ingest_decided rfl hsizes [opening] ⟨2⟩
      (rfl : (batchOf "s" _).get? "sessionId" = _)
      (rfl : (batchOf "s" [keydown, .null, keydown]).get? "events" = _) .null
    have hkind : (tally.after [opening]).recorder.refusal? (.int 1000) (.text "s")
        [keydown, .null, keydown] .null = some "MalformedEvent" := by
      simp [Recorder.refusal?, Value.isEvent]
    have htell : (tally.after [opening]).recorder.canTell [keydown, .null, keydown] .null := by
      decide +kernel
    obtain ⟨f, hanswer, hf⟩ := hrefused _ hkind
    exact ⟨f, hf.resolve_right fun h => by simp [htell] at h, hanswer⟩
  · obtain ⟨-, haccepted⟩ := ingest_decided rfl hsizes [opening] ⟨2⟩
      (rfl : (batchOf (identity 1) _).get? "sessionId" = _)
      (rfl : (batchOf (identity 1) [keydown]).get? "events" = _) .null
    obtain ⟨s, hs⟩ := exists_firstId []
    have hvalid : keydown.isEvent = true := by decide +kernel
    have hsize : (Number.int 1000).lt (.int 1) = false := by decide +kernel
    have hnone : (tally.after [opening]).recorder.refusal? (.int 1000) (.text (identity 1))
        [keydown] .null = none := by
      rw [firstId] at hs
      simp [Recorder.refusal?, hvalid, hsize, hs, Value.isNull]
    obtain ⟨s, before, after, batch, accepted, -, -, -, -, -, hanswer⟩ := haccepted hnone
    exact ⟨accepted, _, hanswer⟩

/-- A batch for an unknown session with a time beyond the calendar. -/
theorem refused_pressAt {n : Int} (h : endMillisecond ≤ n) :
    tally.recorder.refusal? (.int 1000) (.text "x") [Row.pressAt n] .null =
      some "MalformedEvent" ∧
    tally.respond ((Call.ingestWire (.object (batchOf "x" [Row.pressAt n])) .null).request ⟨2⟩) =
      (.error (.invalidTime (.int n)), tally) := by
  have hread := Interaction.ofWire_pressAt h
  have hevent : (Row.pressAt n).isEvent = false := (hread ▸ checked_ofWire _).of_error.1
  refine ⟨by simp [Recorder.refusal?, hevent], ?_⟩
  have hanswer := tally.respond_ingestWire (⟨2⟩ : Clock).stamp (batchOf "x" [Row.pressAt n]) .null
  have hitems : [Row.pressAt n].mapM Interaction.ofWire = .error (.invalidTime (.int n)) := by
    rw [List.mapM_cons, hread]
    rfl
  rw [Batch.ofFields_eq rfl rfl, hitems] at hanswer
  exact respond_bind_error hanswer _

/-- **A cause that is hidden.** The only item of the batch is no event, but its time has so many
digits that the fault is of another kind. -/
theorem endlessTime_hidden :
    tally.recorder.refusal? (.int 1000) (.text "x")
      [Row.pressAt (10 ^ Text.digitLimit : Nat)] .null = some "MalformedEvent" ∧
    ∃ f : Fault, f.kind = "ValueError" ∧ tally.respond ((Call.ingestWire
      (.object (batchOf "x" [Row.pressAt (10 ^ Text.digitLimit : Nat)])) .null).request ⟨2⟩) =
        (.error f, tally) := by
  obtain ⟨hrefusal, hanswer⟩ := refused_pressAt endMillisecond_le_pow_digitLimit
  exact ⟨hrefusal, _, kind_invalidTime_pow_digitLimit, hanswer⟩

end Service

end TypingTrace
