import Mathlib.Data.List.Nodup
import TypingTrace.Proofs.Engine.Values
import TypingTrace.Proofs.Session.Identity
import TypingTrace.Proofs.Session.Request

/-!
# What calls do to a recorder

A `Move` is all that one call can do to a recorder: identities are given out, or one session is
started, submitted or given the batch of the call, or one memo is replaced. Which of these it is
does not matter to most of what holds of a recorder at every time, so such facts are shown move by
move.

**Theorem (`move_step`).** Every call makes a move, refused ones included.

**Theorem (`numbered_after`).** The sessions of a recorder have distinct identities, so that
replacing a session changes no other one (`sessions_replace`).
-/

namespace TypingTrace

open Time

/-- The batch that a call asks to be stored, if it is well formed. -/
def Call.batch? : Call → Option Batch
  | ingestWire (.object fields) _ => (Batch.ofFields fields).toOption
  | ingestEntries id entries _ => (Session.interactions? entries).map fun events => ⟨id, events⟩
  | _ => none

namespace Recorder

/-! ## Moves -/

/-- What a call made at some time can do. -/
inductive Move (now : Clock) (call : Call) (r : Recorder) : Recorder → Prop
  | draw (count : Nat) : Move now call r { r with drawn := r.drawn + count }
  | start {project owner address agent given : Value} (metadata : Value) :
      call = .start project owner address agent given → Move now call r
        (r.withSession (.opened now.stamp (r.drawn + 1) project owner address agent metadata))
  | submit {id : Value} {s t : Session} : r.find? id = some s → s.submit now.stamp = .ok t →
      Move now call r (r.replace t)
  | append {batch : Batch} {s : Session} : call.batch? = some batch →
      r.find? batch.session = some s → batch.events ≠ [] →
      Move now call r (r.withBatch s now.stamp batch.events)
  | analyse {id : Value} {s : Session} {token : Option Value} {result : Run}
      {memo : Memo Nat Run} {engine : Engine} {before after : Log.Disk × List String} :
      r.find? id = some s → r.analyse now id s token (r.engine, before) =
        ((result, memo), engine, after) → Move now call r ({ r with engine }.withMemo id memo)
  | reset {id : Value} {s : Session} : r.find? id = some s →
      Move now call r (r.withMemo id (r.memoOf id).reset)

/-- Nothing at all is a move as well. -/
theorem Move.refl (now : Clock) (call : Call) (r : Recorder) : r.Move now call r := .draw 0

theorem session_ok {r : Recorder} {id : Value} {s : Session} (h : r.session id = .ok s) :
    r.find? id = some s := by
  unfold session at h
  split_ifs at h
  cases hfind : r.find? id with
  | none => simp [hfind] at h
  | some t =>
    rw [hfind] at h
    exact congrArg some (Except.ok.inj h)

theorem session_of_find? {r : Recorder} {id : Value} {s : Session} (hid : id.isHashable)
    (h : r.find? id = some s) : r.session id = .ok s := by
  rw [session, if_neg (by simp [hid]), h]

theorem session_ok_iff {r : Recorder} {id : Value} {s : Session} :
    r.session id = .ok s ↔ id.isHashable ∧ r.find? id = some s := by
  constructor
  · intro h
    refine ⟨?_, session_ok h⟩
    by_contra hid
    rw [session, if_pos (by simpa using hid)] at h
    cases h
  · exact fun h => session_of_find? h.1 h.2

theorem checkedSession_ok {r : Recorder} {id project : Value} {s : Session}
    (h : r.checkedSession id project = .ok s) : r.find? id = some s := by
  unfold checkedSession at h
  cases hs : r.session id with
  | error f => simp [hs, bind, Except.bind] at h
  | ok t =>
    simp only [hs, bind, Except.bind] at h
    split_ifs at h
    obtain rfl := Except.ok.inj h
    exact session_ok hs

theorem checkSize_ok {r : Recorder} {size : Nat} (h : r.checkSize size = .ok ()) : size ≠ 0 := by
  rintro rfl
  simp [checkSize, throw, throwThe, MonadExceptOf.throw, bind, Except.bind] at h

end Recorder

/-! ## Every call makes a move -/

namespace Service

variable {α β : Type}

/-- What is made of an answer does not matter to what the request does. -/
theorem respond_return (v : Service) (x : Request α) (f : α → β) :
    (v.respond (x >>= fun a => pure (f a))).2 = (v.respond x).2 := by
  rcases h : v.respond x with ⟨_ | a, w⟩
  · rw [respond_bind_error h]
  · rw [respond_bind_ok h]
    rfl

theorem respond_map (v : Service) (x : Request α) (f : α → β) :
    v.respond (x >>= fun a => pure (f a)) = ((v.respond x).1.map f, (v.respond x).2) := by
  rcases h : v.respond x with ⟨_ | a, w⟩
  · exact respond_bind_error h _
  · exact respond_bind_ok h _

theorem respond_call_start (v : Service) (now : Clock)
    (project owner address agent metadata : Value) :
    v.respond ((Call.start project owner address agent metadata).request now) =
      if !owner.truthy then (.error .userRequired, v)
      else match Recorder.metadataOf metadata with
        | .error f => (.error f, v)
        | .ok metadata =>
          let s := Session.opened now.stamp (v.recorder.drawn + 1) project owner address agent
            metadata
          (.ok (.session s), { v with recorder := v.recorder.withSession s }) := by
  rw [Call.request, respond_map, respond_start]
  split_ifs
  · rfl
  · cases Recorder.metadataOf metadata <;> rfl

/-- A batch is refused, or it is stored in the session that it names. -/
theorem respond_ingest_cases (v : Service) (now : Stamp) (batch : Batch) (project : Value) :
    (∃ f, v.respond (Request.ingest now batch project) = (.error f, v)) ∨
    ∃ s accepted w, v.recorder.find? batch.session = some s ∧ batch.events ≠ [] ∧
      v.respond (Request.ingest now batch project) = (.ok accepted, w) ∧
      w.recorder = v.recorder.withBatch s now batch.events := by
  rw [respond_ingest]
  cases hsize : v.recorder.checkSize batch.events.length with
  | error f => exact .inl ⟨f, rfl⟩
  | ok =>
    cases hs : v.recorder.checkedSession batch.session project with
    | error f => exact .inl ⟨f, rfl⟩
    | ok s =>
      refine .inr ⟨s, _, _, Recorder.checkedSession_ok hs, ?_, rfl, rfl⟩
      rw [← List.length_pos_iff]
      exact Nat.pos_of_ne_zero (Recorder.checkSize_ok hsize)

/-- A call with a batch asks for it to be stored. -/
theorem exists_respond_ingest (v : Service) (now : Clock) {call : Call} {batch : Batch}
    (h : call.batch? = some batch) : ∃ project, v.respond (call.request now) =
      v.respond (Request.ingest now.stamp batch project >>= fun l => pure (.accepted l)) := by
  cases call with
  | ingestWire sent project =>
    cases sent with
    | object fields =>
      refine ⟨project, respond_bind_congr ?_ _⟩
      rw [respond_ingestWire]
      cases hread : Batch.ofFields fields with
      | error f => simp [Call.batch?, hread, Except.toOption] at h
      | ok read =>
        obtain rfl : read = batch := by simpa [Call.batch?, hread, Except.toOption] using h
        rfl
    | _ => simp [Call.batch?] at h
  | ingestEntries id entries project =>
    obtain ⟨events, hread, rfl⟩ := Option.map_eq_some_iff.1 h
    exact ⟨project, by rw [Call.request, Request.ingestEntries, hread]⟩
  | _ => cases h

/-- A call with a batch is refused and changes nothing, or it is answered and the batch stored. -/
theorem step_batch_cases (v : Service) (now : Clock) {call : Call} {batch : Batch}
    (h : call.batch? = some batch) :
    (∃ f, v.respond (call.request now) = (.error f, v)) ∨
    ∃ s answer w, v.recorder.find? batch.session = some s ∧ batch.events ≠ [] ∧
      v.respond (call.request now) = (.ok answer, w) ∧
      w.recorder = v.recorder.withBatch s now.stamp batch.events := by
  obtain ⟨project, hrequest⟩ := v.exists_respond_ingest now h
  rcases v.respond_ingest_cases now.stamp batch project with
    ⟨f, hrefused⟩ | ⟨s, accepted, w, hs, hevents, haccepted, hw⟩
  · exact .inl ⟨f, hrequest.trans (respond_bind_error hrefused _)⟩
  · exact .inr ⟨s, _, w, hs, hevents, hrequest.trans (respond_bind_ok haccepted _), hw⟩

section

variable (v : Service) (now : Clock)

theorem move_step_batch {call : Call} {batch : Batch} (h : call.batch? = some batch) :
    v.recorder.Move now call (v.step (now, call)).recorder := by
  rw [step]
  rcases v.step_batch_cases now h with ⟨f, hrefused⟩ | ⟨s, answer, w, hs, hevents, hanswer, hw⟩
  · rw [hrefused]
    exact .refl now call _
  · rw [hanswer]
    show v.recorder.Move now call w.recorder
    rw [hw]
    exact .append h hs hevents

theorem move_ingestWire {sent project : Value}
    (h : (Call.ingestWire sent project).batch? = none) : v.recorder.Move now
      (.ingestWire sent project) (v.step (now, .ingestWire sent project)).recorder := by
  rw [step, Call.request, respond_return]
  cases sent with
  | object fields =>
    rw [respond_ingestWire]
    cases hread : Batch.ofFields fields with
    | error f => exact .refl now _ _
    | ok batch => simp [Call.batch?, hread, Except.toOption] at h
  | _ => exact .refl now _ _

theorem move_ingestEntries {id project : Value} {entries : List Entry}
    (h : (Call.ingestEntries id entries project).batch? = none) : v.recorder.Move now
      (.ingestEntries id entries project)
      (v.step (now, .ingestEntries id entries project)).recorder := by
  rw [step, Call.request, respond_return]
  obtain ⟨count, hcount⟩ :=
    respond_ingestEntries_of_eq_none (Option.map_eq_none_iff.1 h) v now.stamp id project
  rw [hcount]
  exact .draw count

theorem move_analytics (id : Value) (token : Option Value) : v.recorder.Move now
    (.analytics id token) (v.step (now, .analytics id token)).recorder := by
  rw [step, Call.request, respond_return, respond_analytics]
  split
  · exact .refl now _ _
  · rename_i s hs
    exact .analyse (Recorder.session_ok hs) rfl

theorem move_reset (id : Value) :
    v.recorder.Move now (.reset id) (v.step (now, .reset id)).recorder := by
  rw [step, Call.request, respond_return, respond_reset]
  split
  · exact .refl now _ _
  · rename_i s hs
    exact .reset (Recorder.session_ok hs)

theorem move_submit (id project : Value) :
    v.recorder.Move now (.submit id project) (v.step (now, .submit id project)).recorder := by
  rw [step, Call.request, respond_return, respond_submit]
  split
  · exact .refl now _ _
  · rename_i s hs
    split
    · exact .refl now _ _
    · rename_i t ht
      exact .submit (Recorder.checkedSession_ok hs) ht

theorem move_start (project owner address agent metadata : Value) : v.recorder.Move now
    (.start project owner address agent metadata)
    (v.step (now, .start project owner address agent metadata)).recorder := by
  rw [step, Call.request, respond_return, respond_start]
  split_ifs
  · exact .refl now _ _
  · split
    · exact .refl now _ _
    · exact .start _ rfl

theorem move_step (call : Call) : v.recorder.Move now call (v.step (now, call)).recorder := by
  cases hbatch : call.batch? with
  | some batch => exact v.move_step_batch now hbatch
  | none =>
    cases call with
    | start => exact v.move_start now _ _ _ _ _
    | ingestWire => exact v.move_ingestWire now hbatch
    | ingestEntries => exact v.move_ingestEntries now hbatch
    | submit => exact v.move_submit now _ _
    | analytics => exact v.move_analytics now _ _
    | reset => exact v.move_reset now _
    | query f =>
      rw [step, Call.request, respond_return]
      exact .refl now _ _
    | statistics id =>
      rw [step, Call.request, respond_return]
      exact .refl now _ _

end

theorem after_cons (v : Service) (call : Clock × Call) (calls : List (Clock × Call)) :
    v.after (call :: calls) = (v.step call).after calls := rfl

/-- What the moves of some calls keep holds after these calls. -/
theorem after_of_move {P : Recorder → Prop} {calls : List (Clock × Call)}
    (hmove : ∀ now call, (now, call) ∈ calls → ∀ r r', P r → r.Move now call r' → P r')
    {v : Service} (h : P v.recorder) : P (v.after calls).recorder := by
  induction calls generalizing v with
  | nil => exact h
  | cons c calls ih =>
    obtain ⟨now, call⟩ := c
    refine ih (fun now' call' hmem => hmove now' call' (List.mem_cons_of_mem _ hmem)) ?_
    exact hmove now call List.mem_cons_self _ _ h (v.move_step now call)

end Service

namespace Recorder

/-! ## Sessions by their ids -/

theorem mem_of_find? {r : Recorder} {id : Value} {s : Session} (h : r.find? id = some s) :
    s ∈ r.sessions := List.mem_of_find?_eq_some h

theorem same_of_find? {r : Recorder} {id : Value} {s : Session} (h : r.find? id = some s) :
    s.id.same id := by simpa using List.find?_some h

theorem find?_congr (r : Recorder) {id id' : Value} (h : id.same id') :
    r.find? id = r.find? id' := by
  unfold find?
  congr 1
  funext s
  exact Value.same_congr_right h s.id

theorem session_congr {r : Recorder} {id id' : Value} {s : Session} (h : id.same id') :
    r.session id = .ok s ↔ r.session id' = .ok s := by
  rw [session_ok_iff, session_ok_iff, Value.isHashable_congr h, find?_congr r h]

/-- Only the session whose id is that of the replacement is another one then. -/
theorem find?_replace (r : Recorder) (t : Session) (id : Value) :
    (r.replace t).find? id = (r.find? id).map fun u => if u.id.same t.id then t else u := by
  rw [find?, replace, List.find?_map, find?]
  congr 2
  funext u
  show (if u.id.same t.id then t else u).id.same id = u.id.same id
  split_ifs with h
  · exact (Value.same_congr_left h id).symm
  · rfl

theorem mem_sessions_replace {r : Recorder} {t u : Session} (h : u ∈ (r.replace t).sessions) :
    u = t ∨ u ∈ r.sessions := by
  obtain ⟨w, hw, rfl⟩ := List.mem_map.1 h
  split_ifs
  · exact .inl rfl
  · exact .inr hw

theorem mem_sessions_withSession {r : Recorder} {s u : Session}
    (h : u ∈ (r.withSession s).sessions) : u ∈ r.sessions ∨ u = s := by
  rcases List.mem_append.1 h with hold | hnew
  · exact .inl hold
  · exact .inr (List.mem_singleton.1 hnew)

/-- A replaced session is found wherever it was found before, and no other one is affected. -/
theorem find?_replace_cases {r : Recorder} {id id' : Value} {s t u : Session}
    (hs : r.find? id = some s) (ht : t.id = s.id) (hu : r.find? id' = some u) :
    (u = s ∧ (r.replace t).find? id' = some t) ∨ (r.replace t).find? id' = some u := by
  rw [find?_replace, hu, Option.map_some]
  by_cases hsame : u.id.same t.id
  · rw [if_pos hsame]
    refine .inl ⟨?_, rfl⟩
    have hids : id'.same id := by
      rw [ht] at hsame
      exact Value.same_trans (Value.same_symm (same_of_find? hu))
        (Value.same_trans hsame (same_of_find? hs))
    rw [r.find?_congr hids, hs] at hu
    exact (Option.some.inj hu).symm
  · rw [if_neg hsame]
    exact .inr rfl

theorem find?_withSession (r : Recorder) (s : Session) (id : Value) :
    (r.withSession s).find? id = (r.find? id).or (if s.id.same id then some s else none) := by
  rw [find?, withSession, List.find?_append, find?, List.find?_singleton]

/-- No move takes a session away. -/
theorem isSome_find?_of_move {r r' : Recorder} {now : Clock} {call : Call} {id : Value}
    (h : (r.find? id).isSome) (hmove : r.Move now call r') : (r'.find? id).isSome := by
  cases hmove with
  | start => rw [find?_withSession, Option.isSome_or, h, Bool.true_or]
  | submit => rwa [find?_replace, Option.isSome_map]
  | append => rwa [withBatch, find?_replace, Option.isSome_map]
  | _ => exact h

theorem memoOf_eq {r : Recorder} {id : Value} {m : Memo Nat Run} (h : r.memoOf id = m) :
    m = {} ∨ ∃ id', id'.same id ∧ (id', m) ∈ r.memos := by
  have heq : r.memoOf id = ((r.memos.find? fun p => p.1.same id).map (·.2)).getD {} := rfl
  rw [heq] at h
  cases hfind : r.memos.find? fun p => p.1.same id with
  | none => exact .inl (by simp [← h, hfind])
  | some p =>
    refine .inr ⟨p.1, by simpa using List.find?_some hfind, ?_⟩
    obtain rfl : p.2 = m := by simpa [hfind] using h
    exact List.mem_of_find?_eq_some hfind

theorem memoOf_congr (r : Recorder) {id id' : Value} (h : id.same id') :
    r.memoOf id = r.memoOf id' := by
  unfold memoOf
  simp only [Value.same_congr_right h]

theorem memoOf_withMemo (r : Recorder) (id : Value) (m : Memo Nat Run) (id' : Value) :
    (r.withMemo id m).memoOf id' = if id.same id' then m else r.memoOf id' := by
  have hmemoOf : ∀ r : Recorder, r.memoOf id' =
      ((r.memos.find? fun p => p.1.same id').map (·.2)).getD {} := fun _ => rfl
  have hmemos : (r.withMemo id m).memos = (id, m) :: r.memos.filter fun p => !p.1.same id := rfl
  rw [hmemoOf, hmemoOf, hmemos]
  split_ifs with hsame
  · rw [List.find?_cons_of_pos (by exact hsame)]
    rfl
  · have hother : ∀ k : Value, k.same id' → k.same id = false := by
      intro k hk
      by_contra hid
      exact hsame (Value.same_trans (Value.same_symm (by simpa using hid)) hk)
    rw [List.find?_cons_of_neg (by exact hsame), List.find?_filter]
    congr 3
    funext p
    cases hp : p.1.same id' with
    | false => simp
    | true => simp [hother p.1 hp]

/-! ## Distinct sessions -/

/-- The ids of the sessions are distinct identities that were given out. -/
def Numbered (r : Recorder) : Prop :=
  ∃ ids, Issued r.drawn ids ∧ r.sessions.map (·.id) = ids.map Value.text

theorem Numbered.id_text {r : Recorder} (h : r.Numbered) {s : Session} (hs : s ∈ r.sessions) :
    ∃ a, s.id = .text a := by
  obtain ⟨ids, -, hmap⟩ := h
  have hmem : s.id ∈ ids.map Value.text := hmap ▸ List.mem_map_of_mem hs
  obtain ⟨a, -, ha⟩ := List.mem_map.1 hmem
  exact ⟨a, ha.symm⟩

theorem Numbered.id_of_find? {r : Recorder} (h : r.Numbered) {id : String} {s : Session}
    (hs : r.find? (.text id) = some s) : s.id = .text id := by
  obtain ⟨a, ha⟩ := h.id_text (mem_of_find? hs)
  have hsame := same_of_find? hs
  rw [ha, Value.same_text, decide_eq_true_iff] at hsame
  rw [ha, hsame]

theorem Numbered.not_same {r : Recorder} (h : r.Numbered) {s : Session}
    {before after : List Session} (hsplit : r.sessions = before ++ s :: after) :
    ∀ u ∈ before ++ after, ¬ u.id.same s.id := by
  have hperm : r.sessions.Perm (s :: (before ++ after)) := hsplit ▸ List.perm_middle
  have hnodup : ((s :: (before ++ after)).map (·.id)).Nodup := by
    obtain ⟨ids, hids, hmap⟩ := h
    rw [← (hperm.map _).nodup_iff, hmap]
    exact hids.nodup.map fun a b hab => Value.text.inj hab
  intro u hu hsame
  obtain ⟨a, ha⟩ := h.id_text (hperm.mem_iff.2 (List.mem_cons_of_mem s hu))
  obtain ⟨b, hb⟩ := h.id_text (hperm.mem_iff.2 List.mem_cons_self)
  rw [ha, hb, Value.same_text, decide_eq_true_iff] at hsame
  have hid : u.id = s.id := by rw [ha, hb, hsame]
  exact (List.nodup_cons.1 hnodup).1 (List.mem_map.2 ⟨u, hu, hid⟩)

/-- Where sessions are numbered, a replacement takes the place of one session. -/
theorem sessions_replace {r : Recorder} (h : r.Numbered) {s t : Session} (hs : s ∈ r.sessions)
    (ht : t.id = s.id) : ∃ before after, r.sessions = before ++ s :: after ∧
      (r.replace t).sessions = before ++ t :: after := by
  obtain ⟨before, after, hsplit⟩ := List.append_of_mem hs
  have hkeep : ∀ l, l ⊆ before ++ after →
      l.map (fun u => if u.id.same s.id then t else u) = l := by
    intro l hl
    refine (List.map_congr_left fun u hu => ?_).trans (List.map_id l)
    exact if_neg (h.not_same hsplit u (hl hu))
  refine ⟨before, after, hsplit, ?_⟩
  rw [replace, hsplit, ht, List.map_append, List.map_cons, if_pos (Value.same_refl s.id),
    hkeep before (List.subset_append_left _ _), hkeep after (List.subset_append_right _ _)]

theorem Numbered.draw {r : Recorder} (h : r.Numbered) (count : Nat) :
    Numbered { r with drawn := r.drawn + count } := by
  obtain ⟨ids, hids, hmap⟩ := h
  exact ⟨ids, hids.mono (Nat.le_add_right _ _), hmap⟩

/-- A batch changes its session, and no other one. -/
theorem Numbered.withBatch_eq {r : Recorder} (h : r.Numbered) {s : Session} (hs : s ∈ r.sessions)
    (now : Stamp) (batch : List Interaction) :
    ∃ before after, r.sessions = before ++ s :: after ∧
      r.withBatch s now batch = { r with
        sessions := before ++ (s.append now r.drawn batch).2 :: after
        drawn := r.drawn + batch.length } := by
  obtain ⟨before, after, hsplit, hreplace⟩ := sessions_replace (h.draw batch.length) hs
    (rfl : (s.append now r.drawn batch).2.id = s.id)
  exact ⟨before, after, hsplit,
    congrArg (fun l => { r with sessions := l, drawn := r.drawn + batch.length }) hreplace⟩

theorem Numbered.replace {r : Recorder} (h : r.Numbered) {s t : Session} (hs : s ∈ r.sessions)
    (ht : t.id = s.id) : (r.replace t).Numbered := by
  obtain ⟨before, after, hsplit, hreplace⟩ := sessions_replace h hs ht
  obtain ⟨ids, hids, hmap⟩ := h
  refine ⟨ids, hids, ?_⟩
  rw [← hmap, hreplace, hsplit]
  simp [ht]

theorem Numbered.withSession {r : Recorder} (h : r.Numbered) (now : Stamp)
    (project owner address agent metadata : Value) : (r.withSession
      (.opened now (r.drawn + 1) project owner address agent metadata)).Numbered := by
  obtain ⟨ids, hids, hmap⟩ := h
  refine ⟨ids ++ identitiesAfter r.drawn 1, hids.append 1, ?_⟩
  rw [Recorder.withSession, List.map_append, List.map_append, hmap]
  rfl

theorem Numbered.move {r r' : Recorder} {now : Clock} {call : Call} (h : r.Numbered)
    (hmove : r.Move now call r') : r'.Numbered := by
  cases hmove with
  | draw count => exact h.draw count
  | start metadata _ => exact h.withSession now.stamp _ _ _ _ metadata
  | submit hs ht =>
    obtain rfl := Session.submit_ok ht
    exact h.replace (mem_of_find? hs) rfl
  | append _ hs _ => exact (h.draw _).replace (mem_of_find? hs) rfl
  | analyse _ _ => exact h
  | reset _ => exact h

end Recorder

theorem Recorder.Move.maxBatch {r r' : Recorder} {now : Clock} {call : Call}
    (hmove : r.Move now call r') : r'.maxBatch = r.maxBatch := by
  cases hmove <;> rfl

namespace Service

theorem numbered_after {start : Service} (h : start.recorder.sessions = [])
    (calls : List (Clock × Call)) : (start.after calls).recorder.Numbered := by
  refine after_of_move (fun _ _ _ _ _ => Recorder.Numbered.move) ?_
  exact ⟨[], .nil _, by simp [h]⟩

theorem maxBatch_after (start : Service) (calls : List (Clock × Call)) :
    (start.after calls).recorder.maxBatch = start.recorder.maxBatch :=
  after_of_move (P := fun r => r.maxBatch = start.recorder.maxBatch)
    (fun _ _ _ _ _ h hmove => hmove.maxBatch.trans h) rfl

/-- No call takes a session away. -/
theorem exists_find?_after {v : Service} {id : Value} (h : (v.recorder.find? id).isSome)
    (calls : List (Clock × Call)) : ∃ s, (v.after calls).recorder.find? id = some s :=
  Option.isSome_iff_exists.1 <| after_of_move (P := fun r => (r.find? id).isSome)
    (fun _ _ _ _ _ => Recorder.isSome_find?_of_move) h

/-! ## A service with one session -/

/-- A service whose engine counts events. -/
def tally : Service where
  recorder := { engine := .counting, registry := none, maxBatch := .int 1000 }

/-- The start of its first session. -/
def opening : Clock × Call := (⟨1⟩, .start (.text "p") (.text "u") .null .null .null)

/-- The identity of the first session. -/
def firstId : Value := .text (identity 1)

theorem exists_firstId (calls : List (Clock × Call)) :
    ∃ s, (tally.after (opening :: calls)).recorder.find? firstId = some s := by
  refine exists_find?_after ?_ calls
  show (List.find? _ [Session.opened _ 1 _ _ _ _ _]).isSome
  rw [List.find?_singleton, if_pos (by simp [Session.opened, firstId])]
  rfl

end Service

end TypingTrace
