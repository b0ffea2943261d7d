import TypingTrace.Proofs.Session.Query

/-!
# Calls and the sessions that they name

**Theorem (`spares_step`).** A call that does not name a session leaves it as it is, with its events
and with the analytics that are kept for it.

The other side of it is what a call to another session can do at all: it gives out identities, and
it lets the engine run, which keeps its settings (`Steady`).
-/

namespace TypingTrace

open Time Log

/-! ## Ids -/

theorem Value.isHashable_of_same_text {v : Value} {t : String} (h : v.same (.text t)) :
    v.isHashable :=
  Value.isHashable_congr h

theorem Value.equals_of_same_text {v w : Value} {t : String} (hv : v.same (.text t))
    (hw : w.same (.text t)) : v.equals w := by
  have hmark : v.fingerprint = [.text t] := Value.same_iff.1 hv
  rw [Value.equals, Value.same_trans hv (Value.same_symm hw), hmark]
  rfl

/-! ## Addresses -/

/-- The events of a batch in its wire form. -/
def Batch.eventsOf (fields : Fields) : Except Fault (List Interaction) :=
  (fields.get "events").itemsIfAny >>= fun items => items.mapM Interaction.ofWire

theorem Batch.ofFields_eq_map (fields : Fields) : Batch.ofFields fields =
    (eventsOf fields).map fun events => ⟨(fields.get? "sessionId").getD (.text ""), events⟩ := by
  unfold ofFields eventsOf
  cases (fields.get "events").itemsIfAny with
  | error f => rfl
  | ok items =>
    show (items.mapM Interaction.ofWire >>= fun events => pure (Batch.mk _ events)) =
      (items.mapM Interaction.ofWire).map _
    cases items.mapM Interaction.ofWire <;> rfl

/-- The events of a batch do not depend on its address. -/
theorem Batch.ofFields_set (fields : Fields) (id : Value) :
    Batch.ofFields (Fields.set "sessionId" id fields) =
      (Batch.ofFields fields).map fun batch => { batch with session := id } := by
  have hevents : eventsOf (Fields.set "sessionId" id fields) = eventsOf fields := by
    unfold eventsOf Fields.get
    rw [Fields.get?_set_of_ne (by decide)]
  rw [ofFields_eq_map, ofFields_eq_map, hevents, Fields.get?_set_self]
  cases eventsOf fields <;> rfl

namespace Call

/-- The id of the session that a call names. -/
def address? : Call → Option Value
  | start .. => none
  | ingestWire (.object fields) _ => some ((Fields.get? "sessionId" fields).getD (.text ""))
  | ingestWire _ _ => none
  | ingestEntries id _ _ => some id
  | submit id _ => some id
  | analytics id _ => some id
  | reset id => some id
  | query f => if f.session.isNull then none else some f.session
  | statistics id => some id

/-- Whether a call is addressed to a session. -/
def isFor (id : Value) (call : Call) : Bool := call.address?.any fun a => a.same id

/-- The call with another address, if it has one. -/
def readdress (id : Value) : Call → Call
  | ingestWire (.object fields) project =>
    ingestWire (.object (Fields.set "sessionId" id fields)) project
  | ingestEntries _ entries project => ingestEntries id entries project
  | submit _ project => submit id project
  | analytics _ token => analytics id token
  | reset _ => reset id
  | query f => if f.session.isNull then query f else query { f with session := id }
  | statistics _ => statistics id
  | call => call

/-- Whether a call names no session and starts none. -/
def isFree (call : Call) : Bool := call.address?.isNone && !call.isStart

theorem isFor_of_isFree {call : Call} (h : call.isFree) (id : Value) : call.isFor id = false := by
  rw [isFree, Bool.and_eq_true, Option.isNone_iff_eq_none] at h
  rw [isFor, h.1]
  rfl

theorem readdress_of_isFree {call : Call} (h : call.isFree) (id : Value) :
    call.readdress id = call := by
  cases call with
  | ingestWire sent project => cases sent <;> first | rfl | cases h
  | query f =>
    rw [readdress]
    split_ifs with hnull
    · rfl
    · rw [isFree, address?, if_neg hnull] at h
      cases h
  | start => cases h
  | _ => cases h

theorem isFor_readdress {id : Value} {call : Call} (h : call.isFor id) (a : String) :
    (call.readdress (.text a)).isFor (.text a) := by
  have hsame : (Value.text a).same (.text a) := Value.same_refl _
  cases call with
  | ingestWire sent project =>
    cases sent with
    | object fields =>
      rw [readdress, isFor, address?, Fields.get?_set_self]
      exact hsame
    | _ => cases h
  | query f =>
    by_cases hnull : f.session.isNull
    · rw [isFor, address?, if_pos hnull] at h
      cases h
    · rw [readdress, if_neg hnull]
      exact hsame
  | start => cases h
  | _ => exact hsame

theorem address?_of_batch? {call : Call} {batch : Batch} (h : call.batch? = some batch) :
    call.address? = some batch.session := by
  cases call with
  | ingestWire sent project =>
    cases sent with
    | object fields =>
      rw [batch?, Batch.ofFields_eq_map] at h
      cases hevents : Batch.eventsOf fields with
      | error f =>
        rw [hevents] at h
        cases h
      | ok events =>
        rw [hevents] at h
        obtain rfl := Option.some.inj h
        rfl
    | _ => cases h
  | ingestEntries id entries project =>
    obtain ⟨events, -, rfl⟩ := Option.map_eq_some_iff.1 h
    rfl
  | _ => cases h

end Call

/-! ## Calls for others -/

namespace Recorder

variable {r r' : Recorder} {id : Value}

theorem same_eq_false {a b c : Value} (h : a.same b) (h' : b.same c = false) :
    a.same c = false := (Value.same_congr_left h c).trans h'

/-- What is stored under an id stays as it is. -/
structure Spares (id : Value) (r r' : Recorder) : Prop where
  session : r'.find? id = r.find? id
  memo : r'.memoOf id = r.memoOf id

theorem Spares.refl (id : Value) (r : Recorder) : Spares id r r := ⟨rfl, rfl⟩

theorem spares_replace {t : Session} (h : t.id.same id = false) : Spares id r (r.replace t) where
  session := by
    rw [find?_replace]
    cases hu : r.find? id with
    | none => rfl
    | some u =>
      have hother : ¬ u.id.same t.id := by
        intro hsame
        have hid : t.id.same id := Value.same_trans (Value.same_symm hsame) (same_of_find? hu)
        rw [h] at hid
        cases hid
      rw [Option.map_some, if_neg hother]
  memo := rfl

theorem spares_withBatch {s : Session} (h : s.id.same id = false) (now : Stamp)
    (batch : List Interaction) : Spares id r (r.withBatch s now batch) := by
  have hreplace : Spares id { r with drawn := r.drawn + batch.length } (r.withBatch s now batch) :=
    spares_replace h
  exact ⟨hreplace.session, hreplace.memo⟩

theorem spares_withMemo {id' : Value} (h : id'.same id = false) (m : Memo Nat Run) :
    Spares id r (r.withMemo id' m) where
  session := rfl
  memo := by rw [memoOf_withMemo, h]; rfl

theorem spares_withSession (h : (r.find? id).isSome) (s : Session) :
    Spares id r (r.withSession s) where
  session := by rw [find?_withSession, Option.or_of_isSome h]
  memo := rfl

end Recorder

open Recorder

namespace Service

/-- **A call for another session spares a session.** -/
theorem spares_step {v : Service} {id : Value} (hs : (v.recorder.find? id).isSome) (now : Clock)
    {call : Call} (hcall : call.isFor id = false) :
    Spares id v.recorder (v.step (now, call)).recorder := by
  have hother : ∀ a, call.address? = some a → a.same id = false := by
    intro a ha
    rwa [Call.isFor, ha] at hcall
  cases hbatch : call.batch? with
  | some batch =>
    have hsame := hother _ (Call.address?_of_batch? hbatch)
    rw [step]
    rcases v.step_batch_cases now hbatch with ⟨f, hrefused⟩ | ⟨s, answer, w, hs, -, hanswer, hw⟩
    · rw [hrefused]
      exact .refl id _
    · rw [hanswer]
      show Spares id v.recorder w.recorder
      rw [hw]
      exact spares_withBatch (same_eq_false (same_of_find? hs) hsame) now.stamp batch.events
  | none =>
    cases call with
    | start project owner address agent metadata =>
      rw [step, Call.request, respond_return, respond_start]
      split_ifs
      · exact .refl id _
      · split
        · exact .refl id _
        · exact spares_withSession hs _
    | ingestWire sent project =>
      rw [step, Call.request, respond_return]
      cases sent with
      | object fields =>
        rw [respond_ingestWire]
        cases hread : Batch.ofFields fields with
        | error f => exact .refl id _
        | ok batch => simp [Call.batch?, hread, Except.toOption] at hbatch
      | _ => exact .refl id _
    | ingestEntries a entries project =>
      rw [step, Call.request, respond_return]
      obtain ⟨count, hcount⟩ := respond_ingestEntries_of_eq_none
        (Option.map_eq_none_iff.1 hbatch) v now.stamp a project
      rw [hcount]
      exact ⟨rfl, rfl⟩
    | submit a project =>
      rw [step, Call.request, respond_return, respond_submit]
      split
      · exact .refl id _
      · rename_i s hs
        split
        · exact .refl id _
        · rename_i t ht
          refine spares_replace (same_eq_false ?_ (hother a rfl))
          have hid : t.id = s.id := by rw [Session.submit_ok ht]
          rw [hid]
          exact same_of_find? (checkedSession_ok hs)
    | analytics a token =>
      rw [step, Call.request, respond_return, respond_analytics]
      split
      · exact .refl id _
      · rename_i s _
        rcases v.recorder.analyse now a s token (v.recorder.engine, v.disk, v.warnings) with
          ⟨⟨result, memo⟩, engine, disk, warnings⟩
        have hmemo := spares_withMemo (r := { v.recorder with engine }) (hother a rfl) memo
        exact ⟨hmemo.session, hmemo.memo⟩
    | reset a =>
      rw [step, Call.request, respond_return, respond_reset]
      split
      · exact .refl id _
      · exact spares_withMemo (hother a rfl) _
    | query f =>
      rw [step, Call.request, respond_return]
      exact .refl id _
    | statistics a =>
      rw [step, Call.request, respond_return]
      exact .refl id _

end Service

/-! ## What every run keeps -/

namespace Recorder

/-- A recorder whose tables fit together, with the settings that it was made with. -/
structure Steady (start r : Recorder) : Prop where
  intact : r.Intact
  engine : Engine.SameSettings start.engine r.engine
  registry : r.registry = start.registry
  maxBatch : r.maxBatch = start.maxBatch

theorem sameSettings_analyse {r : Recorder} {now : Clock} {id : Value} {s : Session}
    {token : Option Value} {result : Run} {memo : Memo Nat Run} {e engine : Engine}
    {before after : Disk × List String}
    (h : r.analyse now id s token (e, before) = ((result, memo), engine, after)) :
    Engine.SameSettings e engine := by
  rw [analyse_eq] at h
  cases hkept : (r.memoOf id).kept s.sequence token with
  | some kept =>
    rw [hkept] at h
    cases h
    exact .refl e
  | none =>
    rw [hkept] at h
    cases h
    exact Engine.sameSettings_run e now (entries s) r.registry before.1

theorem Steady.move {start r r' : Recorder} {now : Clock} {call : Call} (h : Steady start r)
    (hmove : r.Move now call r') : Steady start r' := by
  have hintact := h.intact.move hmove
  cases hmove with
  | analyse _ hanalyse =>
    exact ⟨hintact, h.engine.trans (sameSettings_analyse hanalyse), h.registry, h.maxBatch⟩
  | _ => exact ⟨hintact, h.engine, h.registry, h.maxBatch⟩

theorem Move.drawn_le {r r' : Recorder} {now : Clock} {call : Call} (hmove : r.Move now call r') :
    r.drawn ≤ r'.drawn := by
  cases hmove with
  | draw count => exact Nat.le_add_right _ _
  | start => exact Nat.le_add_right _ _
  | append => exact Nat.le_add_right _ _
  | _ => exact le_rfl

end Recorder

theorem Service.steady_after {start : Recorder} {v : Service}
    (h : Recorder.Steady start v.recorder) (calls : List (Clock × Call)) :
    Recorder.Steady start (v.after calls).recorder :=
  after_of_move (fun _ _ _ _ _ => Recorder.Steady.move) h

/-! ## The next identity -/

namespace Recorder

variable {r : Recorder}

theorem Numbered.find?_fresh (h : r.Numbered) :
    r.find? (.text (identity (r.drawn + 1))) = none := by
  cases hs : r.find? (.text (identity (r.drawn + 1))) with
  | none => rfl
  | some s =>
    obtain ⟨ids, hids, hmap⟩ := h
    have hmem : s.id ∈ ids.map Value.text := hmap ▸ List.mem_map_of_mem (mem_of_find? hs)
    rw [Numbered.id_of_find? ⟨ids, hids, hmap⟩ hs] at hmem
    obtain ⟨id, hid, heq⟩ := List.mem_map.1 hmem
    obtain ⟨n, hn, rfl⟩ := hids.among id hid
    have := identity_injective (Value.text.inj heq)
    omega

theorem Numbered.find?_withSession_fresh (h : r.Numbered) {s : Session}
    (hs : s.id = .text (identity (r.drawn + 1))) :
    (r.withSession s).find? (.text (identity (r.drawn + 1))) = some s := by
  rw [find?_withSession, h.find?_fresh, hs, if_pos (Value.same_refl _)]
  rfl

theorem Intact.memoOf_fresh (h : r.Intact) : r.memoOf (.text (identity (r.drawn + 1))) = {} := by
  rcases memoOf_eq (r := r) rfl with hempty | ⟨id, hid, hmem⟩
  · exact hempty
  · have hsome := h.memos id _ hmem
    rw [r.find?_congr hid, h.numbered.find?_fresh] at hsome
    cases hsome

end Recorder

end TypingTrace
