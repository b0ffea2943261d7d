import Mathlib.Data.List.Flatten
import TypingTrace.Proofs.Session.Chronology
import TypingTrace.Proofs.Session.Freshness

/-!
# The tables of a recorder fit together

**Theorem (`integrity_after`).** Whatever calls a recorder has answered, each of its sessions is
found under its own id, the events of a session bear that id and the project of the session and are
in the order of their times, no id of a session or event occurs twice in the whole recorder, and
every memo belongs to a session. One more call takes away neither a session nor an event, and leaves
what is stored in its order.

The invariant is `Intact`, and it is kept by every move. Most moves leave the sessions alone. A
batch replaces one session by a longer one: its new events bear the identity of the session by the
way they are accepted, stay in order since two ordered lists are merged, and have ids that were
never given out before. What a move does to the sessions already there is said by `Grows`, from
which it follows that nothing that is stored is lost.
-/

namespace TypingTrace

open Time

/-! ## One session -/

namespace Session

/-- The ids in a session: its own and those of its events. -/
def identities (s : Session) : List Value := s.id :: s.events.map fun e => .text e.id

/-- Events that bear the identity of their session and are in the order of their times. -/
structure Orderly (s : Session) : Prop where
  owned : ∀ e ∈ s.events, e.session = s.id ∧ e.project = s.project
  ordered : s.events.Pairwise fun a b => a.instant ≤ b.instant

/-- A later state of a session: the same identity, and all its events in their order. -/
structure Grows (s t : Session) : Prop where
  id : t.id = s.id
  project : t.project = s.project
  events : s.events.Sublist t.events

variable {s t : Session}

theorem Grows.refl (s : Session) : Grows s s := ⟨rfl, rfl, .refl _⟩

theorem Grows.submit {now : Stamp} (h : s.submit now = .ok t) : Grows s t := by
  obtain rfl := submit_ok h
  exact ⟨rfl, rfl, .refl _⟩

theorem Grows.append (s : Session) (now : Stamp) (drawn : Nat) (batch : List Interaction) :
    Grows s (s.append now drawn batch).2 := ⟨rfl, rfl, sublist_merge_left _ _ _⟩

theorem sublist_events {l m : List Session} (h : List.Forall₂ Grows l m) :
    (l.flatMap events).Sublist (m.flatMap events) := by
  induction h with
  | nil => exact .refl _
  | cons hgrows _ ih =>
    rw [List.flatMap_cons, List.flatMap_cons]
    exact hgrows.events.append ih

theorem owned_acceptAll {now : Stamp} {drawn : Nat} {batch : List Interaction} {e : StoredEvent}
    (he : e ∈ s.acceptAll now drawn batch) : e.session = s.id ∧ e.project = s.project := by
  obtain ⟨p, -, rfl⟩ := List.mem_map.1 he
  exact ⟨rfl, rfl⟩

theorem Orderly.submit {now : Stamp} (h : s.Orderly) (ht : s.submit now = .ok t) : t.Orderly := by
  obtain rfl := submit_ok ht
  exact ⟨h.owned, h.ordered⟩

theorem Orderly.append (h : s.Orderly) (now : Stamp) (drawn : Nat) (batch : List Interaction) :
    (s.append now drawn batch).2.Orderly where
  owned e he := by
    rcases List.mem_append.1 ((merge_perm _ _).mem_iff.1 he) with hold | hnew
    · exact h.owned e hold
    · exact owned_acceptAll hnew
  ordered := by
    have hcontents : StableSort Interaction.instant (s.events.map StoredEvent.interaction)
        (s.events.map StoredEvent.interaction) := .self (List.pairwise_map.2 h.ordered)
    exact ordered_of_contents (contents_append hcontents now drawn batch)

theorem identities_append (s : Session) (now : Stamp) (drawn : Nat) (batch : List Interaction) :
    (s.append now drawn batch).2.identities.Perm
      (s.identities ++ (identitiesAfter drawn batch.length).map .text) := by
  have hmerge := merge_perm s.events (s.acceptAll now drawn batch)
  have hperm := (hmerge.map StoredEvent.id).map Value.text
  rw [List.map_append, List.map_append, map_id_acceptAll, List.map_map, List.map_map] at hperm
  exact hperm.cons s.id

end Session

namespace Recorder

variable {r r' : Recorder}

/-! ## The invariant -/

/-- The ids of all sessions and of all their events. -/
def identities (r : Recorder) : List Value := r.sessions.flatMap Session.identities

/-- A recorder whose tables fit together. -/
structure Intact (r : Recorder) : Prop where
  numbered : r.Numbered
  issued : ∃ ids, Issued r.drawn ids ∧ r.identities.Perm (ids.map .text)
  orderly : ∀ s ∈ r.sessions, s.Orderly
  memos : ∀ id m, (id, m) ∈ r.memos → (r.find? id).isSome

namespace Intact

theorem identities_nodup (h : r.Intact) : r.identities.Nodup := by
  obtain ⟨ids, hids, hperm⟩ := h.issued
  rw [hperm.nodup_iff]
  exact hids.nodup.map fun a b hab => Value.text.inj hab

/-- A session is found under its own id. -/
theorem find?_id (h : r.Intact) {s : Session} (hs : s ∈ r.sessions) :
    r.find? s.id = some s := by
  obtain ⟨before, after, hsplit⟩ := List.append_of_mem hs
  refine List.find?_eq_some_iff_append.2 ⟨Value.same_refl s.id, before, after, hsplit, ?_⟩
  intro u hu
  simpa using h.numbered.not_same hsplit u (List.mem_append_left after hu)

theorem draw (h : r.Intact) (count : Nat) : Intact { r with drawn := r.drawn + count } where
  numbered := h.numbered.draw count
  issued := by
    obtain ⟨ids, hids, hperm⟩ := h.issued
    exact ⟨ids, hids.mono (Nat.le_add_right _ _), hperm⟩
  orderly := h.orderly
  memos := h.memos

theorem withSession (h : r.Intact) (now : Stamp) (project owner address agent metadata : Value) :
    (r.withSession
      (.opened now (r.drawn + 1) project owner address agent metadata)).Intact where
  numbered := h.numbered.withSession now project owner address agent metadata
  issued := by
    obtain ⟨ids, hids, hperm⟩ := h.issued
    refine ⟨ids ++ identitiesAfter r.drawn 1, hids.append 1, ?_⟩
    rw [identities, Recorder.withSession, List.flatMap_append, List.map_append]
    exact hperm.append_right _
  orderly s hs := by
    rcases mem_sessions_withSession hs with hold | rfl
    · exact h.orderly s hold
    · exact ⟨fun e he => absurd he List.not_mem_nil, .nil⟩
  memos id m hm := by
    rw [find?_withSession, Option.isSome_or, h.memos id m hm, Bool.true_or]

/-- A session may be replaced by one with the same id and with further ids just given out. -/
theorem replace (h : r.Intact) {s t : Session} (hs : s ∈ r.sessions) (ht : t.id = s.id)
    (horderly : t.Orderly) (count : Nat)
    (hids : t.identities.Perm (s.identities ++ (identitiesAfter r.drawn count).map .text)) :
    Intact ({ r with drawn := r.drawn + count }.replace t) where
  numbered := (h.numbered.draw count).replace hs ht
  issued := by
    obtain ⟨before, after, hsplit, hreplace⟩ := sessions_replace (h.numbered.draw count) hs ht
    obtain ⟨ids, hissued, hperm⟩ := h.issued
    refine ⟨ids ++ identitiesAfter r.drawn count, hissued.append count, ?_⟩
    have hsplit' : r.identities = before.flatMap Session.identities ++
        (s.identities ++ after.flatMap Session.identities) := by
      rw [identities, show r.sessions = before ++ s :: after from hsplit, List.flatMap_append,
        List.flatMap_cons]
    rw [identities, hreplace, List.flatMap_append, List.flatMap_cons, List.map_append]
    calc
      before.flatMap Session.identities ++ (t.identities ++ after.flatMap Session.identities)
      _ |>.Perm (before.flatMap Session.identities ++ ((s.identities ++
          (identitiesAfter r.drawn count).map .text) ++ after.flatMap Session.identities)) :=
        (hids.append_right _).append_left _
      _ |>.Perm (r.identities ++ (identitiesAfter r.drawn count).map .text) := by
        rw [hsplit', List.append_assoc, List.append_assoc, List.append_assoc]
        exact (List.perm_append_comm.append_left _).append_left _
      _ |>.Perm (ids.map .text ++ (identitiesAfter r.drawn count).map .text) :=
        hperm.append_right _
  orderly u hu := by
    rcases mem_sessions_replace hu with rfl | hold
    · exact horderly
    · exact h.orderly u hold
  memos id m hm := by
    rw [find?_replace, Option.isSome_map]
    exact h.memos id m hm

theorem withMemo (h : r.Intact) {id : Value} (hid : (r.find? id).isSome) (m : Memo Nat Run) :
    (r.withMemo id m).Intact where
  numbered := h.numbered
  issued := h.issued
  orderly := h.orderly
  memos id' m' hm := by
    rcases List.mem_cons.1 hm with heq | hold
    · obtain ⟨rfl, rfl⟩ := Prod.mk.inj heq
      exact hid
    · exact h.memos id' m' (List.mem_of_mem_filter hold)

theorem move {now : Clock} {call : Call} (h : r.Intact) (hmove : r.Move now call r') :
    r'.Intact := by
  cases hmove with
  | draw count => exact h.draw count
  | start metadata _ => exact h.withSession now.stamp _ _ _ _ metadata
  | @submit id s t hs ht =>
    have hgrows := Session.Grows.submit ht
    refine h.replace (mem_of_find? hs) hgrows.id ((h.orderly s (mem_of_find? hs)).submit ht) 0 ?_
    obtain rfl := Session.submit_ok ht
    rw [show identitiesAfter r.drawn 0 = [] from rfl, List.map_nil, List.append_nil]
    exact .refl _
  | @append batch s _ hs =>
    have horderly := (h.orderly s (mem_of_find? hs)).append now.stamp r.drawn batch.events
    exact h.replace (mem_of_find? hs) (Session.Grows.append s now.stamp r.drawn batch.events).id
      horderly batch.events.length (s.identities_append now.stamp r.drawn batch.events)
  | @analyse _ _ _ _ _ engine _ _ hs _ =>
    have hengine : Intact { r with engine } := ⟨h.numbered, h.issued, h.orderly, h.memos⟩
    exact hengine.withMemo (Option.isSome_of_eq_some hs) _
  | reset hs => exact h.withMemo (Option.isSome_of_eq_some hs) _

end Intact

/-! ## Growth -/

/-- A later state of a recorder: every session in its place, perhaps grown, and new ones after
them. -/
def Grows (r r' : Recorder) : Prop :=
  ∃ kept added, r'.sessions = kept ++ added ∧ List.Forall₂ Session.Grows r.sessions kept

theorem grows_of_sessions_eq (h : r'.sessions = r.sessions) : r.Grows r' :=
  ⟨r.sessions, [], by rw [h, List.append_nil], List.forall₂_same.2 fun s _ => .refl s⟩

theorem grows_replace (h : r.Numbered) {s t : Session} (hs : s ∈ r.sessions) (ht : s.Grows t) :
    r.Grows (r.replace t) := by
  obtain ⟨before, after, hsplit, hreplace⟩ := sessions_replace h hs ht.id
  refine ⟨before ++ t :: after, [], by rw [hreplace, List.append_nil], ?_⟩
  have hkept : ∀ l : List Session, List.Forall₂ Session.Grows l l :=
    fun l => List.forall₂_same.2 fun u _ => .refl u
  rw [hsplit]
  exact List.rel_append (hkept before) (.cons ht (hkept after))

/-- No move takes a session or an event away. -/
theorem Move.grows {now : Clock} {call : Call} (hmove : r.Move now call r') (h : r.Numbered) :
    r.Grows r' := by
  cases hmove with
  | start =>
    exact ⟨r.sessions, [_], rfl, List.forall₂_same.2 fun s _ => .refl s⟩
  | submit hs ht => exact grows_replace h (mem_of_find? hs) (.submit ht)
  | append _ hs _ => exact grows_replace (h.draw _) (mem_of_find? hs) (.append _ _ r.drawn _)
  | _ => exact grows_of_sessions_eq rfl

/-- In the sequence of all events nothing is lost and nothing changes its place. -/
theorem Grows.events (h : r.Grows r') :
    (r.sessions.flatMap Session.events).Sublist (r'.sessions.flatMap Session.events) := by
  obtain ⟨kept, added, hsessions, hkept⟩ := h
  rw [hsessions, List.flatMap_append]
  exact (Session.sublist_events hkept).trans (List.sublist_append_left _ _)

end Recorder

namespace Service

theorem intact_after {start : Service} (hsessions : start.recorder.sessions = [])
    (hmemos : start.recorder.memos = []) (calls : List (Clock × Call)) :
    (start.after calls).recorder.Intact := by
  refine after_of_move (fun _ _ _ _ _ => Recorder.Intact.move) ⟨?_, ⟨[], .nil _, ?_⟩, ?_, ?_⟩
  · exact numbered_after hsessions []
  · rw [Recorder.identities, hsessions]
    exact .nil
  · simp [hsessions]
  · simp [hmemos]

/-- **Integrity.** After any calls to a recorder without sessions, refused ones among them: a
session is stored under its own id and no other; its events bear its id and project and are in the
order of their times; no id occurs twice, be it of a session or of an event; every memo belongs to a
session. A further call leaves every session in its place, with its identity and with its events in
their order, and so it does with the sequence of the events of all sessions. -/
theorem integrity_after {start : Service} (hsessions : start.recorder.sessions = [])
    (hmemos : start.recorder.memos = []) (calls : List (Clock × Call)) :
    let r := (start.after calls).recorder
    (∀ s, s ∈ r.sessions ↔ r.find? s.id = some s) ∧
      (∀ id s, r.find? (.text id) = some s → s.id = .text id) ∧
      (∀ s ∈ r.sessions, ∀ e ∈ s.events, e.session = s.id ∧ e.project = s.project) ∧
      r.identities.Nodup ∧
      (∀ s ∈ r.sessions, s.events.Pairwise fun a b => a.instant ≤ b.instant) ∧
      (∀ id m, (id, m) ∈ r.memos → ∃ s, r.find? id = some s) ∧
      ∀ call, let r' := ((start.after calls).step call).recorder
        r.Grows r' ∧
          (r.sessions.flatMap Session.events).Sublist (r'.sessions.flatMap Session.events) := by
  intro r
  have h : r.Intact := intact_after hsessions hmemos calls
  refine ⟨fun s => ⟨h.find?_id, Recorder.mem_of_find?⟩, fun id s => h.numbered.id_of_find?,
    fun s hs => (h.orderly s hs).owned, h.identities_nodup, fun s hs => (h.orderly s hs).ordered,
    ?_, ?_⟩
  · intro id m hm
    exact Option.isSome_iff_exists.1 (h.memos id m hm)
  · intro call r'
    have hgrows : r.Grows r' := ((start.after calls).move_step call.1 call.2).grows h.numbered
    exact ⟨hgrows, hgrows.events⟩

/-- After a late batch, and after one more submission, which is refused. -/
theorem integrity_after_lateBatch :
    tally.recorder.sessions = [] ∧ tally.recorder.memos = [] ∧
      ∃ s, (tally.after (opening :: lateBatch)).recorder.find? firstId = some s ∧
        s.id = firstId ∧ (∀ e ∈ s.events, e.session = s.id ∧ e.project = s.project) ∧
        (tally.after (opening :: lateBatch)).recorder.identities.Nodup ∧
        (tally.after (opening :: lateBatch)).recorder.Grows
          ((tally.after (opening :: lateBatch)).step (⟨6⟩, .submit firstId .null)).recorder := by
  obtain ⟨-, hid, howned, hnodup, -, -, hgrows⟩ :=
    @integrity_after tally rfl rfl (opening :: lateBatch)
  obtain ⟨s, hs⟩ := exists_firstId lateBatch
  exact ⟨rfl, rfl, s, hs, hid _ s hs, howned s (Recorder.mem_of_find? hs), hnodup, (hgrows _).1⟩

end Service

end TypingTrace
