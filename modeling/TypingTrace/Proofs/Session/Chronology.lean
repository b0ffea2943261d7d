import TypingTrace.Proofs.Session.Identity
import TypingTrace.Proofs.StableSort

/-!
# The events of a session in the order of their times

**Theorem (`events_after`).** Take a session without events and let any changes happen to it:
batches are appended, it is submitted, identities are given out to others. What it has stored is
then the stable sort by time of all its batches, joined in the order of their delivery.

The proof is an induction over the changes with the invariant `Chronicle`. One batch is sorted apart
and merged into what is stored; as both are stable sorts, so is the result, of the batches before
and this one (`StableSort.merge`). Ties between late batches need no case of their own: a merge
takes what is stored first, and what is stored was delivered first.
-/

namespace TypingTrace

open Time

/-- The instant at which an interaction was observed. -/
def Interaction.instant (e : Interaction) : Int := e.time.instant

def StoredEvent.instant (e : StoredEvent) : Int := e.time.instant

namespace Session

/-! ## One batch -/

theorem stableSort_inOrder (batch : List Interaction) :
    StableSort Interaction.instant batch (inOrder batch) := stableSort_mergeSort batch

theorem map_interaction_acceptAll (s : Session) (now : Stamp) (drawn : Nat)
    (batch : List Interaction) :
    (s.acceptAll now drawn batch).map StoredEvent.interaction = inOrder batch := by
  rw [acceptAll, List.map_map]
  exact List.zipIdx_map_fst 0 (inOrder batch)

theorem map_id_acceptAll (s : Session) (now : Stamp) (drawn : Nat) (batch : List Interaction) :
    (s.acceptAll now drawn batch).map StoredEvent.id = identitiesAfter drawn batch.length := by
  have hsnd := List.zipIdx_map_snd 0 (inOrder batch)
  rw [(stableSort_inOrder batch).perm.length_eq, ← List.range_eq_range'] at hsnd
  rw [identitiesAfter, ← hsnd, acceptAll, List.map_map, List.map_map]
  rfl

theorem map_interaction_merge (stored accepted : List StoredEvent) :
    (merge stored accepted).map StoredEvent.interaction =
      List.merge (stored.map StoredEvent.interaction) (accepted.map StoredEvent.interaction)
        (leBy Interaction.instant) :=
  List.map_merge fun _ _ _ _ => rfl

theorem merge_perm (stored accepted : List StoredEvent) :
    (merge stored accepted).Perm (stored ++ accepted) := List.merge_perm_append _

/-- Stored events are ordered if what they store is. -/
theorem ordered_of_contents {d : List Interaction} {l : List StoredEvent}
    (h : StableSort Interaction.instant d (l.map StoredEvent.interaction)) :
    l.Pairwise fun a b => a.instant ≤ b.instant :=
  (List.pairwise_map (R := fun a b : Interaction => a.instant ≤ b.instant)).1 h.ordered

/-- Appending a batch to the stable sort of `d` gives the stable sort of `d` and the batch. -/
theorem contents_append {s : Session} {d : List Interaction}
    (h : StableSort Interaction.instant d (s.events.map StoredEvent.interaction)) (now : Stamp)
    (drawn : Nat) (batch : List Interaction) :
    StableSort Interaction.instant (d ++ batch)
      ((s.append now drawn batch).2.events.map StoredEvent.interaction) := by
  rw [append, map_interaction_merge, map_interaction_acceptAll]
  exact h.merge (stableSort_inOrder batch)

/-! ## Changes -/

/-- What can happen to a session whose identities come from a source that others draw on too. -/
inductive Change where
  | append (now : Stamp) (batch : List Interaction)
  | submit (time : Stamp)
  | drawElsewhere (count : Nat)

/-- A session, and how many identities were given out. -/
structure Stage where
  session : Session
  drawn : Nat

/-- The batch that a change delivers. -/
def Change.batch : Change → List Interaction
  | append _ batch => batch
  | _ => []

/-- The events that a change returns, and the stage after it. A submission that is refused changes
nothing. -/
def Change.apply (st : Stage) : Change → List StoredEvent × Stage
  | append now batch =>
    let (accepted, s) := st.session.append now st.drawn batch
    (accepted, ⟨s, st.drawn + accepted.length⟩)
  | submit time =>
    match st.session.submit time with
    | .ok s => ([], { st with session := s })
    | .error _ => ([], st)
  | drawElsewhere count => ([], { st with drawn := st.drawn + count })

/-- A submission, even one that is refused, returns nothing and leaves the events as they are. -/
theorem apply_submit (st : Stage) (time : Stamp) : ∃ s : Session,
    (Change.submit time).apply st = ([], ⟨s, st.drawn⟩) ∧ s.events = st.session.events := by
  cases hs : st.session.submit time with
  | error f => exact ⟨st.session, by simp only [Change.apply, hs], rfl⟩
  | ok s => exact ⟨s, by simp only [Change.apply, hs], by rw [submit_ok hs]⟩

namespace Stage

def after (st : Stage) (changes : List Change) : Stage :=
  changes.foldl (fun st c => (c.apply st).2) st

/-- The events that changes return, one after the other. -/
def returned (st : Stage) : List Change → List StoredEvent
  | [] => []
  | c :: changes => (c.apply st).1 ++ returned (c.apply st).2 changes

end Stage

/-- All batches of some changes, joined in the order of their delivery. -/
def delivered (changes : List Change) : List Interaction := changes.flatMap Change.batch

/-! ## The invariant -/

/-- A stage that was reached by delivering `d` and returning the events `l`. -/
structure Chronicle (d : List Interaction) (l : List StoredEvent) (st : Stage) : Prop where
  contents : StableSort Interaction.instant d (st.session.events.map StoredEvent.interaction)
  records : st.session.events.Perm l
  issued : Issued st.drawn (st.session.events.map StoredEvent.id)

namespace Chronicle

variable {d : List Interaction} {l : List StoredEvent} {st : Stage}

theorem append (h : Chronicle d l st) (now : Stamp) (batch : List Interaction) :
    Chronicle (d ++ batch) (l ++ (st.session.append now st.drawn batch).1)
      ((Change.append now batch).apply st).2 where
  contents := contents_append h.contents now st.drawn batch
  records := (merge_perm _ _).trans (h.records.append_right _)
  issued := by
    have hids := h.issued.append batch.length
    rw [← map_id_acceptAll st.session now, ← List.map_append] at hids
    rw [← length_acceptAll st.session now st.drawn batch] at hids
    exact hids.perm ((merge_perm _ _).map _)

theorem step (h : Chronicle d l st) (c : Change) :
    Chronicle (d ++ c.batch) (l ++ (c.apply st).1) (c.apply st).2 := by
  cases c with
  | append now batch => exact h.append now batch
  | submit time =>
    obtain ⟨s, happly, hevents⟩ := apply_submit st time
    rw [happly]
    simp only [Change.batch, List.append_nil]
    exact ⟨hevents ▸ h.contents, hevents ▸ h.records, hevents ▸ h.issued⟩
  | drawElsewhere count =>
    simp only [Change.batch, Change.apply, List.append_nil]
    exact ⟨h.contents, h.records, h.issued.mono (Nat.le_add_right _ _)⟩

theorem after (h : Chronicle d l st) (changes : List Change) :
    Chronicle (d ++ delivered changes) (l ++ st.returned changes) (st.after changes) := by
  induction changes generalizing d l st with
  | nil => simpa [delivered, Stage.returned, Stage.after] using h
  | cons c changes ih =>
    have := ih (h.step c)
    rwa [List.append_assoc, List.append_assoc] at this

end Chronicle

theorem Chronicle.nil {s : Session} (hs : s.events = []) (drawn : Nat) :
    Chronicle [] [] ⟨s, drawn⟩ := by
  refine ⟨?_, ?_, ?_⟩ <;> simp only [hs, List.map_nil]
  · exact .nil
  · exact .refl _
  · exact .nil drawn

/-! ## Chronology -/

/-- Changes keep what is stored, in its order. -/
theorem sublist_apply (st : Stage) (c : Change) :
    st.session.events.Sublist (c.apply st).2.session.events := by
  cases c with
  | append now batch => exact sublist_merge_left _ _ _
  | submit time =>
    obtain ⟨s, happly, hevents⟩ := apply_submit st time
    rw [happly, hevents]
  | drawElsewhere count => exact .refl _

/-- **Chronology.** After any changes to a session without events, its events are the stable sort of
all batches in the order of their delivery: in the order of time, each returned event once, all ids
distinct. A further change keeps them in their order, and a further batch is returned stably sorted,
all of it is stored, and at any one time what was stored before comes first. -/
theorem events_after (s : Session) (hs : s.events = []) (drawn : Nat) (changes : List Change) :
    let st := Stage.after ⟨s, drawn⟩ changes
    StableSort Interaction.instant (delivered changes)
        (st.session.events.map StoredEvent.interaction) ∧
      st.session.events.map StoredEvent.interaction = inOrder (delivered changes) ∧
      (st.session.events.Pairwise fun a b => a.instant ≤ b.instant) ∧
      st.session.events.Perm (Stage.returned ⟨s, drawn⟩ changes) ∧
      (st.session.events.map StoredEvent.id).Nodup ∧
      (∀ c : Change, st.session.events.Sublist (c.apply st).2.session.events) ∧
      ∀ (now : Stamp) (batch : List Interaction),
        let (accepted, t) := st.session.append now st.drawn batch
        StableSort Interaction.instant batch (accepted.map StoredEvent.interaction) ∧
          (∀ e ∈ accepted, e ∈ t.events) ∧
          ∀ a ∈ st.session.events, ∀ b ∈ accepted, a.instant = b.instant →
            [a, b].Sublist t.events := by
  intro st
  have h : Chronicle (delivered changes) (Stage.returned ⟨s, drawn⟩ changes) st := by
    simpa using (Chronicle.nil hs drawn).after changes
  have hordered := ordered_of_contents h.contents
  refine ⟨h.contents, h.contents.eq_mergeSort, hordered, h.records, h.issued.nodup,
    sublist_apply st, ?_⟩
  intro now batch
  refine ⟨?_, ?_, ?_⟩
  · rw [map_interaction_acceptAll]
    exact stableSort_inOrder batch
  · intro e he
    exact List.mem_merge_right _ he
  · intro a ha b hb hab
    exact pair_sublist_merge hordered ha hb hab

/-! ### Two late batches -/

/-- A session as it is started. -/
def draft : Session where
  id := .text "s"
  project := .text "p"
  owner := .text "u"
  start := .ofInstant 0
  created := .ofInstant 0

/-- An interaction of a kind at a time. -/
def observed (kind : EventKind) (time : Int) : Interaction := { kind, time := .ofInstant time }

/-- A batch, a submission, and a late batch with events before, between and at the times of the
first. -/
def lateDelivery : List Change := [
  .append (.ofInstant 9) [observed .keydown 5, observed .keyup 7], .submit (.ofInstant 10),
  .drawElsewhere 2,
  .append (.ofInstant 11) [observed .paste 7, observed .copy 3, observed .cut 5]]

theorem events_after_lateDelivery :
    draft.events = [] ∧
      StableSort Interaction.instant
        [observed .keydown 5, observed .keyup 7, observed .paste 7, observed .copy 3,
          observed .cut 5]
        ((Stage.after ⟨draft, 0⟩ lateDelivery).session.events.map StoredEvent.interaction) ∧
      ((Stage.after ⟨draft, 0⟩ lateDelivery).session.events.map StoredEvent.id).Nodup := by
  obtain ⟨hcontents, -, -, -, hids, -⟩ := events_after draft rfl 0 lateDelivery
  exact ⟨rfl, hcontents, hids⟩

end Session

end TypingTrace
