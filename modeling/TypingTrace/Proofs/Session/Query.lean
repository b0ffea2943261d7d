import Mathlib.Data.List.Nodup
import TypingTrace.Proofs.Session.Export

/-!
# Queries find what their criteria say

**Theorem (`query_selects`).** Whatever calls a recorder has answered, a query finds the stored
events that meet every criterion that is set, each once, by sessions in the order of their starts
and within a session as they are stored. It does not matter that a query for one session looks at
no other session. The pages of a query are consecutive pieces of what it finds without a page.

A query selects from the events of its candidates, and asks for the owners of these sessions only.
What it has to be compared with is `scan`, the selection from all events with the owners of all
sessions. They are one list because the events of a session bear its id (`Intact.filter_events`):
an event of another session is not admitted, and the owner of an admitted one is known.
-/

namespace TypingTrace

open Time

/-! ## Criteria -/

theorem Value.isNull_iff {v : Value} : v.isNull ↔ v = .null := by
  cases v <;> simp [isNull]

namespace Filter

/-- An event of a session that meets every criterion that is set. -/
structure Selects (f : Filter) (s : Session) (e : StoredEvent) : Prop where
  project : f.project ≠ .null → e.project.equals f.project
  session : f.session ≠ .null → e.session.equals f.session
  owner : f.owner ≠ .null → s.owner.equals f.owner
  start : ∀ a, f.start = some a → a.instant ≤ e.time.instant
  stop : ∀ b, f.stop = some b → e.time.instant ≤ b.instant
  kind : ∀ kinds, f.kinds = some kinds → e.kind ∈ kinds

theorem meets_iff {criterion v : Value} :
    meets criterion v ↔ (criterion ≠ .null → v.equals criterion) := by
  rw [meets, Bool.or_eq_true, Value.isNull_iff, or_iff_not_imp_left]

theorem within_iff {f : Filter} {t : Stamp} :
    f.within t ↔ (∀ a, f.start = some a → a.instant ≤ t.instant) ∧
      ∀ b, f.stop = some b → t.instant ≤ b.instant := by
  unfold within
  cases f.start <;> cases f.stop <;> simp

theorem admits_iff {f : Filter} {s : Session} {e : StoredEvent} :
    f.admits s.owner (.stored e) ↔ f.Selects s e := by
  have hkinds : (f.kinds.map (·.contains e.kind)).getD true ↔
      ∀ kinds, f.kinds = some kinds → e.kind ∈ kinds := by
    cases f.kinds <;> simp
  simp only [admits, Bool.and_eq_true, meets_iff, within_iff]
  constructor
  · rintro ⟨⟨⟨⟨hproject, hsession⟩, howner⟩, hstart, hstop⟩, hkind⟩
    exact ⟨hproject, hsession, howner, hstart, hstop, hkinds.1 hkind⟩
  · rintro ⟨hproject, hsession, howner, hstart, hstop, hkind⟩
    exact ⟨⟨⟨⟨hproject, hsession⟩, howner⟩, hstart, hstop⟩, hkinds.2 hkind⟩

/-! ## Pages -/

variable {α : Type} {l : List α}

theorem page_of_unset {f : Filter} (hlimit : f.limit = .null) (hoffset : f.offset = .null)
    (l : List α) : f.page l = .ok l := by
  unfold page
  rw [hlimit, hoffset]
  rfl

/-- Items of a list from an offset on, at most as many as a limit. -/
def piece (limit offset : Nat) (l : List α) : List α := (l.drop offset).take limit

theorem page_eq_piece (f : Filter) (limit offset : Nat) (l : List α) :
    { f with limit := .int limit, offset := .int offset }.page l =
      .ok (piece limit offset l) := by
  unfold page
  by_cases hoffset : offset = 0
  · subst hoffset
    rfl
  · have htruthy : (Value.int offset).truthy := by
      show (Number.int offset).isNonzero
      simpa [Number.isNonzero, Number.isZero, Number.place] using hoffset
    simp only [if_pos htruthy]
    rfl

theorem flatMap_piece (n m : Nat) (l : List α) :
    (List.range m).flatMap (fun k => piece n (k * n) l) = l.take (m * n) := by
  induction m with
  | zero => simp
  | succ m ih =>
    rw [List.range_succ, List.flatMap_append, ih, List.flatMap_singleton, Nat.succ_mul,
      List.take_add]
    rfl

/-- Of distinct items, two pieces of one length that start at different multiples of it have none in
common. -/
theorem disjoint_piece (h : l.Nodup) (n : Nat) {k k' : Nat} (hk : k < k') :
    (piece n (k * n) l).Disjoint (piece n (k' * n) l) := by
  have hpast : k * n + n ≤ k' * n := by
    rw [← Nat.succ_mul]
    exact Nat.mul_le_mul_right n hk
  have hbefore : piece n (k * n) l ⊆ l.take (k' * n) := by
    intro x hx
    have htake : x ∈ l.take (k * n + n) := by
      rw [List.take_add]
      exact List.mem_append_right _ hx
    exact (List.take_subset_take_left l hpast) htake
  have hafter : piece n (k' * n) l ⊆ l.drop (k' * n) := List.take_subset _ _
  intro x hx hx'
  exact List.disjoint_take_drop h le_rfl (hbefore hx) (hafter hx')

end Filter

/-! ## All events -/

namespace Recorder

variable {r : Recorder} {f : Filter} {s : Session} {e : StoredEvent}

/-- The stored events of all sessions that a filter admits. -/
def scan (r : Recorder) (f : Filter) : List StoredEvent :=
  (r.sessions.flatMap Session.events).filter fun e =>
    f.admits (ownerAmong r.sessions e) (.stored e)

theorem Intact.ownerAmong_eq (h : r.Intact) (hs : s ∈ r.sessions) (he : e ∈ s.events) :
    ownerAmong r.sessions e = s.owner := by
  have hfind : r.sessions.find? (fun s => s.id.same e.session) = some s := by
    rw [((h.orderly s hs).owned e he).1]
    exact h.find?_id hs
  rw [ownerAmong, hfind]
  rfl

theorem Intact.mem_scan (h : r.Intact) :
    e ∈ r.scan f ↔ ∃ s ∈ r.sessions, e ∈ s.events ∧ f.Selects s e := by
  rw [scan, List.mem_filter, List.mem_flatMap]
  constructor
  · rintro ⟨⟨s, hs, he⟩, hadmits⟩
    rw [h.ownerAmong_eq hs he] at hadmits
    exact ⟨s, hs, he, Filter.admits_iff.1 hadmits⟩
  · rintro ⟨s, hs, he, hselects⟩
    refine ⟨⟨s, hs, he⟩, ?_⟩
    rw [h.ownerAmong_eq hs he]
    exact Filter.admits_iff.2 hselects

theorem Intact.nodup_scan (h : r.Intact) (f : Filter) : ((r.scan f).map StoredEvent.id).Nodup := by
  have hids : ((r.sessions.flatMap Session.events).map fun e => Value.text e.id).Sublist
      r.identities := by
    rw [List.map_flatMap]
    exact .flatMap_right _ fun s _ => List.sublist_cons_self _ _
  have hfound : ((r.scan f).map fun e => Value.text e.id).Nodup :=
    (h.identities_nodup.sublist hids).sublist (List.filter_sublist.map _)
  rw [← Function.comp_def, ← List.map_map] at hfound
  exact hfound.of_map _

/-- The events of the one session that a filter names are all that it can admit. -/
theorem Intact.scan_of_find? (h : r.Intact) (hset : f.session ≠ .null)
    (hs : r.find? f.session = some s) :
    r.scan f = s.events.filter fun e => f.admits s.owner (.stored e) := by
  have hmem := mem_of_find? hs
  obtain ⟨a, ha⟩ := h.numbered.id_text hmem
  have hother : ∀ owner e, f.admits owner (.stored e) → e.session.equals s.id := by
    intro owner e hadmits
    simp only [Filter.admits, Bool.and_eq_true, Filter.meets_iff] at hadmits
    have hequals : e.session.equals f.session := hadmits.1.1.1.2 hset
    rw [Value.equals, Bool.and_eq_true] at hequals ⊢
    exact ⟨Value.same_trans hequals.1 (Value.same_symm (same_of_find? hs)), hequals.2⟩
  calc r.scan f
      = ((r.sessions.flatMap Session.events).filter fun e => e.session.equals s.id).filter
          fun e => f.admits (ownerAmong r.sessions e) (.stored e) := by
        rw [List.filter_filter, scan]
        refine List.filter_congr fun e _ => ?_
        cases hadmits : f.admits (ownerAmong r.sessions e) (.stored e) with
        | false => rw [Bool.false_and]
        | true => rw [hother _ e hadmits, Bool.and_self]
    _ = s.events.filter fun e => f.admits (ownerAmong r.sessions e) (.stored e) := by
        rw [h.filter_events hmem]
    _ = s.events.filter fun e => f.admits s.owner (.stored e) := by
        refine List.filter_congr fun e he => ?_
        rw [h.ownerAmong_eq hmem he]

theorem Intact.scan_of_find?_eq_none (h : r.Intact) (hset : f.session ≠ .null)
    (hs : r.find? f.session = none) : r.scan f = [] := by
  refine List.eq_nil_iff_forall_not_mem.2 fun e he => ?_
  obtain ⟨s, hmem, hin, hselects⟩ := h.mem_scan.1 he
  have hequals := hselects.session hset
  rw [((h.orderly s hmem).owned e hin).1, Value.equals, Bool.and_eq_true] at hequals
  exact List.find?_eq_none.1 hs s hmem hequals.1

/-- **The short way finds the same**: a query for one session gives what a look at all sessions with
its filter would give, page or no page. -/
theorem Intact.query_eq_scan (h : r.Intact) (hsession : f.session.isHashable) :
    r.query f = f.page (r.scan f) := by
  by_cases hset : f.session = .null
  · have hcandidates : r.candidates f = .ok r.sessions := by
      rw [candidates, hset]
      rfl
    rw [query, hcandidates]
    rfl
  · have hcandidates : r.candidates f = .ok (r.find? f.session).toList := by
      rw [candidates, if_neg (mt Value.isNull_iff.1 hset), if_neg (by simp [hsession])]
    rw [query, hcandidates]
    cases hs : r.find? f.session with
    | none =>
      rw [h.scan_of_find?_eq_none hset hs]
      rfl
    | some s =>
      have howner : ∀ e ∈ s.events, ownerAmong [s] e = s.owner := by
        intro e he
        rw [ownerAmong, List.find?_cons_of_pos
          (by rw [((h.orderly s (mem_of_find? hs)).owned e he).1, Value.same_refl])]
        rfl
      rw [h.scan_of_find? hset hs]
      show f.page ((s.events ++ []).filter fun e => f.admits (ownerAmong [s] e) (.stored e)) = _
      rw [List.append_nil]
      refine congrArg f.page (List.filter_congr fun e he => ?_)
      rw [howner e he]

/-! ## The order of sessions -/

theorem Numbered.map_id_replace (h : r.Numbered) {t : Session} (hs : s ∈ r.sessions)
    (ht : t.id = s.id) : (r.replace t).sessions.map Session.id = r.sessions.map Session.id := by
  obtain ⟨before, after, hsplit, hreplace⟩ := sessions_replace h hs ht
  rw [hreplace, hsplit, List.map_append, List.map_append, List.map_cons, List.map_cons, ht]

end Recorder

/-- Whether a call is to start a session. -/
def Call.isStart : Call → Bool
  | start .. => true
  | _ => false

theorem Recorder.Move.map_id {r r' : Recorder} {now : Clock} {call : Call}
    (hmove : r.Move now call r') (h : r.Numbered) (hcall : call.isStart = false) :
    r'.sessions.map Session.id = r.sessions.map Session.id := by
  cases hmove with
  | start _ hstart =>
    subst hstart
    cases hcall
  | submit hs ht =>
    obtain rfl := Session.submit_ok ht
    exact h.map_id_replace (mem_of_find? hs) rfl
  | append _ hs _ => exact (h.draw _).map_id_replace (mem_of_find? hs) rfl
  | _ => rfl

namespace Service

/-- The id of the session that a call starts, if it starts one. -/
def openedBy (v : Service) (call : Clock × Call) : List Value :=
  match call.2.isStart, (v.respond (call.2.request call.1)).1 with
  | true, .ok (.session s) => [s.id]
  | _, _ => []

/-- The ids of the sessions that calls start, one after the other. -/
def openings (v : Service) : List (Clock × Call) → List Value
  | [] => []
  | call :: calls => v.openedBy call ++ (v.step call).openings calls

theorem map_id_step {v : Service} (h : v.recorder.Numbered) (call : Clock × Call) :
    (v.step call).recorder.sessions.map Session.id =
      v.recorder.sessions.map Session.id ++ v.openedBy call := by
  obtain ⟨now, call⟩ := call
  cases hcall : call.isStart with
  | false =>
    rw [(v.move_step now call).map_id h hcall, openedBy, hcall, List.append_nil]
  | true =>
    cases call with
    | start project owner address agent metadata =>
      rw [step, openedBy, respond_call_start]
      split_ifs with howner
      · exact (List.append_nil _).symm
      · cases Recorder.metadataOf metadata with
        | error f => exact (List.append_nil _).symm
        | ok metadata => exact List.map_append
    | _ => cases hcall

/-- The sessions of a recorder are in the order of their starts. -/
theorem map_id_after {v : Service} (h : v.recorder.Numbered) (calls : List (Clock × Call)) :
    (v.after calls).recorder.sessions.map Session.id =
      v.recorder.sessions.map Session.id ++ v.openings calls := by
  induction calls generalizing v with
  | nil => rw [openings, List.append_nil]; rfl
  | cons call calls ih =>
    rw [after_cons, ih (h.move (v.move_step call.1 call.2)), map_id_step h, List.append_assoc]
    rfl

/-- **Queries.** After any calls to a new recorder, let a filter have no page and name no session,
or one by an id that can be looked up. What it finds is a part of all stored events in their order,
by sessions in the order of their starts. It has no event twice, and it has exactly those that meet
the criteria. With any page in the filter, the query gives what a look at all sessions would give.
With pages of one size, the query gives consecutive pieces of what is found: no two have an event in
common, and enough of them make up all of it. -/
theorem query_selects {start : Service} (hsessions : start.recorder.sessions = [])
    (hmemos : start.recorder.memos = []) (calls : List (Clock × Call)) {f : Filter}
    (hsession : f.session.isHashable) (hlimit : f.limit = .null) (hoffset : f.offset = .null) :
    let r := (start.after calls).recorder
    ∃ found, r.query f = .ok found ∧
      r.sessions.map Session.id = start.openings calls ∧
      found.Sublist (r.sessions.flatMap Session.events) ∧
      (found.map StoredEvent.id).Nodup ∧
      (∀ e, e ∈ found ↔ ∃ s ∈ r.sessions, e ∈ s.events ∧ f.Selects s e) ∧
      (∀ limit offset, r.query { f with limit, offset } =
        Filter.page { f with limit, offset } (r.scan { f with limit, offset })) ∧
      ∀ n : Nat, 1 ≤ n →
        (∀ k : Nat, r.query { f with limit := .int n, offset := .int ↑(k * n) } =
          .ok (Filter.piece n (k * n) found)) ∧
        (∀ k k', k < k' →
          (Filter.piece n (k * n) found).Disjoint (Filter.piece n (k' * n) found)) ∧
        ∀ m, found.length ≤ m * n →
          (List.range m).flatMap (fun k => Filter.piece n (k * n) found) = found := by
  intro r
  have h : r.Intact := intact_after hsessions hmemos calls
  have hnodup := h.nodup_scan f
  refine ⟨r.scan f, ?found, ?order, List.filter_sublist, hnodup, fun e => h.mem_scan, ?scan, ?pages⟩
  case found => rw [h.query_eq_scan hsession, Filter.page_of_unset hlimit hoffset]
  case order =>
    have hnumbered : start.recorder.Numbered := numbered_after hsessions []
    rw [map_id_after hnumbered, hsessions, List.map_nil, List.nil_append]
  case scan =>
    intro limit offset
    exact h.query_eq_scan hsession
  case pages =>
    intro n _
    refine ⟨?_, ?_, ?_⟩
    · intro k
      rw [h.query_eq_scan (f := { f with limit := .int n, offset := .int ↑(k * n) }) hsession]
      -- what is admitted does not depend on the page
      exact Filter.page_eq_piece f n (k * n) (r.scan f)
    · intro k k' hk
      exact Filter.disjoint_piece hnodup.of_map n hk
    · intro m hm
      rw [Filter.flatMap_piece, List.take_of_length_le hm]

/-- After a late batch, the key presses of its session, one at a time. -/
theorem query_selects_lateBatch :
    let r := (tally.after (opening :: lateBatch)).recorder
    let f : Filter := { session := firstId, kinds := some [.keydown] }
    tally.recorder.sessions = [] ∧ tally.recorder.memos = [] ∧ f.session.isHashable ∧
      ∃ found, r.query f = .ok found ∧
        (∀ e, e ∈ found ↔ ∃ s ∈ r.sessions, e ∈ s.events ∧ f.Selects s e) ∧
        r.query { f with limit := .int 1, offset := .int 1 } = .ok (Filter.piece 1 1 found) ∧
        (List.range found.length).flatMap (fun k => Filter.piece 1 (k * 1) found) = found := by
  intro r f
  obtain ⟨found, hfound, -, -, -, hselects, -, hpages⟩ :=
    @query_selects tally rfl rfl (opening :: lateBatch) f rfl rfl rfl
  obtain ⟨hpage, -, hall⟩ := hpages 1 le_rfl
  exact ⟨rfl, rfl, rfl, found, hfound, hselects, hpage 1, hall _ (Nat.mul_one _).ge⟩

end Service

end TypingTrace
