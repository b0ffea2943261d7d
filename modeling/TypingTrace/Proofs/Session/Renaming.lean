import Mathlib.Data.List.Forall2
import TypingTrace.Proofs.Session.Address

/-!
# Sessions and answers up to the names of things

Two runs give different identities to what corresponds in them. A table of names pairs an identity
of the one run with that of the other, and two events, sessions or answers are renamed by a table
if they are equal but for the identities in them, and these are paired in the table.

Everything that is computed from a session without a look at identities keeps this: a submission,
a batch that is merged into the events (`Session.Renamed.append`, which adds the new identities to
the table), a selection of events, a page of them, the statistics, and what calculators are given.
-/

namespace TypingTrace

open Time

variable {names : List (String × String)}

/-- The identities that two runs give out next, one beside the other. -/
def namesAfter (drawn drawn' count : Nat) : List (String × String) :=
  (List.range count).map fun i => (identity (drawn + i + 1), identity (drawn' + i + 1))

theorem map_fst_namesAfter (drawn drawn' count : Nat) :
    (namesAfter drawn drawn' count).map Prod.fst = identitiesAfter drawn count := by
  rw [namesAfter, List.map_map]
  rfl

theorem map_snd_namesAfter (drawn drawn' count : Nat) :
    (namesAfter drawn drawn' count).map Prod.snd = identitiesAfter drawn' count := by
  rw [namesAfter, List.map_map]
  rfl

/-! ## Renaming -/

/-- Two ids of which a table pairs the names. -/
def Value.Renamed (names : List (String × String)) (v v' : Value) : Prop :=
  ∃ p ∈ names, v.same (.text p.1) ∧ v'.same (.text p.2)

/-- Events that differ in their identities alone. -/
structure StoredEvent.Renamed (names : List (String × String)) (e e' : StoredEvent) : Prop where
  id : (e.id, e'.id) ∈ names
  session : e.session.Renamed names e'.session
  interaction : e'.interaction = e.interaction
  project : e'.project = e.project
  accepted : e'.accepted = e.accepted

/-- A session without its id and its events. -/
def Session.bare (s : Session) : Session := { s with id := .null, events := [] }

/-- Sessions that differ in the identities in them alone. -/
structure Session.Renamed (names : List (String × String)) (s s' : Session) : Prop where
  id : s.id.Renamed names s'.id
  events : List.Forall₂ (StoredEvent.Renamed names) s.events s'.events
  bare : s'.bare = s.bare

inductive Fault.Renamed (names : List (String × String)) : Fault → Fault → Prop
  | same (f : Fault) : Renamed names f f
  | sessionNotFound {id id' : Value} : id.Renamed names id' →
      Renamed names (.sessionNotFound id) (.sessionNotFound id')
  | projectMismatch {id id' : Value} (project : Value) : id.Renamed names id' →
      Renamed names (.projectMismatch id project) (.projectMismatch id' project)
  | alreadySubmitted {id id' : Value} : id.Renamed names id' →
      Renamed names (.alreadySubmitted id) (.alreadySubmitted id')

inductive Response.Renamed (names : List (String × String)) : Response → Response → Prop
  | session {s s' : Session} : s.Renamed names s' → Renamed names (.session s) (.session s')
  | accepted {l l' : List StoredEvent} : List.Forall₂ (StoredEvent.Renamed names) l l' →
      Renamed names (.accepted l) (.accepted l')
  | analytics (result : Run) : Renamed names (.analytics result) (.analytics result)
  | token (n : Nat) : Renamed names (.token n) (.token n)
  | found {l l' : List StoredEvent} : List.Forall₂ (StoredEvent.Renamed names) l l' →
      Renamed names (.found l) (.found l')
  | statistics {id id' : Value} (fields : Fields) : id.Renamed names id' →
      Renamed names (.statistics (("id", id) :: fields)) (.statistics (("id", id') :: fields))

/-- Answers of one kind: both related results, or both the same refusal but for identities. -/
inductive Alike {α β : Type} (names : List (String × String)) (R : α → β → Prop) :
    Except Fault α → Except Fault β → Prop
  | ok {a : α} {b : β} : R a b → Alike names R (.ok a) (.ok b)
  | error {f f' : Fault} : f.Renamed names f' → Alike names R (.error f) (.error f')

theorem Alike.map {α β γ δ : Type} {R : α → β → Prop} {S : γ → δ → Prop} {x : Except Fault α}
    {y : Except Fault β} {f : α → γ} {g : β → δ} (h : Alike names R x y)
    (hmap : ∀ a b, R a b → S (f a) (g b)) : Alike names S (x.map f) (y.map g) := by
  cases h with
  | ok hab => exact .ok (hmap _ _ hab)
  | error hf => exact .error hf

/-! ### Longer tables -/

section

variable {longer : List (String × String)} (hsub : names ⊆ longer)

include hsub

theorem Value.Renamed.mono {v v' : Value} (h : v.Renamed names v') : v.Renamed longer v' := by
  obtain ⟨p, hp, hv, hv'⟩ := h
  exact ⟨p, hsub hp, hv, hv'⟩

theorem StoredEvent.Renamed.mono {e e' : StoredEvent} (h : e.Renamed names e') :
    e.Renamed longer e' :=
  ⟨hsub h.id, h.session.mono hsub, h.interaction, h.project, h.accepted⟩

theorem forall₂_renamed_mono {l l' : List StoredEvent}
    (h : List.Forall₂ (StoredEvent.Renamed names) l l') :
    List.Forall₂ (StoredEvent.Renamed longer) l l' := h.imp fun _ _ he => he.mono hsub

theorem Session.Renamed.mono {s s' : Session} (h : s.Renamed names s') : s.Renamed longer s' :=
  ⟨h.id.mono hsub, forall₂_renamed_mono hsub h.events, h.bare⟩

theorem Fault.Renamed.mono {f f' : Fault} (h : f.Renamed names f') : f.Renamed longer f' := by
  cases h with
  | same => exact .same f
  | sessionNotFound hid => exact .sessionNotFound (hid.mono hsub)
  | projectMismatch project hid => exact .projectMismatch project (hid.mono hsub)
  | alreadySubmitted hid => exact .alreadySubmitted (hid.mono hsub)

theorem Response.Renamed.mono {x x' : Response} (h : x.Renamed names x') :
    x.Renamed longer x' := by
  cases h with
  | session hs => exact .session (hs.mono hsub)
  | accepted hl => exact .accepted (forall₂_renamed_mono hsub hl)
  | analytics => exact .analytics _
  | token => exact .token _
  | found hl => exact .found (forall₂_renamed_mono hsub hl)
  | statistics fields hid => exact .statistics fields (hid.mono hsub)

theorem alike_mono {x x' : Except Fault Response}
    (h : Alike names (Response.Renamed names) x x') :
    Alike longer (Response.Renamed longer) x x' := by
  cases h with
  | ok hx => exact .ok (hx.mono hsub)
  | error hf => exact .error (hf.mono hsub)

end

/-! ## Events -/

theorem forall₂_merge {α β : Type} {R : α → β → Prop} {le : α → α → Bool} {le' : β → β → Bool}
    (hle : ∀ a a' b b', R a a' → R b b' → le a b = le' a' b') {l m : List α} {l' m' : List β}
    (hl : List.Forall₂ R l l') (hm : List.Forall₂ R m m') :
    List.Forall₂ R (l.merge m le) (l'.merge m' le') := by
  induction hl generalizing m m' with
  | nil => rwa [List.nil_merge, List.nil_merge]
  | @cons a a' l l' ha hl ih =>
    induction hm with
    | nil =>
      rw [List.merge_right, List.merge_right]
      exact .cons ha hl
    | @cons b b' m m' hb hm ihm =>
      rw [List.cons_merge_cons, List.cons_merge_cons, hle a a' b b' ha hb]
      split_ifs
      · exact .cons ha (ih (.cons hb hm))
      · exact .cons hb ihm

theorem map_interaction_of_renamed {l l' : List StoredEvent}
    (h : List.Forall₂ (StoredEvent.Renamed names) l l') :
    l'.map StoredEvent.interaction = l.map StoredEvent.interaction := by
  induction h with
  | nil => rfl
  | cons he _ ih => rw [List.map_cons, List.map_cons, he.interaction, ih]

namespace Session

variable {s s' : Session}

theorem Renamed.eq_of_bare {α : Type} (h : s.Renamed names s') (f : Session → α)
    (hf : ∀ t : Session, f t.bare = f t) : f s' = f s := by
  rw [← hf s', h.bare, hf s]

/-- A batch becomes the same events in both sessions, but for the identities. -/
theorem Renamed.acceptAll (h : s.Renamed names s') (now : Stamp) (drawn drawn' : Nat)
    (batch : List Interaction) :
    List.Forall₂ (StoredEvent.Renamed (names ++ namesAfter drawn drawn' batch.length))
      (s.acceptAll now drawn batch) (s'.acceptAll now drawn' batch) := by
  have hproject : s'.project = s.project := h.eq_of_bare Session.project fun _ => rfl
  have hid := h.id.mono (List.subset_append_left names (namesAfter drawn drawn' batch.length))
  rw [Session.acceptAll, Session.acceptAll, List.forall₂_map_left_iff, List.forall₂_map_right_iff,
    List.forall₂_same]
  rintro ⟨e, i⟩ hmem
  have hi : i < batch.length := by
    simpa [inOrder] using List.snd_lt_of_mem_zipIdx hmem
  have hname : (identity (drawn + i + 1), identity (drawn' + i + 1)) ∈
      namesAfter drawn drawn' batch.length :=
    List.mem_map.2 ⟨i, List.mem_range.2 hi, rfl⟩
  exact ⟨List.mem_append_right _ hname, hid, rfl, hproject, rfl⟩

theorem Renamed.append (h : s.Renamed names s') (now : Stamp) (drawn drawn' : Nat)
    (batch : List Interaction) :
    (s.append now drawn batch).2.Renamed (names ++ namesAfter drawn drawn' batch.length)
      (s'.append now drawn' batch).2 := by
  have hmono := h.mono (List.subset_append_left names (namesAfter drawn drawn' batch.length))
  refine ⟨hmono.id, forall₂_merge ?_ hmono.events (h.acceptAll now drawn drawn' batch), ?_⟩
  · intro a a' b b' ha hb
    show a.interaction.time.le b.interaction.time = a'.interaction.time.le b'.interaction.time
    rw [ha.interaction, hb.interaction]
  · exact congrArg (fun t : Session => { t with
      version := if batch.isEmpty then t.version else t.version + 1 }) h.bare

theorem Renamed.submit (h : s.Renamed names s') (now : Stamp) :
    Alike names (Renamed names) (s.submit now) (s'.submit now) := by
  have hsubmitted : s'.submitted = s.submitted := h.eq_of_bare Session.submitted fun _ => rfl
  unfold Session.submit
  rw [hsubmitted]
  split_ifs
  · exact .error (.alreadySubmitted h.id)
  · exact .ok ⟨h.id, h.events, congrArg (fun t : Session => { t with
      submitted := .bool true, submission := some now, stop := some (t.stop.getD now) }) h.bare⟩

theorem Renamed.sequence (h : s.Renamed names s') : s'.sequence = s.sequence := by
  have hversion : s'.version = s.version := h.eq_of_bare Session.version fun _ => rfl
  have hempty : s'.events.isEmpty = s.events.isEmpty := by
    rw [← List.isEmpty_map, map_interaction_of_renamed h.events, List.isEmpty_map]
  rw [Session.sequence, Session.sequence, hempty, hversion]

theorem Renamed.observe_entries (h : s.Renamed names s') :
    (Recorder.entries s').map Entry.observe = (Recorder.entries s).map Entry.observe := by
  rw [Recorder.observe_entries, Recorder.observe_entries, map_interaction_of_renamed h.events]

theorem Renamed.finish (h : s.Renamed names s') : s'.finish = s.finish := by
  have hlast : ∀ l : List StoredEvent, l.getLast?.map StoredEvent.time =
      (l.map StoredEvent.interaction).getLast?.map Interaction.time := by
    intro l
    rw [List.getLast?_map, Option.map_map]
    rfl
  have hstop : s'.stop = s.stop := h.eq_of_bare Session.stop fun _ => rfl
  have hstart : s'.start = s.start := h.eq_of_bare Session.start fun _ => rfl
  rw [Session.finish, Session.finish, hstop, hstart, hlast, hlast,
    map_interaction_of_renamed h.events]

theorem Renamed.statistics (h : s.Renamed names s') :
    ∃ fields, s.statistics = ("id", s.id) :: fields ∧ s'.statistics = ("id", s'.id) :: fields := by
  refine ⟨_, rfl, ?_⟩
  have hbare := h.bare
  simp only [Session.bare, Session.mk.injEq] at hbare
  have hduration : s'.duration = s.duration := by
    rw [Session.duration, Session.duration, h.finish, hbare.2.2.2.1]
  simp [Session.statistics, Session.toFields, hbare, hduration, h.events.length_eq]

end Session

/-! ## Selections -/

/-- Criteria that do not speak of sessions select the same from events that are renamed. -/
theorem Filter.forall₂_page {f f' : Filter} (hlimit : f'.limit = f.limit)
    (hoffset : f'.offset = f.offset) {l l' : List StoredEvent}
    (h : List.Forall₂ (StoredEvent.Renamed names) l l') :
    Alike names (List.Forall₂ (StoredEvent.Renamed names)) (f.page l) (f'.page l') := by
  unfold page
  rw [hlimit, hoffset]
  cases (if f.offset.truthy then bound? f.offset else some 0) with
  | none => exact .error (.same _)
  | some offset =>
    have hdrop := List.forall₂_drop offset h
    dsimp only
    split_ifs
    · exact .ok hdrop
    · cases bound? f.limit with
      | none => exact .error (.same _)
      | some limit => exact .ok (List.forall₂_take limit hdrop)

namespace Filter

variable {names : List (String × String)}

/-- The criterion of a session does not matter to the events of that session. -/
theorem filter_admits {f : Filter} {l : List StoredEvent}
    (h : ∀ e ∈ l, e.session.equals f.session) (owner : Value) :
    l.filter (fun e => f.admits owner (.stored e)) =
      l.filter fun e => { f with session := .null }.admits owner (.stored e) := by
  refine List.filter_congr fun e he => ?_
  have hmeets : meets f.session (Row.stored e).session = true := by
    rw [meets, Bool.or_eq_true]
    exact .inr (h e he)
  have hnull : meets .null (Row.stored e).session = true := rfl
  rw [admits, admits, hmeets, hnull]
  rfl

theorem admits_renamed {e e' : StoredEvent} (h : e.Renamed names e') (f : Filter) (owner : Value) :
    { f with session := .null }.admits owner (.stored e') =
      { f with session := .null }.admits owner (.stored e) := by
  have hproject : (Row.stored e').project = (Row.stored e).project := h.project
  have htime : (Row.stored e').time = (Row.stored e).time := congrArg Interaction.time h.interaction
  have hkind : (Row.stored e').kind = (Row.stored e).kind := congrArg Interaction.kind h.interaction
  rw [admits, admits, hproject, htime, hkind]
  rfl

end Filter

/-- Filters that name two sessions select the same from them if these are renamed. -/
theorem Recorder.Intact.forall₂_selected {names : List (String × String)} {a a' : String}
    {r r' : Recorder} (hr : r.Intact) (hr' : r'.Intact) {f : Filter} {id' : Value} {s s' : Session}
    (hs : r.find? f.session = some s) (hs' : r'.find? id' = some s')
    (hid : f.session.same (.text a)) (hid' : id'.same (.text a')) (h : s.Renamed names s') :
    List.Forall₂ (StoredEvent.Renamed names)
      (s.events.filter fun e => f.admits s.owner (.stored e))
      (s'.events.filter fun e => { f with session := id' }.admits s'.owner (.stored e)) := by
  have howner : s'.owner = s.owner := h.eq_of_bare Session.owner fun _ => rfl
  have hequals : ∀ e ∈ s.events, e.session.equals f.session := by
    intro e he
    rw [((hr.orderly s (mem_of_find? hs)).owned e he).1]
    exact Value.equals_of_same_text (Value.same_trans (same_of_find? hs) hid) hid
  have hequals' : ∀ e ∈ s'.events, e.session.equals id' := by
    intro e he
    rw [((hr'.orderly s' (mem_of_find? hs')).owned e he).1]
    exact Value.equals_of_same_text (Value.same_trans (same_of_find? hs') hid') hid'
  rw [Filter.filter_admits hequals, Filter.filter_admits (f := { f with session := id' }) hequals',
    howner]
  refine List.rel_filter ?_ h.events
  intro e e' he
  exact Bool.eq_iff_iff.1 (Filter.admits_renamed he f s.owner).symm

end TypingTrace
