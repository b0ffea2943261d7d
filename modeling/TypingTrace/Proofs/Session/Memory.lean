import TypingTrace.Proofs.Session.Move

/-!
# What the memos of a recorder keep

**Theorem (`respond_analytics_of_recalls`).** Suppose that, with every engine the recorder can
have, the values of a run are a function of the events. Then, whatever calls a recorder has
answered, that function of the present events of a session gives the values of its analytics, asked
for with any token.

It is enough to see that no memo keeps the values of other events. The invariant `Recalls` says of
every memo that it belongs to a session, that it was not computed from a sequence of events yet to
come, and that it is right if it was computed from the present one. A batch gives its session a new
sequence, of which no memo can know yet; only the empty sequence comes back, and it is the same in
every session.
-/

namespace TypingTrace

open Time

namespace Recorder

/-! ## The invariant -/

/-- Engines all of whose runs have given values and leave such an engine again. -/
def Computes (good : Engine → Prop) (registry : Option Registry)
    (values : List Entry → List (Value × Value)) : Prop :=
  ∀ e, good e → ∀ (now : Clock) (events : List Entry) (d : Log.Disk),
    (e.run now events registry d).1.values = values events ∧
      good (e.run now events registry d).2.1

/-- A memo that was not computed from events of `s` yet to come, and that keeps the given values if
it was computed from the present ones. -/
def TrueOf (values : List Entry → List (Value × Value)) (s : Session) (m : Memo Nat Run) : Prop :=
  ∀ key token result, m.last = some (key, token, result) →
    key ≤ s.version ∧ (key = s.sequence → result.values = values (entries s))

structure Recalls (good : Engine → Prop) (registry : Option Registry)
    (values : List Entry → List (Value × Value)) (r : Recorder) : Prop where
  engine : good r.engine
  registry : r.registry = registry
  memos : ∀ id m, (id, m) ∈ r.memos → ∃ s, r.find? id = some s ∧ TrueOf values s m

variable {good : Engine → Prop} {registry : Option Registry}
variable {values : List Entry → List (Value × Value)}
variable {r : Recorder} {s t : Session} {m : Memo Nat Run}

theorem sequence_le (s : Session) : s.sequence ≤ s.version := by
  unfold Session.sequence
  split_ifs
  · exact Nat.zero_le _
  · exact Nat.le_refl _

theorem trueOf_empty (values : List Entry → List (Value × Value)) (s : Session) :
    TrueOf values s {} := by
  intro key token result h
  cases h

/-- What is true of a session is true of one with the same events. -/
theorem TrueOf.congr (h : TrueOf values s m) (hevents : t.events = s.events)
    (hversion : t.version = s.version) : TrueOf values t m := by
  intro key token result hlast
  obtain ⟨hle, hvalues⟩ := h key token result hlast
  refine ⟨hversion ▸ hle, fun hkey => ?_⟩
  rw [hvalues (by rw [hkey, Session.sequence, Session.sequence, hevents, hversion])]
  rw [entries, entries, hevents]

theorem TrueOf.append (h : TrueOf values s m) (now : Stamp) (drawn : Nat)
    (batch : List Interaction) : TrueOf values (s.append now drawn batch).2 m := by
  intro key token result hlast
  obtain ⟨hle, hvalues⟩ := h key token result hlast
  by_cases hbatch : batch = []
  · rw [hbatch, Session.append_nil]
    exact ⟨hle, hvalues⟩
  have hversion : (s.append now drawn batch).2.version = s.version + 1 := by
    simp [Session.append, hbatch]
  refine ⟨hversion ▸ Nat.le_succ_of_le hle, fun hkey => ?_⟩
  by_cases hempty : (s.append now drawn batch).2.events.isEmpty
  · have hevents : s.events = [] := by
      have hlength := congrArg List.length (List.isEmpty_iff.1 hempty)
      simp [Session.append, Session.merge, List.length_merge] at hlength
      exact hlength.1
    rw [Session.sequence, if_pos hempty] at hkey
    rw [hvalues (by simp [hkey, Session.sequence, hevents]), entries, entries, hevents,
      List.isEmpty_iff.1 hempty]
  · rw [Session.sequence, if_neg hempty, hversion] at hkey
    omega

namespace Recalls

theorem replace (h : Recalls good registry values r) {id : Value} (hs : r.find? id = some s)
    (ht : t.id = s.id) (htrue : ∀ m, TrueOf values s m → TrueOf values t m) :
    Recalls good registry values (r.replace t) where
  engine := h.engine
  registry := h.registry
  memos id' m hm := by
    obtain ⟨u, hu, hum⟩ := h.memos id' m hm
    rcases find?_replace_cases hs ht hu with ⟨rfl, hfind⟩ | hfind
    · exact ⟨t, hfind, htrue m hum⟩
    · exact ⟨u, hfind, hum⟩

theorem withMemo (h : Recalls good registry values r) {id : Value} (hs : r.find? id = some s)
    (hm : TrueOf values s m) : Recalls good registry values (r.withMemo id m) where
  engine := h.engine
  registry := h.registry
  memos id' m' hmem := by
    rcases List.mem_cons.1 hmem with heq | hmem
    · obtain ⟨rfl, rfl⟩ := Prod.mk.inj heq
      exact ⟨s, hs, hm⟩
    · exact h.memos id' m' (List.mem_of_mem_filter hmem)

theorem withSession (h : Recalls good registry values r) (s : Session) :
    Recalls good registry values (r.withSession s) where
  engine := h.engine
  registry := h.registry
  memos id m hm := by
    obtain ⟨u, hu, hum⟩ := h.memos id m hm
    exact ⟨u, by rw [find?_withSession, hu, Option.some_or], hum⟩

theorem memoOf (h : Recalls good registry values r) {id : Value} (hs : r.find? id = some s) :
    TrueOf values s (r.memoOf id) := by
  rcases memoOf_eq (rfl : r.memoOf id = _) with heq | ⟨id', hsame, hmem⟩
  · rw [heq]
    exact trueOf_empty values s
  · obtain ⟨u, hu, hum⟩ := h.memos id' _ hmem
    rw [r.find?_congr hsame, hs] at hu
    obtain rfl := Option.some.inj hu
    exact hum

/-! ## Analytics -/

/-- The values of a session's analytics are right, and so is the memo that is kept of them. -/
theorem analyse (h : Recalls good registry values r) (hgood : Computes good registry values)
    {now : Clock} {id : Value} (hs : r.find? id = some s) {token : Option Value} {result : Run}
    {engine : Engine} {before after : Log.Disk × List String}
    (hrun : r.analyse now id s token (r.engine, before) = ((result, m), engine, after)) :
    good engine ∧ result.values = values (entries s) ∧ TrueOf values s m := by
  have hmemo := h.memoOf hs
  unfold Recorder.analyse Memo.compute at hrun
  cases hkept : (r.memoOf id).kept s.sequence token with
  | some kept =>
    rw [hkept] at hrun
    have heq : ((kept, r.memoOf id), r.engine, before) = ((result, m), engine, after) := hrun
    cases heq
    obtain ⟨t, hlast⟩ := Memo.last_of_kept hkept
    exact ⟨h.engine, (hmemo _ t _ hlast).2 rfl, hmemo⟩
  | none =>
    rw [hkept] at hrun
    let out := r.engine.run now (entries s) r.registry before.1
    have heq : ((out.1, (r.memoOf id).keep s.sequence token out.1),
        out.2.1, out.2.2.1, before.2 ++ out.2.2.2) = ((result, m), engine, after) := hrun
    cases heq
    obtain ⟨hvalues, hnext⟩ : out.1.values = values (entries s) ∧ good out.2.1 := by
      have hout := hgood r.engine h.engine now (entries s) before.1
      rwa [← h.registry] at hout
    refine ⟨hnext, hvalues, ?_⟩
    rintro key t result ⟨⟩
    exact ⟨sequence_le s, fun _ => hvalues⟩

theorem move (h : Recalls good registry values r) (hgood : Computes good registry values)
    {r' : Recorder} {now : Clock} {call : Call} (hmove : r.Move now call r') :
    Recalls good registry values r' := by
  cases hmove with
  | draw count => exact ⟨h.engine, h.registry, h.memos⟩
  | start metadata _ => exact h.withSession _
  | submit hs ht =>
    obtain rfl := Session.submit_ok ht
    exact h.replace hs rfl fun m hm => hm.congr rfl rfl
  | @append batch s _ hs =>
    have hdrawn : Recalls good registry values { r with drawn := r.drawn + batch.events.length } :=
      ⟨h.engine, h.registry, h.memos⟩
    exact hdrawn.replace hs rfl fun m hm => hm.append now.stamp r.drawn batch.events
  | @analyse _ _ _ _ _ engine _ _ hs hrun =>
    obtain ⟨hengine, -, hmemo⟩ := h.analyse hgood hs hrun
    have hnext : Recalls good registry values { r with engine } :=
      ⟨hengine, h.registry, h.memos⟩
    exact hnext.withMemo hs hmemo
  | reset hs => exact h.withMemo hs (h.memoOf hs)

end Recalls

end Recorder

namespace Service

variable {good : Engine → Prop} {registry : Option Registry}
variable {values : List Entry → List (Value × Value)}

theorem recalls_after (hgood : Recorder.Computes good registry values) {start : Service}
    (hengine : good start.recorder.engine) (hregistry : start.recorder.registry = registry)
    (hmemos : start.recorder.memos = []) (calls : List (Clock × Call)) :
    Recorder.Recalls good registry values (start.after calls).recorder := by
  refine after_of_move (fun _ _ _ _ _ h => h.move hgood) ⟨hengine, hregistry, ?_⟩
  simp [hmemos]

/-- The values of the analytics of a session are those of its present events. -/
theorem respond_analytics_of_recalls {v : Service}
    (h : Recorder.Recalls good registry values v.recorder)
    (hgood : Recorder.Computes good registry values) {id : Value} {s : Session}
    (hs : v.recorder.session id = .ok s) (now : Clock) (token : Option Value) :
    ∃ result w, v.respond ((Call.analytics id token).request now) =
        (.ok (.analytics result), w) ∧ result.values = values (Recorder.entries s) := by
  have hanswer := v.respond_analytics now id token
  rw [hs] at hanswer
  obtain ⟨-, hvalues, -⟩ := h.analyse hgood (Recorder.session_ok hs) rfl
  exact ⟨_, _, respond_bind_ok hanswer _, hvalues⟩

end Service

end TypingTrace
