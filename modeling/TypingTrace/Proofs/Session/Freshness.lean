import TypingTrace.Proofs.Session.Memory

/-!
# Analytics are never stale

**Theorem (`analytics_fresh`).** Whatever calls a recorder has answered, the analytics of a session
have the values that a fresh run over the present events of that session has, with any token.

Where an engine has no deadline its values are a function of the events, whatever its calculators
do. So the memos of the recorder keep what a run over the present events would give (`Recalls`), and
the analytics that are answered from a memo are as fresh as those that are computed.
-/

namespace TypingTrace

open Time

namespace Recorder

/-! ## The invariant -/

/-- The values of a fresh run over the events of a session. -/
def freshValues (r : Recorder) (s : Session) : List (Value × Value) :=
  r.engine.valuesOn (entries s) (r.registry.getD r.engine.registry)

/-- A memo that was not computed from events of `s` yet to come, and that keeps the right values if
it was computed from the present ones. -/
def FreshFor (start : Recorder) (s : Session) (m : Memo Nat Run) : Prop :=
  ∀ key token result, m.last = some (key, token, result) →
    key ≤ s.version ∧ (key = s.sequence → result.values = start.freshValues s)

structure Coherent (start r : Recorder) : Prop where
  settings : Engine.SameSettings start.engine r.engine
  registry : r.registry = start.registry
  memos : ∀ id m, (id, m) ∈ r.memos → ∃ s, r.find? id = some s ∧ start.FreshFor s m

variable {start r : Recorder} {s : Session} {m : Memo Nat Run}

/-- Without a deadline, the engines of the same settings compute the same values. -/
theorem computes_freshValues (hdeadline : start.engine.timeout.truthy = false) :
    Computes (Engine.SameSettings start.engine) start.registry fun events =>
      start.engine.valuesOn events (start.registry.getD start.engine.registry) := by
  intro e he now events d
  refine ⟨?_, he.trans (Engine.sameSettings_run e now events start.registry d)⟩
  rw [Engine.values_run (he.timeout ▸ hdeadline), he.valuesOn, he.registry]

theorem Coherent.recalls (h : Coherent start r) :
    Recalls (Engine.SameSettings start.engine) start.registry (fun events =>
      start.engine.valuesOn events (start.registry.getD start.engine.registry)) r :=
  ⟨h.settings, h.registry, h.memos⟩

/-- The values of a session's analytics are right, and so is the memo that is kept of them. -/
theorem Coherent.analyse (h : Coherent start r) (hdeadline : start.engine.timeout.truthy = false)
    {now : Clock} {id : Value} (hs : r.find? id = some s) {token : Option Value} {result : Run}
    {engine : Engine} {before after : Log.Disk × List String}
    (hrun : r.analyse now id s token (r.engine, before) = ((result, m), engine, after)) :
    Engine.SameSettings start.engine engine ∧ result.values = start.freshValues s ∧
      start.FreshFor s m :=
  h.recalls.analyse (computes_freshValues hdeadline) hs hrun

end Recorder

namespace Service

theorem coherent_after {start : Service} (hmemos : start.recorder.memos = [])
    (hdeadline : start.recorder.engine.timeout.truthy = false) (calls : List (Clock × Call)) :
    start.recorder.Coherent (start.after calls).recorder := by
  have hgood := Recorder.computes_freshValues hdeadline
  have h := recalls_after hgood (.refl _) rfl hmemos calls
  exact ⟨h.engine, h.registry, h.memos⟩

/-- **Freshness.** After any calls to a recorder whose engine has no deadline, the analytics of a
session that it has, asked for with any token, are those that an engine of the same settings
computes from the events of that session, whatever that engine did before. For a session that it
does not have there are none, and nothing changes. -/
theorem analytics_fresh {start : Service} (hmemos : start.recorder.memos = [])
    (hdeadline : start.recorder.engine.timeout.truthy = false) (calls : List (Clock × Call))
    (now : Clock) (id : Value) (token : Option Value) :
    let v := start.after calls
    let answer := v.respond ((Call.analytics id token).request now)
    (∀ f, v.recorder.session id = .error f → answer = (.error f, v)) ∧
      ∀ s, v.recorder.session id = .ok s → ∃ result w, answer = (.ok (.analytics result), w) ∧
        ∀ e now' disk, Engine.SameSettings start.recorder.engine e →
          result.values =
            (e.run now' (Recorder.entries s) start.recorder.registry disk).1.values := by
  intro v answer
  have h : start.recorder.Coherent v.recorder := coherent_after hmemos hdeadline calls
  have hanswer := v.respond_analytics now id token
  constructor
  · intro f hf
    rw [hf] at hanswer
    exact respond_bind_error hanswer _
  · intro s hs
    rw [hs] at hanswer
    obtain ⟨-, hvalues, -⟩ := h.analyse hdeadline (Recorder.session_ok hs) rfl
    refine ⟨_, _, respond_bind_ok hanswer _, ?_⟩
    intro e now' disk he
    rw [Engine.values_run (he.timeout ▸ hdeadline), he.valuesOn, he.registry]
    exact hvalues

/-! ### A late batch -/

/-- The first session is counted, submitted and counted again, and then an event arrives late. -/
def lateBatch : List (Clock × Call) := [
  (⟨2⟩, .analytics firstId none), (⟨3⟩, .submit firstId .null),
  (⟨4⟩, .analytics firstId (some (.int 0))),
  (⟨5⟩, .ingestEntries firstId [.event (.plain { kind := .keydown, time := .ofInstant 5 })] .null)]

theorem analytics_fresh_lateBatch :
    tally.recorder.memos = [] ∧ tally.recorder.engine.timeout.truthy = false ∧
      ∃ s result w, (tally.after (opening :: lateBatch)).recorder.session firstId = .ok s ∧
        (tally.after (opening :: lateBatch)).respond
            ((Call.analytics firstId (some (.int 0))).request ⟨6⟩) =
          (.ok (.analytics result), w) ∧
        result.values = (tally.recorder.engine.run ⟨7⟩ (Recorder.entries s) none {}).1.values := by
  obtain ⟨s, hs⟩ := exists_firstId lateBatch
  have hsession := Recorder.session_of_find? rfl hs
  obtain ⟨-, hfresh⟩ := @analytics_fresh tally rfl rfl (opening :: lateBatch) ⟨6⟩ firstId
    (some (.int 0))
  obtain ⟨result, w, hanswer, hvalues⟩ := hfresh s hsession
  exact ⟨rfl, rfl, s, result, w, hsession, hanswer, hvalues _ _ _ (.refl _)⟩

end Service

end TypingTrace
