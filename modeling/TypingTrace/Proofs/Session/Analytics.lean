import TypingTrace.Proofs.Metric.Observed
import TypingTrace.Proofs.Session.Memory

/-!
# Analytics of the typing metrics

**Theorem (`respond_analytics_of_isNew`).** Whatever calls a recorder of the typing metrics has
answered since it was new, the values of its analytics are those that its engine computes from the
present events of the session, by calling each calculator as if it were the first.

The pool of workers is the only part of an engine that runs change and that values depend on. It is
not started in a new recorder, and the typing metrics never keep a worker of it.
-/

namespace TypingTrace

open Time

/-- An engine that has only run calculators that finish in time since its settings were those of
another one. -/
structure Engine.IsReady (start e : Engine) : Prop where
  settings : SameSettings start e
  idle : e.IsIdle e.pool

namespace Recorder

/-- A recorder of the typing metrics before its first call. -/
structure IsNew (t : Thresholds) (r : Recorder) : Prop where
  sessions : r.sessions = []
  memos : r.memos = []
  pool : r.engine.pool = none
  metrics : r.registry.getD r.engine.registry = typingRegistry t

variable {t : Thresholds} {r : Recorder}

/-- The settings give a new recorder of the typing metrics, unless a registry is given. -/
theorem isNew_ofSettings {s : Settings} {defaultValue : Value} {now : Clock}
    (h : ofSettings s none defaultValue now = .ok r) : r.IsNew s.thresholds := by
  unfold ofSettings Engine.ofSettings at h
  cases hlog : FailureLog.ofSettings s now with
  | error f =>
    rw [hlog] at h
    cases h
  | ok log =>
    rw [hlog] at h
    obtain rfl := Except.ok.inj h
    exact ⟨rfl, rfl, rfl, rfl⟩

theorem IsNew.isReady (h : r.IsNew t) : r.engine.IsReady r.engine :=
  ⟨.refl _, h.pool ▸ Engine.isIdle_none _⟩

theorem IsNew.computes (h : r.IsNew t) :
    Computes r.engine.IsReady r.registry (r.engine.firstValues (typingRegistry t)) := by
  intro e he now events d
  have hmetrics : r.registry.getD e.registry = typingRegistry t := by
    rw [he.settings.registry]
    exact h.metrics
  have hprompt : (r.registry.getD e.registry).IsPrompt := hmetrics ▸ isPrompt_typingRegistry t
  obtain ⟨hvalues, hidle⟩ := Engine.values_run_of_idle hprompt he.idle now events d
  refine ⟨?_, he.settings.trans (Engine.sameSettings_run e now events r.registry d), hidle⟩
  rw [hvalues, hmetrics, he.settings.firstValues]

end Recorder

theorem Service.respond_analytics_of_isNew {t : Thresholds} {start : Service}
    (h : start.recorder.IsNew t) (calls : List (Clock × Call)) {id : Value} {s : Session}
    (hs : (start.after calls).recorder.session id = .ok s) (now : Clock) (token : Option Value) :
    ∃ result w, (start.after calls).respond ((Call.analytics id token).request now) =
        (.ok (.analytics result), w) ∧
      result.values =
        start.recorder.engine.firstValues (typingRegistry t) (Recorder.entries s) :=
  respond_analytics_of_recalls (recalls_after h.computes h.isReady rfl h.memos calls) h.computes
    hs now token

end TypingTrace
