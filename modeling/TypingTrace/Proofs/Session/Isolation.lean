import TypingTrace.Proofs.Session.Twin

/-!
# Sessions do not disturb each other

**Theorem (`session_isolated`).** What a recorder of the typing metrics answers to the calls to one
session, and the session as it is in the end, do not depend on the calls to others. A run without
those gives the same, but for the names of things.

The proof follows two runs at once, in which the same calls at the same times go to a session each
and anything else to others (`SameCalls`). The recorders are twins in these sessions: a call to both
keeps them so (`inStep_request`), and a call for another session on either side does as well, since
it spares the session (`spares_step`).
-/

namespace TypingTrace

open Time Recorder

namespace Service

variable {names : List (String × String)} {a a' : String}

/-! ## Two runs -/

/-- A session that is started is a twin of one that is started elsewhere. -/
theorem twin_start {v v' : Service} (hv : v.recorder.Intact) (hv' : v'.recorder.Intact)
    {now : Clock} {call : Call} (hcall : call.isStart) {s : Session}
    (hs : (v.respond (call.request now)).1 = .ok (.session s)) :
    ∃ a a' s', s.id = .text a ∧ s'.id = .text a' ∧
      (v'.respond (call.request now)).1 = .ok (.session s') ∧ s.Renamed [(a, a')] s' ∧
      Twin [(a, a')] a a' (v.step (now, call)).recorder (v'.step (now, call)).recorder := by
  cases call with
  | start project owner address agent metadata =>
    rw [step, step]
    rw [respond_call_start] at hs ⊢
    rw [respond_call_start]
    by_cases howner : !owner.truthy
    · rw [if_pos howner] at hs
      cases hs
    rw [if_neg howner] at hs
    rw [if_neg howner, if_neg howner]
    cases hmetadata : metadataOf metadata with
    | error f =>
      rw [hmetadata] at hs
      cases hs
    | ok metadata =>
      rw [hmetadata] at hs
      obtain rfl := Response.session.inj (Except.ok.inj hs)
      have htwin := Twin.withSession hv hv' now.stamp project owner address agent metadata
      obtain ⟨s, s', hs, hs', hrenamed⟩ := htwin.session
      rw [hv.numbered.find?_withSession_fresh rfl, Option.some.injEq] at hs
      rw [hv'.numbered.find?_withSession_fresh rfl, Option.some.injEq] at hs'
      exact ⟨_, _, _, rfl, rfl, rfl, hs ▸ hs' ▸ hrenamed, htwin⟩
  | _ => cases hcall

/-- The answers to the calls that are addressed to a session. -/
def answersTo (id : Value) (v : Service) : List (Clock × Call) → List (Except Fault Response)
  | [] => []
  | call :: calls =>
    let rest := (v.step call).answersTo id calls
    if call.2.isFor id then (v.respond (call.2.request call.1)).1 :: rest else rest

/-- Calls of two runs, among them the same ones at the same times to a session of each run. -/
inductive SameCalls (a a' : String) : List (Clock × Call) → List (Clock × Call) → Prop
  | nil : SameCalls a a' [] []
  | both {now : Clock} {call : Call} {l l' : List (Clock × Call)} : call.isFor (.text a) →
      SameCalls a a' l l' →
      SameCalls a a' ((now, call) :: l) ((now, call.readdress (.text a')) :: l')
  | left {call : Clock × Call} {l l' : List (Clock × Call)} : call.2.isFor (.text a) = false →
      SameCalls a a' l l' → SameCalls a a' (call :: l) l'
  | right {call : Clock × Call} {l l' : List (Clock × Call)} : call.2.isFor (.text a') = false →
      SameCalls a a' l l' → SameCalls a a' l (call :: l')

/-- **Only the calls to a session matter to it.** -/
theorem twin_after {t : Thresholds} {start : Recorder}
    (htimeout : start.engine.timeout.truthy = false)
    (hmetrics : start.registry.getD start.engine.registry = typingRegistry t)
    {calls calls' : List (Clock × Call)} (hcalls : SameCalls a a' calls calls')
    {names : List (String × String)} {v v' : Service} (hv : Steady start v.recorder)
    (hv' : Steady start v'.recorder) (h : Twin names a a' v.recorder v'.recorder) :
    ∃ longer, names ⊆ longer ∧
      List.Forall₂ (Alike longer (Response.Renamed longer)) (v.answersTo (.text a) calls)
        (v'.answersTo (.text a') calls') ∧
      Twin longer a a' (v.after calls).recorder (v'.after calls').recorder := by
  induction hcalls generalizing names v v' with
  | nil => exact ⟨names, List.Subset.refl _, .nil, h⟩
  | @both now call l l' hcall _ ih =>
    obtain ⟨more, hmore, hstep⟩ := inStep_request htimeout hmetrics hv hv' h now hcall
    obtain ⟨longer, hlonger, hanswers, htwin⟩ := ih (hv.move (v.move_step now call))
      (hv'.move (v'.move_step now (call.readdress (.text a')))) hstep.twin
    refine ⟨longer, List.Subset.trans hmore hlonger, ?_, htwin⟩
    rw [answersTo, answersTo, if_pos hcall, if_pos (Call.isFor_readdress hcall a')]
    exact .cons (alike_mono hlonger hstep.answer) hanswers
  | @left call l l' hcall _ ih =>
    obtain ⟨s, _, hs, -⟩ := h.session
    have hspares := spares_step (Option.isSome_of_eq_some hs) call.1 hcall
    have hmove := v.move_step call.1 call.2
    obtain ⟨longer, hsub, hanswers, htwin⟩ := ih (hv.move hmove) hv'
      (h.mono hspares (.refl _ _) hmove.drawn_le le_rfl)
    refine ⟨longer, hsub, ?_, htwin⟩
    rwa [answersTo, hcall]
  | @right call l l' hcall _ ih =>
    obtain ⟨_, s', -, hs', -⟩ := h.session
    have hspares := spares_step (Option.isSome_of_eq_some hs') call.1 hcall
    have hmove := v'.move_step call.1 call.2
    obtain ⟨longer, hsub, hanswers, htwin⟩ := ih hv (hv'.move hmove)
      (h.mono (.refl _ _) hspares le_rfl hmove.drawn_le)
    refine ⟨longer, hsub, ?_, htwin⟩
    rwa [answersTo, hcall]

/-! ## One run without the other sessions -/

/-- The calls of a run to one session, and those that name none, with another id of the session. -/
def callsFor (id id' : Value) (calls : List (Clock × Call)) : List (Clock × Call) :=
  (calls.filter fun c => c.2.isFor id || c.2.isFree).map fun c => (c.1, c.2.readdress id')

theorem sameCalls_callsFor (a a' : String) (calls : List (Clock × Call)) :
    SameCalls a a' calls (callsFor (.text a) (.text a') calls) := by
  induction calls with
  | nil => exact .nil
  | cons call calls ih =>
    obtain ⟨now, call⟩ := call
    rw [callsFor, List.filter_cons]
    cases hcall : call.isFor (.text a) with
    | true => exact .both hcall ih
    | false =>
      cases hfree : call.isFree with
      | true =>
        refine .left hcall ?_
        have hright : (call.readdress (.text a')).isFor (.text a') = false := by
          rw [Call.readdress_of_isFree hfree]
          exact Call.isFor_of_isFree hfree _
        exact .right hright ih
      | false => exact .left hcall ih

/-- **Isolation.** Let a new recorder of the typing metrics, without a deadline, answer any calls,
then start a session, and answer any calls after that. In the run without the calls that start or
name another session, that session is started as well, and there is a table that pairs the ids of
both runs one to one, such that all that is answered to calls to the session, and the session as it
is in the end with its events in their order, are the same in both runs up to these names. -/
theorem session_isolated {t : Thresholds} {start : Service} (hnew : start.recorder.IsNew t)
    (htimeout : start.recorder.engine.timeout.truthy = false) (before rest : List (Clock × Call))
    {now : Clock} {call : Call} (hcall : call.isStart) {s : Session}
    (hs : ((start.after before).respond (call.request now)).1 = .ok (.session s)) :
    let before' := before.filter fun c => c.2.isFree
    let v := (start.after before).step (now, call)
    let v' := (start.after before').step (now, call)
    ∃ s' names, ((start.after before').respond (call.request now)).1 = .ok (.session s') ∧
      (names.map Prod.fst).Nodup ∧ (names.map Prod.snd).Nodup ∧ s.Renamed names s' ∧
      List.Forall₂ (Alike names (Response.Renamed names)) (v.answersTo s.id rest)
        (v'.answersTo s'.id (callsFor s.id s'.id rest)) ∧
      ∃ u u', (v.after rest).recorder.find? s.id = some u ∧
        (v'.after (callsFor s.id s'.id rest)).recorder.find? s'.id = some u' ∧
        u.Renamed names u' := by
  intro before' v v'
  have hsteady : Steady start.recorder start.recorder :=
    ⟨intact_after hnew.sessions hnew.memos [], .refl _, rfl, rfl⟩
  have hbefore := steady_after hsteady before
  have hbefore' := steady_after hsteady before'
  obtain ⟨a, a', s', ha, ha', hs', hrenamed, htwin⟩ :=
    twin_start hbefore.intact hbefore'.intact hcall hs
  obtain ⟨names, hsub, hanswers, hafter⟩ := twin_after htimeout hnew.metrics
    (sameCalls_callsFor a a' rest) (hbefore.move (move_step _ now call))
    (hbefore'.move (move_step _ now call)) htwin
  obtain ⟨u, u', hu, hu', hend⟩ := hafter.session
  rw [← ha, ← ha'] at hanswers hu'
  rw [← ha] at hu
  exact ⟨s', names, hs', hafter.given.nodup, hafter.given'.nodup, hrenamed.mono hsub, hanswers,
    u, u', hu, hu', hend⟩

/-- Two batches for the second of two sessions, its analytics and its submission, with a batch for
the first one in between. -/
theorem session_isolated_twoBatches :
    typist.recorder.IsNew Settings.defaults.thresholds ∧
      typist.recorder.engine.timeout.truthy = false ∧
      ∃ s s' names, ((typist.after [opening]).respond (opening.2.request opening.1)).1 =
          .ok (.session s) ∧
        (typist.respond (opening.2.request opening.1)).1 = .ok (.session s') ∧
        s.id = .text (identity 2) ∧ s'.id = .text (identity 1) ∧ s.Renamed names s' ∧
        List.Forall₂ (Alike names (Response.Renamed names))
          (((typist.after [opening]).step opening).answersTo s.id twoBatches)
          ((typist.step opening).answersTo s'.id (callsFor s.id s'.id twoBatches)) := by
  have hnew : typist.recorder.IsNew Settings.defaults.thresholds := ⟨rfl, rfl, rfl, rfl⟩
  have hopening : opening.2.isStart := rfl
  obtain ⟨s, hs, hid⟩ : ∃ s, ((typist.after [opening]).respond
      (opening.2.request opening.1)).1 = .ok (.session s) ∧ s.id = .text (identity 2) :=
    ⟨_, rfl, rfl⟩
  obtain ⟨s', names, hs', -, -, hrenamed, hanswers, -⟩ :=
    session_isolated hnew rfl [opening] twoBatches hopening hs
  obtain ⟨t, ht, hid'⟩ : ∃ t, (typist.respond (opening.2.request opening.1)).1 =
      .ok (.session t) ∧ t.id = .text (identity 1) := ⟨_, rfl, rfl⟩
  obtain rfl : s' = t := Response.session.inj (Except.ok.inj (hs'.symm.trans ht))
  exact ⟨hnew, rfl, s, s', names, hs, hs', hid, hid', hrenamed, hanswers⟩

end Service

end TypingTrace
