import TypingTrace.Proofs.Engine.Memo
import TypingTrace.Proofs.Session.Move

/-!
# What a reset is good for

**Theorem (`computed_after_reset`).** After a reset of a memo the engine is run for whatever is
computed next without a token, unless the most recent computation had a token from outside that
equals the memo's own token by now. The same is true of the memo of a session in a recorder, after
any calls.

The exception is real (`recalled_after_reset`): the memo's own tokens are the numbers 1, 2, 3, ..,
and a token from outside may be any of them, even one that the memo has yet to come to.
-/

namespace TypingTrace

open Time

/-! ## The token of the last computation -/

namespace Memo

variable {κ ρ : Type}

/-- A memo whose last computation, if there was any, had a given token from outside, or else the
memo's own one at some time. -/
def AskedWith (last : Option Value) (m : Memo κ ρ) : Prop :=
  ∀ key t result, m.last = some (key, t, result) →
    ∃ n : Nat, n ≤ m.own ∧ ∀ v : Value, v.equals t = v.equals (last.getD (.int n))

variable {last : Option Value} {m : Memo κ ρ}

theorem askedWith_of_last (h : m.last = none) (last : Option Value) : m.AskedWith last := by
  intro key t result hlast
  rw [h] at hlast
  cases hlast

theorem AskedWith.reset (h : m.AskedWith last) : m.reset.AskedWith last := by
  intro key t result hlast
  obtain ⟨n, hn, hequals⟩ := h key t result hlast
  exact ⟨n, Nat.le_succ_of_le hn, hequals⟩

theorem askedWith_keep (m : Memo κ ρ) (key : κ) (token : Option Value) (result : ρ) :
    (m.keep key token result).AskedWith token := by
  rintro _ _ _ ⟨⟩
  exact ⟨m.own, Nat.le_refl _, fun _ => rfl⟩

/-- Where a result is kept, the token of its run is as good as the one that asks for it. -/
theorem askedWith_of_kept [BEq κ] {key : κ} {token : Option Value} {result : ρ}
    (h : m.kept key token = some result) : m.AskedWith token := by
  intro key' t result' hlast
  rw [kept, hlast] at h
  dsimp only at h
  split_ifs at h with hmatch
  rw [Bool.and_eq_true] at hmatch
  exact ⟨m.own, Nat.le_refl _, fun v => (Value.equals_congr_right hmatch.2 v).symm⟩

/-- A reset takes a memo to a token that it was never asked with, if no token from outside is in the
way. -/
theorem AskedWith.kept_reset [BEq κ] (h : m.AskedWith last)
    (hother : ∀ t, last = some t → (Value.int m.reset.own).equals t = false) (key : κ) :
    m.reset.kept key none = none := by
  have hlast : m.reset.last = m.last := rfl
  rw [kept, hlast]
  cases hm : m.last with
  | none => rfl
  | some ran =>
    obtain ⟨k, t, result⟩ := ran
    obtain ⟨n, hn, hequals⟩ := h k t result hm
    have hnew : (m.reset.token none).equals t = false := by
      rw [hequals]
      cases last with
      | some t => exact hother t rfl
      | none =>
        have hne : ¬ ((m.own + 1 : Nat) : Int) = n := by omega
        simpa [token, Memo.reset] using hne
    simp [hnew]

end Memo

/-! ## Calls that a memo notices -/

namespace Call

/-- Whether a call asks for the analytics of a session, or resets them. -/
def usesMemo (id : Value) : Call → Bool
  | analytics a _ => a.same id
  | reset a => a.same id
  | _ => false

/-- The token from outside with which the analytics of a session were last asked for, after one
more call. -/
def tokenAfter (id : Value) (last : Option Value) : Call → Option Value
  | analytics a token => if a.same id then token else last
  | _ => last

/-- The token from outside with which calls last ask for the analytics of a session. -/
def lastToken (id : Value) (calls : List (Clock × Call)) : Option Value :=
  calls.foldl (fun last c => c.2.tokenAfter id last) none

end Call

namespace Service

open Recorder

variable {v : Service} {id : Value}

/-- Other calls leave the memo of a session alone. -/
theorem memoOf_step (now : Clock) {call : Call} (h : call.usesMemo id = false) :
    (v.step (now, call)).recorder.memoOf id = v.recorder.memoOf id := by
  cases hbatch : call.batch? with
  | some batch =>
    rw [step]
    rcases v.step_batch_cases now hbatch with ⟨f, hrefused⟩ | ⟨s, answer, w, -, -, hanswer, hw⟩
    · rw [hrefused]
    · rw [hanswer]
      show w.recorder.memoOf id = _
      rw [hw]
      rfl
  | none =>
    cases call with
    | start project owner address agent metadata =>
      rw [step, Call.request, respond_return, respond_start]
      split_ifs
      · rfl
      · split <;> rfl
    | ingestWire sent project =>
      rw [step, Call.request, respond_return]
      cases sent with
      | object fields =>
        rw [respond_ingestWire]
        cases hread : Batch.ofFields fields with
        | error f => rfl
        | ok batch => simp [Call.batch?, hread, Except.toOption] at hbatch
      | _ => rfl
    | ingestEntries a entries project =>
      rw [step, Call.request, respond_return]
      obtain ⟨count, hcount⟩ := respond_ingestEntries_of_eq_none
        (Option.map_eq_none_iff.1 hbatch) v now.stamp a project
      rw [hcount]
      rfl
    | submit a project =>
      rw [step, Call.request, respond_return, respond_submit]
      split
      · rfl
      · split <;> rfl
    | analytics a token =>
      rw [step, Call.request, respond_return, respond_analytics]
      split
      · rfl
      · show (Recorder.withMemo _ a _).memoOf id = _
        rw [memoOf_withMemo, show a.same id = false from h]
        rfl
    | reset a =>
      rw [step, Call.request, respond_return, respond_reset]
      split
      · rfl
      · show (Recorder.withMemo _ a _).memoOf id = _
        rw [memoOf_withMemo, show a.same id = false from h]
        rfl
    | query f =>
      rw [step, Call.request, respond_return]
      rfl
    | statistics a =>
      rw [step, Call.request, respond_return]
      rfl

theorem askedWith_analyse {r : Recorder} {now : Clock} {s : Session} {token : Option Value}
    {result : Run} {memo : Memo Nat Run} {x y : Engine × Log.Disk × List String}
    (h : r.analyse now id s token x = ((result, memo), y)) : memo.AskedWith token := by
  rw [analyse_eq] at h
  cases hkept : (r.memoOf id).kept s.sequence token with
  | some kept =>
    rw [hkept] at h
    cases h
    exact Memo.askedWith_of_kept hkept
  | none =>
    rw [hkept] at h
    cases h
    exact Memo.askedWith_keep _ _ token _

/-- A session that is known stays known. -/
theorem exists_session_after {s : Session} (hs : v.recorder.session id = .ok s)
    (calls : List (Clock × Call)) : ∃ t, (v.after calls).recorder.session id = .ok t := by
  obtain ⟨hid, hfind⟩ := session_ok_iff.1 hs
  obtain ⟨t, ht⟩ := exists_find?_after (by rw [hfind]; rfl) calls
  exact ⟨t, session_of_find? hid ht⟩

/-- A recorder whose memo of a session was last asked with a given token from outside, or without
one. There is nothing to ask of a session that is not known. -/
structure AskedLast (id : Value) (last : Option Value) (r : Recorder) : Prop where
  memo : (r.memoOf id).AskedWith last
  unknown : (∀ s, r.session id ≠ .ok s) → (r.memoOf id).last = none

variable {last : Option Value}

/-- Once a session is known, its memo is all there is to say. -/
theorem askedLast_of_known {s : Session} (hs : v.recorder.session id = .ok s) {now : Clock}
    {call : Call} (hmemo : ((v.step (now, call)).recorder.memoOf id).AskedWith last) :
    AskedLast id last (v.step (now, call)).recorder where
  memo := hmemo
  unknown hnone := by
    obtain ⟨t, ht⟩ := exists_session_after hs [(now, call)]
    exact absurd ht (hnone t)

theorem askedLast_analytics (h : AskedLast id last v.recorder) (now : Clock) {a : Value}
    (hsame : a.same id) (token : Option Value) :
    AskedLast id token (v.step (now, .analytics a token)).recorder := by
  cases hs : v.recorder.session a with
  | error f =>
    have hrefused : (v.step (now, .analytics a token)).recorder = v.recorder := by
      rw [step, Call.request, respond_return, respond_analytics, hs]
    have hunused : (v.recorder.memoOf id).last = none := h.unknown fun s hok => by
      rw [(session_congr hsame).2 hok] at hs
      cases hs
    rw [hrefused]
    exact ⟨Memo.askedWith_of_last hunused token, h.unknown⟩
  | ok s =>
    refine askedLast_of_known ((session_congr hsame).1 hs) ?_
    rw [step, Call.request, respond_return, respond_analytics, hs]
    show Memo.AskedWith _ ((Recorder.withMemo _ a _).memoOf id)
    rw [memoOf_withMemo, if_pos hsame]
    exact askedWith_analyse rfl

theorem askedLast_reset (h : AskedLast id last v.recorder) (now : Clock) {a : Value}
    (hsame : a.same id) : AskedLast id last (v.step (now, .reset a)).recorder := by
  cases hs : v.recorder.session a with
  | error f =>
    have hrefused : (v.step (now, .reset a)).recorder = v.recorder := by
      rw [step, Call.request, respond_return, respond_reset, hs]
    rw [hrefused]
    exact h
  | ok s =>
    refine askedLast_of_known ((session_congr hsame).1 hs) ?_
    rw [step, Call.request, respond_return, respond_reset, hs]
    show Memo.AskedWith _ ((Recorder.withMemo _ a _).memoOf id)
    rw [memoOf_withMemo, if_pos hsame, memoOf_congr _ hsame]
    exact h.memo.reset

theorem askedLast_quiet (h : AskedLast id last v.recorder) (now : Clock) {call : Call}
    (hquiet : call.usesMemo id = false) : AskedLast id last (v.step (now, call)).recorder := by
  have hmemo := v.memoOf_step now hquiet
  refine ⟨hmemo ▸ h.memo, fun hnone => ?_⟩
  rw [hmemo]
  refine h.unknown fun s hs => ?_
  obtain ⟨t, ht⟩ := exists_session_after hs [(now, call)]
  exact hnone t ht

theorem askedLast_step (h : AskedLast id last v.recorder) (now : Clock) (call : Call) :
    AskedLast id (call.tokenAfter id last) (v.step (now, call)).recorder := by
  by_cases huses : call.usesMemo id
  · cases call with
    | analytics a token =>
      have hsame : a.same id := huses
      rw [Call.tokenAfter, if_pos hsame]
      exact askedLast_analytics h now hsame token
    | reset a => exact askedLast_reset h now huses
    | _ => cases huses
  · have htoken : call.tokenAfter id last = last := by
      cases call with
      | analytics a token => exact if_neg huses
      | _ => rfl
    rw [htoken]
    exact askedLast_quiet h now (by simpa using huses)

theorem askedLast_after (h : AskedLast id last v.recorder)
    (calls : List (Clock × Call)) :
    AskedLast id (calls.foldl (fun last c => c.2.tokenAfter id last) last)
      (v.after calls).recorder := by
  induction calls generalizing v last with
  | nil => exact h
  | cons c calls ih => exact ih (askedLast_step h c.1 c.2)

theorem memoOf_after {calls : List (Clock × Call)} (h : ∀ c ∈ calls, c.2.usesMemo id = false) :
    (v.after calls).recorder.memoOf id = v.recorder.memoOf id := by
  induction calls generalizing v with
  | nil => rfl
  | cons c calls ih =>
    obtain ⟨hc, hrest⟩ := List.forall_mem_cons.1 h
    rw [after_cons, ih hrest]
    exact memoOf_step c.1 hc

/-- Analytics that no memo keeps are those of a run of the engine. -/
theorem respond_analytics_of_not_kept {s : Session} {token : Option Value}
    (hs : v.recorder.session id = .ok s)
    (hkept : (v.recorder.memoOf id).kept s.sequence token = none) (now : Clock) :
    let run := v.recorder.engine.run now (entries s) v.recorder.registry v.disk
    v.respond ((Call.analytics id token).request now) = (.ok (.analytics run.1),
      ⟨{ v.recorder with engine := run.2.1 }.withMemo id
        ((v.recorder.memoOf id).keep s.sequence token run.1), run.2.2.1,
        v.warnings ++ run.2.2.2⟩) := by
  intro run
  have hanswer := v.respond_analytics now id token
  have hrun : v.recorder.analyse now id s token (v.recorder.engine, v.disk, v.warnings) =
      ((run.1, (v.recorder.memoOf id).keep s.sequence token run.1), run.2.1, run.2.2.1,
        v.warnings ++ run.2.2.2) := by
    rw [analyse_eq, hkept]
  rw [hs] at hanswer
  dsimp only at hanswer
  rw [hrun] at hanswer
  exact respond_bind_ok hanswer _

/-- After a reset, the next analytics of a session without a token are those of a run, unless they
were last asked for with the token that the reset answers with. -/
theorem respond_analytics_after_reset {last : Option Value} {s : Session}
    (h : (v.recorder.memoOf id).AskedWith last) (hs : v.recorder.session id = .ok s) (now : Clock)
    (hother : ∀ t, last = some t → (Value.int (v.recorder.memoOf id).reset.own).equals t = false)
    {quiet : List (Clock × Call)} (hquiet : ∀ c ∈ quiet, c.2.usesMemo id = false) (now' : Clock) :
    let w := v.after ((now, .reset id) :: quiet)
    ∃ t w', w.recorder.session id = .ok t ∧
      w.respond ((Call.analytics id none).request now') = (.ok (.analytics
        (w.recorder.engine.run now' (entries t) w.recorder.registry w.disk).1), w') ∧
      (w'.recorder.memoOf id).runs = (w.recorder.memoOf id).runs + 1 := by
  intro w
  obtain ⟨t, ht⟩ := exists_session_after hs ((now, .reset id) :: quiet)
  have hmemo : w.recorder.memoOf id = (v.recorder.memoOf id).reset := by
    have hreset := v.respond_reset id
    rw [hs] at hreset
    have hstep : (v.step (now, .reset id)).recorder =
        v.recorder.withMemo id (v.recorder.memoOf id).reset := by
      rw [step, Call.request, respond_return, hreset]
    rw [show w = (v.step (now, .reset id)).after quiet from rfl, memoOf_after hquiet, hstep,
      memoOf_withMemo, if_pos (Value.same_refl id)]
  have hkept : (w.recorder.memoOf id).kept t.sequence none = none := by
    rw [hmemo]
    exact h.kept_reset hother t.sequence
  refine ⟨t, _, ht, respond_analytics_of_not_kept ht hkept now', ?_⟩
  rw [memoOf_withMemo, if_pos (Value.same_refl id)]
  rfl

end Service

/-! ## Resets -/

/-- **Resets.** After any history of a memo that ends with a reset and uses that are no
computations, a computation without a token runs the engine once and gives a new object, unless the
most recent one was for the same sequence, with a token from outside that equals the memo's own by
now. After any calls to a new recorder, a reset of a session and calls that neither ask for its
analytics nor reset them, its analytics without a token are those of a run of the engine, unless the
most recent call that asked for them had a token that equals the one that the reset answered
with. -/
theorem computed_after_reset {κ ρ σ : Type} [BEq κ] [LawfulBEq κ] (engine : κ → StateM σ ρ)
    (world : σ) {start : Service} (hmemos : start.recorder.memos = []) :
    (∀ (h quiet : List (Memo.Use κ σ)) (key : κ), (∀ use ∈ quiet, use.isComputation = false) →
      let h' := quiet ++ .reset :: h
      let s := Memo.after engine world h'
      (∀ a t, Memo.lastAsked h' = some a → a.key = key → a.given = some t →
        (Value.int (Memo.resets h')).equals t = false) →
      ∃ made s', s.respond engine (.compute key none) = (.result made, s') ∧
        s'.made = s.made + 1 ∧ ∀ old ∈ Memo.results engine world h', old.number ≠ made.number) ∧
    ∀ (calls quiet : List (Clock × Call)) (id : Value) (s : Session) (now now' : Clock),
      let v := start.after calls
      let own := (v.recorder.memoOf id).reset.own
      v.recorder.session id = .ok s → (∀ c ∈ quiet, c.2.usesMemo id = false) →
      (v.respond ((Call.reset id).request now)).1 = .ok (.token own) ∧
        ((∀ t, Call.lastToken id calls = some t → (Value.int own).equals t = false) →
          let w := v.after ((now, .reset id) :: quiet)
          ∃ t w', w.recorder.session id = .ok t ∧
            w.respond ((Call.analytics id none).request now') = (.ok (.analytics
              (w.recorder.engine.run now' (Recorder.entries t) w.recorder.registry w.disk).1),
              w') ∧
            (w'.recorder.memoOf id).runs = (w.recorder.memoOf id).runs + 1) := by
  constructor
  · intro h quiet key hquiet h' s hother
    have hrecalled : Memo.recalled h' key none = false := by
      rw [Memo.recalled_reset hquiet key, Option.any_eq_false]
      intro a hasked
      rw [Bool.and_eq_false_imp, beq_iff_eq]
      intro hkey
      rw [Option.any_eq_false]
      exact fun t hgiven => hother a t hasked hkey hgiven
    obtain ⟨made, s', hrespond, -, hmade, hnew⟩ :=
      (Memo.remembers engine world h').respond_of_not_recalled hrecalled
    exact ⟨made, s', hrespond, hmade, hnew⟩
  · intro calls quiet id s now now' v own hs hquiet
    constructor
    · have hreset := v.respond_reset id
      rw [hs] at hreset
      rw [Call.request, Service.respond_map, hreset]
      rfl
    · intro hother
      have hnew : (start.recorder.memoOf id).last = none := by
        rw [Recorder.memoOf, hmemos]
        rfl
      have hasked := Service.askedLast_after ⟨Memo.askedWith_of_last hnew none, fun _ => hnew⟩ calls
      exact Service.respond_analytics_after_reset hasked.memo hs now hother hquiet now'

/-! ### Tokens from outside -/

/-- A computation with a token from outside, before a reset. -/
def Memo.outside (token : Int) : List (Use Nat Nat) := [.reset, .compute 7 (some (.int token))]

/-- The first session is counted with a token from outside. -/
def counted (token : Int) : List (Clock × Call) :=
  [Service.opening, (⟨2⟩, .analytics Service.firstId (some (.int token)))]

theorem computed_after_reset_otherToken :
    (∃ made s', (Memo.after Memo.adding 5 (Memo.outside 2)).respond Memo.adding (.compute 7 none) =
      (.result made, s') ∧ s'.made = 2) ∧
    let w := (Service.tally.after (counted 2)).after [(⟨3⟩, .reset Service.firstId)]
    ∃ run w', w.respond ((Call.analytics Service.firstId none).request ⟨4⟩) =
      (.ok (.analytics run), w') ∧
      (w'.recorder.memoOf Service.firstId).runs =
        (w.recorder.memoOf Service.firstId).runs + 1 := by
  obtain ⟨hmemo, hrecorder⟩ :=
    computed_after_reset Memo.adding 5 (rfl : Service.tally.recorder.memos = [])
  constructor
  · have hother : ∀ a t, Memo.lastAsked (Memo.outside 2) = some a → a.key = 7 → a.given = some t →
        (Value.int (Memo.resets (Memo.outside 2))).equals t = false := by
      rintro _ _ ⟨⟩ - ⟨⟩
      decide +kernel
    obtain ⟨made, s', hrespond, hmade, -⟩ :=
      hmemo [.compute 7 (some (.int 2))] [] 7 (by simp) hother
    exact ⟨made, s', hrespond, hmade⟩
  · intro w
    obtain ⟨s, hs⟩ := Service.exists_firstId [(⟨2⟩, .analytics Service.firstId (some (.int 2)))]
    obtain ⟨-, hcomputed⟩ := hrecorder (counted 2) [] Service.firstId s ⟨3⟩ ⟨4⟩
      (Recorder.session_of_find? rfl hs) (by simp)
    obtain ⟨t, w', -, hrespond, hruns⟩ := hcomputed (by decide +kernel)
    exact ⟨_, w', hrespond, hruns⟩

/-- A token from outside that the memo comes to by a reset: what it keeps is given once more. -/
theorem recalled_after_reset :
    (Memo.after Memo.adding 5 (Memo.outside 1)).respond Memo.adding (.compute 7 none) =
      (.result ⟨1, 12⟩, Memo.after Memo.adding 5 (Memo.outside 1)) ∧
    Memo.results Memo.adding 5 (Memo.outside 1) = [⟨1, 12⟩] ∧
    ((Service.tally.after (counted 1 ++ [(⟨3⟩, .reset Service.firstId),
      (⟨4⟩, .analytics Service.firstId none)])).recorder.memoOf Service.firstId).runs = 1 := by
  refine ⟨rfl, rfl, ?_⟩
  decide +kernel

end TypingTrace
