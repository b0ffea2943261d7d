import TypingTrace.Proofs.Session.Chronology

/-!
# A session is submitted once

**Theorem (`submitted_once`).** Where a session stands (`Standing`: whether it was submitted, when,
and its end) is decided by its first submission. That one is accepted; it sets the time of
submission, and the end as well unless there was one. Every further submission is refused and
changes nothing, and batches may come before and after without a trace in the standing.

The proof is in two parts. Nothing leads away from a session that was submitted
(`standing_after_of_submitted`), and up to its first submission an open session stands as it stood
at the start (`standing_after`).
-/

namespace TypingTrace

open Time

/-! ## Standing -/

/-- Where a session stands. -/
structure Standing where
  submitted : Value
  submission : Option Stamp
  stop : Option Stamp

/-- The standing after a first submission, if there was one. -/
def Standing.submittedAt (w : Standing) : Option Stamp → Standing
  | none => w
  | some time => ⟨.bool true, some time, some (w.stop.getD time)⟩

namespace Session

variable {s : Session}

def standing (s : Session) : Standing := ⟨s.submitted, s.submission, s.stop⟩

/-- A session as it is constructed: it may have an end, but it was not submitted. -/
structure IsOpen (s : Session) : Prop where
  submitted : s.submitted.truthy = false
  submission : s.submission = none

/-- The time of the first submission among some changes. -/
def firstSubmission : List Change → Option Stamp
  | [] => none
  | .submit time :: _ => some time
  | .append _ _ :: changes => firstSubmission changes
  | .drawElsewhere _ :: changes => firstSubmission changes

/-! ## One change -/

theorem submit_of_open (h : s.submitted.truthy = false) (time : Stamp) :
    s.submit time = .ok { s with
      submitted := .bool true, submission := some time, stop := some (s.stop.getD time) } := by
  rw [submit, if_neg (by simp [h])]

theorem submit_of_submitted (h : s.submitted.truthy) (time : Stamp) :
    s.submit time = .error (.alreadySubmitted s.id) := if_pos h

theorem apply_submit_of_submitted {st : Stage} (h : st.session.submitted.truthy) (time : Stamp) :
    (Change.submit time).apply st = ([], st) := by
  simp only [Change.apply, submit_of_submitted h]

theorem id_apply (st : Stage) (c : Change) : (c.apply st).2.session.id = st.session.id := by
  cases c with
  | append now batch => rfl
  | submit time =>
    cases hs : st.session.submit time with
    | error f => simp only [Change.apply, hs]
    | ok t => simp only [Change.apply, hs, submit_ok hs]
  | drawElsewhere count => rfl

/-- Nothing changes the standing of a session that was submitted. -/
theorem standing_apply_of_submitted {st : Stage} (h : st.session.submitted.truthy) (c : Change) :
    (c.apply st).2.session.standing = st.session.standing := by
  cases c with
  | append now batch => rfl
  | submit time => rw [apply_submit_of_submitted h]
  | drawElsewhere count => rfl

/-! ## Any changes -/

/-- What each change keeps, any changes keep. -/
theorem after_of_apply {P : Stage → Prop} (hstep : ∀ st (c : Change), P st → P (c.apply st).2)
    {st : Stage} (h : P st) (changes : List Change) : P (st.after changes) :=
  List.foldlRecOn changes _ h fun t ht c _ => hstep t c ht

theorem id_after (st : Stage) (changes : List Change) :
    (st.after changes).session.id = st.session.id :=
  after_of_apply (P := fun t => t.session.id = st.session.id)
    (fun t c ht => (id_apply t c).trans ht) rfl changes

/-- **Finality.** A session that was submitted stands as it does for good. -/
theorem standing_after_of_submitted {st : Stage} (h : st.session.submitted.truthy)
    (changes : List Change) : (st.after changes).session.standing = st.session.standing := by
  refine after_of_apply (P := fun t => t.session.standing = st.session.standing) ?_ rfl changes
  intro t c ht
  have hsubmitted : t.session.submitted = st.session.submitted := congrArg Standing.submitted ht
  exact (standing_apply_of_submitted (hsubmitted ▸ h) c).trans ht

/-- An open session stands as its first submission has left it. -/
theorem standing_after {st : Stage} (h : st.session.submitted.truthy = false)
    (changes : List Change) : (st.after changes).session.standing =
      st.session.standing.submittedAt (firstSubmission changes) := by
  induction changes generalizing st with
  | nil => rfl
  | cons c changes ih =>
    cases c with
    | append now batch => exact @ih ((Change.append now batch).apply st).2 h
    | submit time =>
      have happly : (Change.submit time).apply st = ([], { st with session := { st.session with
          submitted := .bool true, submission := some time
          stop := some (st.session.stop.getD time) } }) := by
        simp only [Change.apply, submit_of_open h]
      show (Stage.after ((Change.submit time).apply st).2 changes).session.standing = _
      rw [happly]
      exact @standing_after_of_submitted ⟨_, st.drawn⟩ rfl changes
    | drawElsewhere count => exact @ih ((Change.drawElsewhere count).apply st).2 h

theorem truthy_submittedAt {w : Standing} (h : w.submitted.truthy = false) (first : Option Stamp) :
    (w.submittedAt first).submitted.truthy = first.isSome := by
  cases first with
  | none => exact h
  | some time => rfl

theorem submission_submittedAt {w : Standing} (h : w.submission = none) (first : Option Stamp) :
    (w.submittedAt first).submission = first := by
  cases first with
  | none => exact h
  | some time => rfl

/-- **Submission.** After any changes to an open session, it stands as the first submission among
them has left it. Without one a submission is accepted; it sets the time of submission, and the end
if there was none. After one every submission is refused and changes nothing. No batch changes the
standing, and no submission the events. The time of submission is set just in case the session was
submitted, and then neither changes any more. -/
theorem submitted_once (hs : s.IsOpen) (drawn : Nat) (changes : List Change) :
    let st := Stage.after ⟨s, drawn⟩ changes
    st.session.standing = s.standing.submittedAt (firstSubmission changes) ∧
      (firstSubmission changes = none → ∀ time, st.session.submit time = .ok { st.session with
        submitted := .bool true, submission := some time, stop := some (s.stop.getD time) }) ∧
      (firstSubmission changes ≠ none → ∀ time,
        st.session.submit time = .error (.alreadySubmitted s.id) ∧
          (Change.submit time).apply st = ([], st)) ∧
      (∀ now batch, ((Change.append now batch).apply st).2.session.standing = st.session.standing) ∧
      (∀ time, ((Change.submit time).apply st).2.session.events = st.session.events) ∧
      (st.session.submission.isSome ↔ st.session.submitted.truthy) ∧
      (st.session.submitted.truthy → ∀ later, (st.after later).session.standing =
        st.session.standing ∧ (st.after later).session.state = st.session.state) := by
  intro st
  have hstanding : st.session.standing = s.standing.submittedAt (firstSubmission changes) :=
    @standing_after ⟨s, drawn⟩ hs.submitted changes
  have hsubmitted : st.session.submitted.truthy = (firstSubmission changes).isSome :=
    (congrArg (·.submitted.truthy) hstanding).trans (truthy_submittedAt hs.submitted _)
  have hsubmission : st.session.submission = firstSubmission changes :=
    (congrArg Standing.submission hstanding).trans (submission_submittedAt hs.submission _)
  refine ⟨hstanding, ?first, ?further, ?batches, ?events, ?set, ?final⟩
  case first =>
    intro hnone time
    rw [hnone] at hstanding hsubmitted
    have hstop : st.session.stop = s.stop := congrArg Standing.stop hstanding
    rw [submit_of_open hsubmitted, hstop]
  case further =>
    intro hsome time
    have htrue : st.session.submitted.truthy :=
      hsubmitted.trans (Option.isSome_iff_ne_none.2 hsome)
    have hid : st.session.id = s.id := id_after ⟨s, drawn⟩ changes
    exact ⟨hid ▸ submit_of_submitted htrue time, apply_submit_of_submitted htrue time⟩
  case batches => exact fun now batch => rfl
  case events =>
    intro time
    obtain ⟨t, happly, hevents⟩ := apply_submit st time
    rw [happly]
    exact hevents
  case set => rw [hsubmission, hsubmitted]
  case final =>
    intro htrue later
    have hlater := standing_after_of_submitted htrue later
    refine ⟨hlater, ?_⟩
    have hsame : (st.after later).session.submitted = st.session.submitted :=
      congrArg Standing.submitted hlater
    rw [state, state, hsame]

/-- A session with an end that is submitted, gets late events, and is submitted again. -/
def resubmission : List Change := [
  .append (.ofInstant 9) [observed .keydown 5], .submit (.ofInstant 10),
  .append (.ofInstant 11) [observed .paste 3], .submit (.ofInstant 12)]

theorem submitted_once_resubmission :
    let s : Session := { draft with stop := some (.ofInstant 8) }
    let st := Stage.after ⟨s, 0⟩ resubmission
    s.IsOpen ∧ firstSubmission resubmission ≠ none ∧
      st.session.standing = ⟨.bool true, some (.ofInstant 10), some (.ofInstant 8)⟩ ∧
      st.session.submit (.ofInstant 13) = .error (.alreadySubmitted (.text "s")) ∧
      (st.after lateDelivery).session.standing = st.session.standing := by
  intro s st
  have hs : s.IsOpen := ⟨rfl, rfl⟩
  have hsome : firstSubmission resubmission ≠ none := by simp [firstSubmission, resubmission]
  obtain ⟨hstanding, -, hfurther, -, -, -, hfinal⟩ := submitted_once hs 0 resubmission
  exact ⟨hs, hsome, hstanding, (hfurther hsome _).1, (hfinal rfl lateDelivery).1⟩

end Session

end TypingTrace
