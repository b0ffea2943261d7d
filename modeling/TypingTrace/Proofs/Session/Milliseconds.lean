import TypingTrace.Proofs.Event.RoundTrip
import TypingTrace.Proofs.Session.Chronology
import TypingTrace.Proofs.Time.Precision

/-!
# Events sent at whole milliseconds

**Theorem (`wholeMilliseconds_inOrder`).** Integers on the wire keep their value, within some two
and a half centuries of 1970, and their order, in the whole calendar. So a session that stores
events by the times they were read with has them in the order of the integers they were sent with,
and events sent with the same integer in the order of their delivery.

The last part is about two keys of one list. As integers and times order the events in the same
way, a stable sort by the one is a stable sort by the other (`StableSort.of_key`).
-/

namespace TypingTrace

open Time

/-- Whether an interaction was sent with a whole number of milliseconds as its time. -/
def Interaction.SentAt (e : Interaction) (milliseconds : Int) : Prop :=
  ∃ fields : Fields, fields.get? "timestamp" = some (.int milliseconds) ∧ ofFields fields = .ok e

theorem Interaction.SentAt.ofWire_eq {e : Interaction} {n : Int} (h : e.SentAt n) :
    Stamp.ofWire (.int n) = .ok e.time := by
  obtain ⟨fields, hfields, hread⟩ := h
  obtain ⟨v, hv, htime⟩ := exists_sent hread
  obtain rfl := Option.some.inj (hfields.symm.trans hv)
  exact htime

namespace Session

/-- **Integers on the wire.** Below `2 ^ 33` seconds an integer is read as exactly that many
milliseconds. Of all integers those are read which the calendar has, and their times are in the
order of the integers. After any changes to a session without events, what it has stored is the
stable sort of all its batches by the integers that the events were sent with. -/
theorem wholeMilliseconds_inOrder :
    (∀ n : Int, |n| < 1000 * 2 ^ 33 → Stamp.ofWire (.int n) = .ok (.ofInstant (1000 * n))) ∧
    (∀ n : Int, (∃ t, Stamp.ofWire (.int n) = .ok t) ↔ HasMillisecond n) ∧
    (∀ {a b : Int} {s t : Stamp}, Stamp.ofWire (.int a) = .ok s → Stamp.ofWire (.int b) = .ok t →
      (s.instant ≤ t.instant ↔ a ≤ b)) ∧
    ∀ {s : Session}, s.events = [] → ∀ (drawn : Nat) (changes : List Change)
      {sent : Interaction → Int}, (∀ e ∈ delivered changes, e.SentAt (sent e)) →
      StableSort sent (delivered changes)
        ((Stage.after ⟨s, drawn⟩ changes).session.events.map StoredEvent.interaction) := by
  refine ⟨fun n hn => ?_, fun n => ?_, Stamp.instant_le_iff, fun hs drawn changes sent hsent => ?_⟩
  · exact Stamp.ofWire_int.2 ⟨hasMillisecond_of_abs_lt hn, by rw [microsOf_intCast hn]⟩
  · simp [Stamp.ofWire_int]
  · have hcontents := ((Chronicle.nil hs drawn).after changes).contents
    rw [List.nil_append] at hcontents
    exact hcontents.of_key fun a ha b hb =>
      Stamp.instant_le_iff (hsent a ha).ofWire_eq (hsent b hb).ofWire_eq

/-! ### A late batch from before 1970 -/

/-- The last millisecond of less than `2 ^ 33` seconds and the first of 1970, then one of 1969 and
the first of 1970 again. -/
def lateMilliseconds : List Change := [
  .append (.ofInstant 9) [observed .keydown 8589934591999000, observed .keyup 0],
  .append (.ofInstant 10) [observed .paste (-1000), observed .copy 0]]

theorem sentAt_observed (kind : EventKind) {n : Int} (h : |n| < 1000 * 2 ^ 33) :
    (observed kind (1000 * n)).SentAt n := by
  have htime : Stamp.ofWire (.int n) = .ok (.ofInstant (1000 * n)) :=
    Stamp.ofWire_int.2 ⟨hasMillisecond_of_abs_lt h, by rw [microsOf_intCast h]⟩
  have hname : (Value.text kind.name).kind? = some kind := EventKind.ofName?_name kind
  refine ⟨[("eventType", .text kind.name), ("timestamp", .int n)], rfl, ?_⟩
  simp [Interaction.ofFields, readKind, readMetadata, readKeyCode, readPosition, Fields.get,
    Fields.get?, hname, htime, Value.truthy, bind, Except.bind, pure, Except.pure, observed]

theorem sentAt_lateMilliseconds :
    ∀ e ∈ delivered lateMilliseconds, e.SentAt (e.instant / 1000) := by
  simp only [delivered, lateMilliseconds, Change.batch, List.flatMap_cons, List.flatMap_nil,
    List.append_nil, List.cons_append, List.nil_append, List.forall_mem_cons]
  refine ⟨?_, ?_, ?_, ?_, List.forall_mem_nil _⟩
  · exact sentAt_observed .keydown (n := 8589934591999) (by decide)
  · exact sentAt_observed .keyup (n := 0) (by decide)
  · exact sentAt_observed .paste (n := -1) (by decide)
  · exact sentAt_observed .copy (n := 0) (by decide)

/-- What is delivered late is stored before all that is later, and after what was sent with the same
integer. -/
theorem wholeMilliseconds_inOrder_lateMilliseconds :
    Stamp.ofWire (.int 8589934591999) = .ok (.ofInstant 8589934591999000) ∧
      draft.events = [] ∧
      (∀ e ∈ delivered lateMilliseconds, e.SentAt (e.instant / 1000)) ∧
      StableSort (fun e => e.instant / 1000)
        [observed .keydown 8589934591999000, observed .keyup 0, observed .paste (-1000),
          observed .copy 0]
        ((Stage.after ⟨draft, 0⟩ lateMilliseconds).session.events.map StoredEvent.interaction) := by
  obtain ⟨hexact, -, -, hsorted⟩ := wholeMilliseconds_inOrder
  have hempty : draft.events = [] := rfl
  exact ⟨hexact 8589934591999 (by decide), hempty, sentAt_lateMilliseconds,
    hsorted hempty 0 lateMilliseconds sentAt_lateMilliseconds⟩

end Session

end TypingTrace
