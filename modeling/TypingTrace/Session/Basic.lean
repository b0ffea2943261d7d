import TypingTrace.Event.Wire
import TypingTrace.Metric.Interval

/-!
# Sessions

A session collects the events of one user's writing in one project. Its events are in the order of
their times, and grow by batches: a batch is sorted and merged into what is stored, and of events
at one time the stored ones come first. Late batches are merged like all others. What a batch
leaves is a new sequence of events, and `Session.sequence` tells it from the earlier ones.

A session is submitted once, and then has a time of submission and an end.
-/

namespace TypingTrace

open Time

/-! ## Identities -/

/-- The identity with a given number. Sessions and stored events are numbered in the order in which
they come into being, and their number is written in the form of a universally unique identifier. -/
def identity (n : Nat) : String :=
  "00000000-0000-0000-0000-" ++ String.ofList (Text.hexChars 12 n)

/-! ## Sessions -/

structure Session where
  id : Value
  project : Value
  owner : Value
  start : Stamp
  stop : Option Stamp := none
  /-- Whether the session was submitted, as a value that counts as true or false. -/
  submitted : Value := .bool false
  submission : Option Stamp := none
  address : Value := .null
  agent : Value := .null
  metadata : Value := .object []
  created : Stamp
  events : List StoredEvent := []
  /-- How many sequences of events the session has had before this one. -/
  version : Nat := 0

namespace Session

/-- A session as it is started, with the identity of a given number. -/
def opened (now : Stamp) (number : Nat) (project owner address agent metadata : Value) :
    Session where
  id := .text (identity number)
  project := project
  owner := owner
  start := now
  address := address
  agent := agent
  metadata := metadata
  created := now

/-! ## Appending -/

/-- A batch in the order of its times. -/
def inOrder (batch : List Interaction) : List Interaction :=
  batch.mergeSort fun a b => a.time.le b.time

/-- An interaction as an event of the session, with the identity of a given number. -/
def accept (s : Session) (now : Stamp) (e : Interaction) (number : Nat) : StoredEvent :=
  ⟨e, identity number, s.id, s.project, some now⟩

/-- The events that a batch becomes when `drawn` identities have been given out before. -/
def acceptAll (s : Session) (now : Stamp) (drawn : Nat) (batch : List Interaction) :
    List StoredEvent :=
  (inOrder batch).zipIdx.map fun (e, i) => s.accept now e (drawn + i + 1)

/-- Stored events merged with newly accepted ones. -/
def merge (stored accepted : List StoredEvent) : List StoredEvent :=
  List.merge stored accepted fun a b => a.time.le b.time

/-- The session with a batch appended, and the events that the batch became. An empty batch leaves
no new sequence. -/
def append (s : Session) (now : Stamp) (drawn : Nat) (batch : List Interaction) :
    List StoredEvent × Session :=
  let accepted := s.acceptAll now drawn batch
  (accepted, { s with
    events := merge s.events accepted
    version := if batch.isEmpty then s.version else s.version + 1 })

/-- Which of the sequences that the session has had this one is; the empty ones are all the same. -/
def sequence (s : Session) : Nat := if s.events.isEmpty then 0 else s.version

@[simp] theorem length_acceptAll (s : Session) (now : Stamp) (drawn : Nat)
    (batch : List Interaction) : (s.acceptAll now drawn batch).length = batch.length := by
  simp [acceptAll, inOrder]

theorem append_nil (s : Session) (now : Stamp) (drawn : Nat) : s.append now drawn [] = ([], s) := by
  cases s
  simp [append, acceptAll, inOrder, merge]

/-- A batch with events leaves a new sequence. -/
theorem append_of_ne_nil {batch : List Interaction} (h : batch ≠ []) (s : Session) (now : Stamp)
    (drawn : Nat) : s.append now drawn batch = (s.acceptAll now drawn batch, { s with
      events := merge s.events (s.acceptAll now drawn batch), version := s.version + 1 }) := by
  have hnonempty : ¬ batch.isEmpty := fun hempty => h (List.isEmpty_iff.1 hempty)
  rw [append, if_neg hnonempty]

/-! ## Submission -/

/-- Submits the session at a given time, which is also its end unless it has one. -/
def submit (s : Session) (time : Stamp) : Except Fault Session :=
  if s.submitted.truthy then .error (.alreadySubmitted s.id)
  else .ok { s with
    submitted := .bool true, submission := some time, stop := some (s.stop.getD time) }

theorem submit_ok {s t : Session} {time : Stamp} (h : s.submit time = .ok t) : t = { s with
    submitted := .bool true, submission := some time, stop := some (s.stop.getD time) } := by
  unfold submit at h
  split at h
  · cases h
  · cases h
    rfl

/-! ## Statistics -/

/-- The end of the session: the one that is set, the time of its last event, or its start. -/
def finish (s : Session) : Stamp :=
  s.stop.getD ((s.events.getLast?.map StoredEvent.time).getD s.start)

/-- Microseconds from start to end, zero if the end comes first. -/
def duration (s : Session) : Int := max 0 (s.finish.instant - s.start.instant)

/-! ## Writing -/

def timeIfAny : Option Stamp → Value
  | none => .null
  | some t => .text t.iso

/-- The fields of a session, without its events. -/
def toFields (s : Session) : Fields := [
  ("id", s.id), ("projectId", s.project), ("externalUserId", s.owner),
  ("sessionStart", .text s.start.iso), ("sessionEnd", timeIfAny s.stop),
  ("submitted", s.submitted), ("submissionTime", timeIfAny s.submission),
  ("ipAddress", s.address), ("userAgent", s.agent), ("createdAt", .text s.created.iso)]

/-- The fields of a session with the number of its events and its duration in milliseconds. -/
def statistics (s : Session) : Fields :=
  s.toFields ++
    [("eventCount", .int s.events.length), ("duration", .float (milliseconds s.duration))]

/-- The name of the session's state. -/
def state (s : Session) : String := if s.submitted.truthy then "submitted" else "open"

end Session

end TypingTrace
