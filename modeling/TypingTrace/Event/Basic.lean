import TypingTrace.Value.Equality

/-!
# Events

**Interaction.** What was observed: its kind, its time, and what the capture layer sent along. Of
the free fields only positions and metadata have a fixed type; null stands for an absent one.

**Stored event.** An interaction that a session accepted, with its own identity, that of its
session and project, and the time of acceptance.

**Row.** A line of an export: an interaction, with or without such an identity.
-/

namespace TypingTrace

open Time

structure Interaction where
  kind : EventKind
  time : Stamp
  target : Value := .null
  keyCode : Option String := none
  keyChar : Value := .null
  textBefore : Value := .null
  textAfter : Value := .null
  cursor : Option Nat := none
  selectionStart : Option Nat := none
  selectionEnd : Option Nat := none
  metadata : Fields := []

structure StoredEvent where
  interaction : Interaction
  id : String
  session : Value
  project : Value
  accepted : Option Stamp

inductive Row where
  | plain (e : Interaction)
  | stored (e : StoredEvent)

namespace Interaction

/-- Whether two interactions agree in every field, times being compared as instants. -/
def same (a b : Interaction) : Bool :=
  a.kind == b.kind && a.time.instant == b.time.instant && a.target.same b.target &&
    a.keyCode == b.keyCode && a.keyChar.same b.keyChar && a.textBefore.same b.textBefore &&
    a.textAfter.same b.textAfter && a.cursor == b.cursor && a.selectionStart == b.selectionStart &&
    a.selectionEnd == b.selectionEnd && (Value.object a.metadata).same (.object b.metadata)

end Interaction

namespace StoredEvent

def time (e : StoredEvent) : Stamp := e.interaction.time

def kind (e : StoredEvent) : EventKind := e.interaction.kind

def same (a b : StoredEvent) : Bool :=
  a.interaction.same b.interaction && a.id == b.id && a.session.same b.session &&
    a.project.same b.project && a.accepted.map Stamp.instant == b.accepted.map Stamp.instant

end StoredEvent

namespace Row

def interaction : Row → Interaction
  | plain e => e
  | stored e => e.interaction

def time (r : Row) : Stamp := r.interaction.time

def kind (r : Row) : EventKind := r.interaction.kind

/-- The session of a row, null if it has no identity. -/
def session : Row → Value
  | plain _ => .null
  | stored e => e.session

/-- The project of a row, null if it has no identity. -/
def project : Row → Value
  | plain _ => .null
  | stored e => e.project

def same : Row → Row → Bool
  | plain a, plain b => a.same b
  | stored a, stored b => a.same b
  | _, _ => false

/-- Whether one row is not later than another. -/
def notAfter (a b : Row) : Bool := a.time.le b.time

/-- Rows in the order of their times; rows of one time stay as they are. -/
def inOrder (rows : List Row) : List Row := rows.mergeSort notAfter

end Row

end TypingTrace
