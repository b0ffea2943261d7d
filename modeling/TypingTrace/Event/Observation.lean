import TypingTrace.Event.Basic
import TypingTrace.Fault

/-!
# Events as the metrics see them

A metric looks at five attributes of an event and may be given objects that nothing has checked, so
an `Observation` has each attribute as a value of any type, or not at all. `Row.observe` shows what
a checked event lets a metric see: its identity, its positions and its key code do not appear.

An `Entry` of an event list is a row or such an unchecked object.
-/

namespace TypingTrace

open Time

structure Observation where
  kind : Option Value
  time : Option Value
  keyChar : Option Value
  textAfter : Option Value
  metadata : Option Value

namespace Observation

/-- The type name of an unchecked object. -/
def looseType : String := "RawEvent"

/-- The kind as a value; reading one that is missing is a fault. -/
def readKind (o : Observation) : Except Fault Value :=
  match o.kind with
  | some v => .ok v
  | none => .error (.noAttribute looseType "event_type")

/-- The kind that an observation has or names. -/
def kind? (o : Observation) : Option EventKind := o.kind.bind Value.kind?

def isKind (k : EventKind) (o : Observation) : Bool := o.kind? == some k

/-- Whether the kind is one of a family. -/
def isAmong (family : EventKind → Bool) (o : Observation) : Bool := (o.kind?.map family).getD false

/-- Whether a key was pressed that produced a character. -/
def isCharacter (o : Observation) : Bool :=
  o.isKind .keydown && (o.keyChar.map Value.truthy).getD false

/-- The number of characters in the text after the event. -/
def textLength (o : Observation) : Nat := (o.textAfter.map Value.textLength).getD 0

/-- The number of characters that a paste brought in. -/
def pastedLength (o : Observation) : Nat :=
  match o.metadata with
  | some (.object fields) => (Fields.get "pastedText" fields).textLength
  | _ => 0

end Observation

def Interaction.observe (e : Interaction) : Observation :=
  ⟨some (.kind e.kind), some (.moment e.time.toMoment), some e.keyChar, some e.textAfter,
    some (.object e.metadata)⟩

def Row.observe (r : Row) : Observation := r.interaction.observe

@[simp] theorem Interaction.kind?_observe (e : Interaction) : e.observe.kind? = some e.kind := rfl

inductive Entry where
  | event (r : Row)
  | loose (o : Observation)

def Entry.observe : Entry → Observation
  | event r => r.observe
  | loose o => o

end TypingTrace
