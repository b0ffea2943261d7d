import TypingTrace.Event.Basic
import TypingTrace.Time.Wire
import TypingTrace.Value.Table

/-!
# Events on the wire

An event is sent as an object whose fields are named in camel case. Reading checks, in this order,
that it is an object, its kind, that it has a time, that its key code can be written, its metadata,
its time, and the three positions; the first check that fails is the fault. Writing leaves out what
is absent, and what is written reads back as the same event.
-/

namespace TypingTrace

open Time

/-! ## Interactions -/

/-- A position: absent, or a non-negative integer. -/
def readPosition (fields : Fields) (name : String) : Except Fault (Option Nat) :=
  match fields.get name with
  | .null => .ok none
  | .int (.ofNat n) => .ok (some n)
  | v => .error (.invalidPosition name v)

/-- The metadata of an event: an object, or anything that counts as false. -/
def readMetadata (fields : Fields) : Except Fault Fields :=
  let v := fields.get "metadata"
  if v.truthy then
    match v with
    | .object metadata => .ok metadata
    | _ => .error .metadataShape
  else .ok []

/-- The text of a key code of any type. -/
def readKeyCode (fields : Fields) : Except Fault (Option String) :=
  match fields.get "keyCode" with
  | .null => .ok none
  | v => v.write.map some

/-- The kind that an event names. -/
def readKind (fields : Fields) : Except Fault EventKind :=
  match (fields.get "eventType").kind? with
  | some k => .ok k
  | none => .error (.unknownKind (fields.get "eventType"))

namespace Interaction

/-- An interaction from the fields of an object. -/
def ofFields (fields : Fields) : Except Fault Interaction := do
  let kind ← readKind fields
  let sent ← match fields.get? "timestamp" with
    | some v => .ok v
    | none => .error .missingTime
  let keyCode ← readKeyCode fields
  let metadata ← readMetadata fields
  let time ← Stamp.ofWire sent
  let cursor ← readPosition fields "cursorPosition"
  let selectionStart ← readPosition fields "selectionStart"
  let selectionEnd ← readPosition fields "selectionEnd"
  return {
    kind, time, keyCode, metadata, cursor, selectionStart, selectionEnd
    target := fields.get "targetElement"
    keyChar := fields.get "keyChar"
    textBefore := fields.get "textBefore"
    textAfter := fields.get "textAfter" }

/-- The interaction that a value sent on the wire stands for. -/
def ofWire : Value → Except Fault Interaction
  | .object fields => ofFields fields
  | v => .error (.notAnEvent v.shortTypeName)

/-- One field, unless its value is null. -/
def fieldIfAny (name : String) (v : Value) : Fields := if v.isNull then [] else [(name, v)]

def ofPosition : Option Nat → Value
  | none => .null
  | some n => .int n

def ofKeyCode : Option String → Value
  | none => .null
  | some s => .text s

/-- The fields of an interaction on the wire. -/
def toFields (e : Interaction) : Fields :=
  [("eventType", .text e.kind.name), ("timestamp", .text e.time.iso)] ++
    fieldIfAny "targetElement" e.target ++ fieldIfAny "keyCode" (ofKeyCode e.keyCode) ++
    fieldIfAny "keyChar" e.keyChar ++ fieldIfAny "textBefore" e.textBefore ++
    fieldIfAny "textAfter" e.textAfter ++ fieldIfAny "cursorPosition" (ofPosition e.cursor) ++
    fieldIfAny "selectionStart" (ofPosition e.selectionStart) ++
    fieldIfAny "selectionEnd" (ofPosition e.selectionEnd) ++
    if e.metadata.isEmpty then [] else [("metadata", .object e.metadata)]

def toWire (e : Interaction) : Value := .object e.toFields

end Interaction

/-! ## Stored events and rows -/

namespace StoredEvent

/-- The fields of a stored event on the wire: those of its interaction, then its identity. -/
def toFields (e : StoredEvent) : Fields :=
  e.interaction.toFields ++
    [("id", .text e.id), ("sessionId", e.session), ("projectId", e.project)] ++
    match e.accepted with
    | none => []
    | some t => [("createdAt", .text t.iso)]

def toWire (e : StoredEvent) : Value := .object e.toFields

end StoredEvent

namespace Row

/-- Whether the fields of a row carry any part of an identity. -/
def carriesIdentity (fields : Fields) : Bool :=
  fields.has "id" || fields.has "sessionId" || fields.has "projectId"

/-- One part of an identity, as text; empty if it is missing. -/
def identityPart (fields : Fields) (name : String) : Except Fault String :=
  ((fields.get? name).getD (.text "")).write

/-- A row from the fields of an object. -/
def ofFields (fields : Fields) : Except Fault Row := do
  let interaction ← Interaction.ofFields fields
  if carriesIdentity fields then
    let id ← identityPart fields "id"
    let session ← identityPart fields "sessionId"
    let project ← identityPart fields "projectId"
    let accepted ← Stamp.ofWireIfAny (fields.get "createdAt")
    return .stored { interaction, accepted, id, session := .text session, project := .text project }
  else return .plain interaction

/-- The row that a value stands for. -/
def ofWire : Value → Except Fault Row
  | .object fields => ofFields fields
  | v => .error (.notAnEvent v.shortTypeName)

def toFields : Row → Fields
  | plain e => e.toFields
  | stored e => e.toFields

def toWire (r : Row) : Value := .object r.toFields

end Row

/-! ## Batches -/

/-- What the capture layer delivers at a time: events for one session. -/
structure Batch where
  session : Value
  events : List Interaction

namespace Batch

/-- A batch from the fields of an object. Its events may be missing. -/
def ofFields (fields : Fields) : Except Fault Batch := do
  let items ← (fields.get "events").itemsIfAny
  let events ← items.mapM Interaction.ofWire
  return ⟨(fields.get? "sessionId").getD (.text ""), events⟩

def ofWire : Value → Except Fault Batch
  | .object fields => ofFields fields
  | v => .error (.noAttribute v.typeName "get")

end Batch

end TypingTrace
