import TypingTrace.Fault

/-!
# Trees of settings

Settings are objects inside objects, and a place in them is a path of names. Reading a path
(`Value.atPath`) finds null where it leads nowhere. Writing one (`Value.put`) goes along the path,
creates the objects that are missing as it comes to them, and is refused where something else stands
in the way; the fault says what. What a write has created before it is refused stays.
Laying one tree over another (`mergeFields`) replaces what both have, except that objects are laid
over objects field by field.
-/

namespace TypingTrace

namespace Value

/-- The value at the end of a path, null if there is none. -/
def atPath : List String → Value → Value
  | [], v => v
  | name :: path, .object fields => atPath path (Fields.get name fields)
  | _ :: _, _ => .null

/-- Whether one text occurs in another. -/
def occursIn (s t : List Char) : Bool :=
  s.isPrefixOf t || match t with
    | [] => false
    | _ :: rest => occursIn s rest

/-- The fault of assigning a field to something that is no object. -/
def assignmentFault : Value → Fault
  | .list _ => .listIndex
  | v => .noItemAssignment v.typeName

/-- The fault of looking for a section in something that is no object. A text is searched for the
name first, and read or assigned to afterwards. -/
def sectionFault (name : String) (v : Value) : Fault :=
  match v with
  | .list _ => .listIndex
  | v => match v.asText with
    | some s => if occursIn name.toList s.toList then .textIndex else .noItemAssignment v.typeName
    | none => .notAContainer v.typeName

/-- Writes a value at the end of a path, and says what the tree is afterwards, also if the write was
refused on the way. -/
def put (value : Value) : List String → Value → Except Fault Unit × Value
  | [], _ => (.ok (), value)
  | [name], .object fields => (.ok (), .object (Fields.set name value fields))
  | [_], v => (.error v.assignmentFault, v)
  | name :: path, .object fields =>
    let (result, inner) := put value path ((Fields.get? name fields).getD (.object []))
    (result, .object (Fields.set name inner fields))
  | name :: _, v => (.error (v.sectionFault name), v)

mutual

/-- A value laid over what stands at its place. -/
def overlay : Option Value → Value → Value
  | some (.object base), .object fields => .object (mergeFields base fields)
  | _, v => v

/-- Fields laid over others, one after the other. -/
def mergeFields (base : Fields) : List (String × Value) → Fields
  | [] => base
  | (name, v) :: rest => mergeFields (Fields.set name (overlay (Fields.get? name base) v) base) rest

end

end Value

end TypingTrace
