import TypingTrace.Fault
import TypingTrace.Value.Equality

/-!
# Collections and tables

A list has its items, a text its characters and an object the names of its fields. Any other
value holds nothing that could be gone through.

A table has values by keys of any type that can be looked up. Equal keys are one key: setting a key
replaces the value where it stands. A table can be made of a list of pairs (`Table.ofValue`), where
a pair is any collection of two things.
-/

namespace TypingTrace

/-! ## Collections -/

namespace Value

/-- What a value holds, in order. -/
def items : Value → Except Fault (List Value)
  | .list items => .ok items
  | .object fields => .ok (fields.map fun (name, _) => .text name)
  | v => match v.asText with
    | some s => .ok (s.toList.map fun c => .text (String.singleton c))
    | none => .error (.notIterable v.typeName)

/-- What a value holds; nothing if it counts as false. -/
def itemsIfAny (v : Value) : Except Fault (List Value) := if v.truthy then v.items else .ok []

@[simp] theorem items_list (l : List Value) : (list l).items = .ok l := rfl

@[simp] theorem itemsIfAny_list (l : List Value) : (list l).itemsIfAny = .ok l := by
  cases l <;> simp [itemsIfAny, truthy]

end Value

/-! ## Tables -/

abbrev Table := List (Value × Value)

namespace Table

/-- The table with a value for a key, in the place of the one it has or at the end. -/
def set (key value : Value) : Table → Table
  | [] => [(key, value)]
  | (k, v) :: rest => if k.same key then (k, value) :: rest else (k, v) :: set key value rest

/-- The value of a key. -/
def get? (key : Value) : Table → Option Value
  | [] => none
  | (k, v) :: rest => if k.same key then some v else get? key rest

/-- The table with a value for a key, which must be one that can be looked up. -/
def insert (key value : Value) (t : Table) : Except Fault Table :=
  if key.isHashable then .ok (t.set key value) else .error (.unhashable key.shortTypeName)

/-- The table of a list of pairs, set one after the other. -/
def ofList (pairs : List (Value × Value)) : Except Fault Table :=
  pairs.foldlM (fun (t : Table) (key, value) => t.insert key value) []

/-- The two things in a value that stands at a given place of a collection. -/
def pairAt (place : Nat) (v : Value) : Except Fault (Value × Value) :=
  match v.items with
  | .error _ => .error (.notASequence place)
  | .ok [key, value] => .ok (key, value)
  | .ok items => .error (.notAPair place items.length)

/-- The table that a collection of pairs spells. -/
def ofValue (v : Value) : Except Fault Table := do
  (← v.items).zipIdx.foldlM (fun (t : Table) (item, place) => do
    let (key, value) ← pairAt place item
    t.insert key value) []

theorem get?_set_self (key v : Value) (t : Table) : get? key (t.set key v) = some v := by
  induction t with
  | nil => simp [set, get?]
  | cons entry rest ih =>
    obtain ⟨k, w⟩ := entry
    by_cases h : k.same key <;> simp [set, get?, h, ih]

theorem get?_set_of_ne {key other : Value} (v : Value) (t : Table) (h : key.same other = false) :
    get? other (t.set key v) = get? other t := by
  induction t with
  | nil => simp [set, get?, h]
  | cons entry rest ih =>
    obtain ⟨k, w⟩ := entry
    by_cases hk : k.same key
    · have hko : k.same other = false := Bool.eq_false_iff.2 fun hc =>
        Bool.eq_false_iff.1 h (Value.same_trans (Value.same_symm hk) hc)
      simp [set, get?, hk, hko]
    · simp [set, get?, hk, ih]

end Table

end TypingTrace
