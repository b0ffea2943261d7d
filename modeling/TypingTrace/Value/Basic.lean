import TypingTrace.Event.Kind
import TypingTrace.Number.Basic
import TypingTrace.Time.Stamp

/-!
# Values of no fixed type

Events carry fields that nothing checks, settings form a tree of whatever a file holds, and a
calculator may return anything. `Value` is the type of all these: the values of JSON, with
integers and doubles kept apart, and beside them exact fractions, the scalars of numeric arrays,
kinds of interaction and clock readings.

An object is a list of fields in order. `Fields.get?` finds the first with a given name and
`Fields.set` replaces it where it stands, so that a list built with `set` names each field once.
-/

namespace TypingTrace

open Time

inductive Value where
  | null
  | bool (b : Bool)
  | int (n : Int)
  | float (x : Float)
  | text (s : String)
  | list (items : List Value)
  | object (fields : List (String × Value))
  | fraction (q : Rat)
  | scalar (s : Scalar)
  | kind (k : EventKind)
  | moment (m : Moment)
  deriving Inhabited

abbrev Fields := List (String × Value)

/-! ## Fields of an object -/

namespace Fields

/-- The first field with a given name. -/
def get? (key : String) : Fields → Option Value
  | [] => none
  | (k, v) :: rest => if k = key then some v else get? key rest

/-- The value of a field, null if there is none. -/
def get (key : String) (fields : Fields) : Value := (get? key fields).getD .null

def has (key : String) (fields : Fields) : Bool := (get? key fields).isSome

/-- The fields with a new value for one name, at its place or at the end. -/
def set (key : String) (value : Value) : Fields → Fields
  | [] => [(key, value)]
  | (k, v) :: rest => if k = key then (k, value) :: rest else (k, v) :: set key value rest

def names (fields : Fields) : List String := fields.map (·.1)

/-- The fields with those of a list set one after the other: the last of several with one name
counts, at the place of the first. -/
def ofList (pairs : List (String × Value)) : Fields :=
  pairs.foldl (fun fields (k, v) => set k v fields) []

@[simp] theorem get?_set_self (key : String) (v : Value) (fields : Fields) :
    get? key (set key v fields) = some v := by
  induction fields with
  | nil => simp [set, get?]
  | cons f rest ih =>
    obtain ⟨k, w⟩ := f
    by_cases h : k = key <;> simp [set, get?, h, ih]

theorem get?_set_of_ne {key other : String} (h : other ≠ key) (v : Value) (fields : Fields) :
    get? other (set key v fields) = get? other fields := by
  induction fields with
  | nil => simp [set, get?, Ne.symm h]
  | cons f rest ih =>
    obtain ⟨k, w⟩ := f
    by_cases hk : k = key
    · subst hk; simp [set, get?, Ne.symm h]
    · by_cases ho : k = other
      · subst ho; simp [set, get?, hk]
      · simp [set, get?, hk, ho, ih]

theorem mem_of_get? {key : String} {fields : Fields} {v : Value} (h : get? key fields = some v) :
    (key, v) ∈ fields := by
  induction fields with
  | nil => cases h
  | cons field rest ih =>
    obtain ⟨k, w⟩ := field
    rw [get?] at h
    by_cases hk : k = key
    · rw [if_pos hk] at h
      rw [← hk, ← Option.some.inj h]
      exact List.mem_cons_self
    · rw [if_neg hk] at h
      exact List.mem_cons_of_mem _ (ih h)

end Fields

namespace Value

/-- The number that a value stands for in arithmetic; a truth value counts as one or zero. -/
def number? : Value → Option Number
  | .bool b => some (.int (if b then 1 else 0))
  | .int n => some (.int n)
  | .float x => some (.float x)
  | .fraction q => some (.fraction q)
  | .scalar s => some (.scalar s)
  | _ => none

def ofNumber : Number → Value
  | .int n => .int n
  | .float x => .float x
  | .fraction q => .fraction q
  | .scalar s => .scalar s

/-- The plain value that a scalar holds. -/
def unwrap : Value → Value
  | .scalar (.bool b) => .bool b
  | .scalar s => ofNumber (Number.ofScalar s)
  | v => v

/-- Whether a value counts as true: null, zeros and everything empty do not. -/
def truthy : Value → Bool
  | .null => false
  | .bool b => b
  | .text s => s != ""
  | .list items => !items.isEmpty
  | .object fields => !fields.isEmpty
  | .kind _ => true
  | .moment _ => true
  | v => match v.number? with
    | some n => n.isNonzero
    | none => true

def isNull : Value → Bool
  | .null => true
  | _ => false

/-- A value, or a given one in place of null. -/
def orElse (v fallback : Value) : Value := if v.isNull then fallback else v

/-- A text, or the name of a kind. -/
def asText : Value → Option String
  | .text s => some s
  | .kind k => some k.name
  | _ => none

/-- The number of characters of a text, and zero of anything else. -/
def textLength (v : Value) : Nat := (v.asText.map String.length).getD 0

/-- The kind that a value names: a kind itself, or a text that is its name. -/
def kind? : Value → Option EventKind
  | .kind k => some k
  | .text s => EventKind.ofName? s
  | _ => none

/-- The name of a value's type, as messages give it. -/
def typeName : Value → String
  | .null => "NoneType"
  | .bool _ => "bool"
  | .int _ => "int"
  | .float _ => "float"
  | .text _ => "str"
  | .list _ => "list"
  | .object _ => "dict"
  | .fraction _ => "Fraction"
  | .scalar s => "numpy." ++ s.kind.name
  | .kind _ => "EventType"
  | .moment _ => "datetime.datetime"

/-- The name of a value's type without the module it is declared in. -/
def shortTypeName (v : Value) : String :=
  match v with
  | .moment _ => "datetime"
  | .scalar s => s.kind.name
  | _ => v.typeName

/-- Whether a value can be a key; lists and objects cannot. -/
def isHashable : Value → Bool
  | .list _ => false
  | .object _ => false
  | _ => true

end Value

end TypingTrace
