import TypingTrace.Event.Observation
import TypingTrace.Time.Wire
import TypingTrace.Value.Table
import TypingTrace.Value.Order

/-!
# Filters

A filter holds up to six criteria, of which an event must meet every one that is set, and a page:
an offset and a limit on what is left. `Filter.check` builds one and refuses dates in the wrong
order, negative bounds of the page, and names that are no kind, in this order.

A row can always be tested (`Filter.admits`); testing an unchecked object may fail
(`Filter.admitsEntry`).
-/

namespace TypingTrace

open Time

structure Filter where
  project : Value := .null
  session : Value := .null
  owner : Value := .null
  start : Option Stamp := none
  stop : Option Stamp := none
  kinds : Option (List EventKind) := none
  limit : Value := .null
  offset : Value := .null

namespace Filter

/-- A bound of a page: null, or a number that is not negative. -/
def checkBound (negative : Fault) (v : Value) : Except Fault Unit :=
  if v.isNull then .ok ()
  else do if ← v.compare .lt (.int 0) then .error negative

/-- The kinds that a collection names. -/
def checkKinds (v : Value) : Except Fault (Option (List EventKind)) := do
  if v.isNull then return none
  let kinds ← (← v.items).mapM fun item => match item.kind? with
    | some k => .ok k
    | none => .error (.notAKind item)
  return some kinds

/-- Whether a start, if there is one, is after the stop, if there is one. -/
def reversed (start stop : Option Stamp) : Bool :=
  match start, stop with
  | some a, some b => b.instant < a.instant
  | _, _ => false

/-- A filter of checked criteria. -/
def check (project session owner : Value) (start stop : Option Stamp) (kinds limit offset : Value) :
    Except Fault Filter := do
  if reversed start stop then throw .datesReversed
  checkBound .negativeLimit limit
  checkBound .negativeOffset offset
  let kinds ← checkKinds kinds
  return { project, session, owner, start, stop, kinds, limit, offset }

/-! ## Testing one event -/

/-- Whether a criterion is unset or equal to a value; null equals none that is set. -/
def meets (criterion v : Value) : Bool := criterion.isNull || v.equals criterion

/-- Whether a time is neither before the start nor after the stop. -/
def within (f : Filter) (t : Stamp) : Bool :=
  (f.start.map fun a => decide (a.instant ≤ t.instant)).getD true &&
    (f.stop.map fun b => decide (t.instant ≤ b.instant)).getD true

/-- Whether a row meets every criterion, given the owner of its session. -/
def admits (f : Filter) (owner : Value) (r : Row) : Bool :=
  meets f.project r.project && meets f.session r.session && meets f.owner owner &&
    f.within r.time && (f.kinds.map (·.contains r.kind)).getD true

/-- Whether the time of an unchecked object is outside a bound. -/
def outside (c : Comparison) (bound : Option Stamp) (time : Option Value) : Except Fault Bool :=
  match bound, time with
  | none, _ => .ok false
  | some _, none => .error (.noAttribute Observation.looseType "timestamp")
  | some b, some t => t.compare c (.moment b.toMoment)

/-- Whether an entry meets every criterion. -/
def admitsEntry (f : Filter) (owner : Value) : Entry → Except Fault Bool
  | .event r => .ok (f.admits owner r)
  | .loose o => do
    if !(meets f.project .null && meets f.session .null && meets f.owner owner) then return false
    if ← outside .lt f.start o.time then return false
    if ← outside .gt f.stop o.time then return false
    match f.kinds, o.kind with
    | none, _ => return true
    | some _, none => throw (.noAttribute Observation.looseType "event_type")
    | some kinds, some v => return (v.kind?.map kinds.contains).getD false

/-! ## Pages -/

/-- A bound as a number of items; a truth value counts as one or none. -/
def bound? (v : Value) : Option Nat :=
  match v.number? with
  | some (.int n) => some n.toNat
  | _ => none

/-- The page of a list that a filter asks for. An offset that counts as false is zero. -/
def page {α : Type} (f : Filter) (l : List α) : Except Fault (List α) :=
  match (if f.offset.truthy then bound? f.offset else some 0) with
  | none => .error .pageBounds
  | some offset =>
    if f.limit.isNull then .ok (l.drop offset)
    else match bound? f.limit with
      | none => .error .pageBounds
      | some limit => .ok ((l.drop offset).take limit)

/-- The page of the rows that meet every criterion. -/
def apply (f : Filter) (owner : Row → Value) (rows : List Row) : Except Fault (List Row) :=
  f.page (rows.filter fun r => f.admits (owner r) r)

/-- The page of the entries that meet every criterion, each with its place in the list. -/
def applyEntries (f : Filter) (owner : Entry → Value) (entries : List Entry) :
    Except Fault (List (Entry × Nat)) := do
  f.page (← entries.zipIdx.filterM fun (e, _) => f.admitsEntry (owner e) e)

end Filter

end TypingTrace
