import TypingTrace.Session.Basic
import TypingTrace.Value.Order

/-!
# Batches with unchecked objects

Objects that nothing has checked cannot be stored, since they have no target, but a batch that holds
some is sorted before that shows. So the fault is a missing time, a comparison that has no answer,
or the attribute that the first unchecked object in order lacks; and the events before that object
have been given identities by then.

The order of comparisons decides which fault it is. `sortBy` makes those of insertion into sorted
runs: the initial run is extended as far as it goes, and every further item is put in its place by
halving.
-/

namespace TypingTrace

open Time

namespace Entry

def timeOf : Entry → Except Fault Value
  | event r => .ok (.moment r.time.toMoment)
  | loose o => o.readTime

end Entry

section Sorting

variable {α : Type}

/-- The length of the run at the start of a list: descending if its second item is less than the
first, and ascending otherwise. The second component tells which. -/
def initialRun (less : α → α → Except Fault Bool) : List α → Except Fault (Nat × Bool)
  | a :: b :: rest => do
    let down ← less b a
    let rec extend (last : α) : List α → Except Fault Nat
      | [] => .ok 0
      | c :: cs => do
        if (← less c last) == down then return (← extend c cs) + 1 else return 0
    return ((← extend b rest) + 2, down)
  | l => .ok (l.length, false)

/-- The place of an item in a sorted list, after the items that are equal to it; it is looked for
between `low` and `low + width`. -/
def insertionPlace (less : α → α → Except Fault Bool) (x : α) (sorted : Array α) (low : Nat) :
    (width : Nat) → Except Fault Nat
  | 0 => .ok low
  | width + 1 => do
    let middle := low + (width + 1) / 2
    match sorted[middle]? with
    | none => .ok low
    | some y =>
      if ← less x y then insertionPlace less x sorted low ((width + 1) / 2)
      else insertionPlace less x sorted (middle + 1) (width - (width + 1) / 2)
termination_by width => width

/-- A list sorted by an order that may fail. -/
def sortBy (less : α → α → Except Fault Bool) (l : List α) : Except Fault (List α) := do
  let (n, down) ← initialRun less l
  let run := if down then (l.take n).reverse else l.take n
  let sorted ← (l.drop n).foldlM (fun (sorted : Array α) x => do
    let place ← insertionPlace less x sorted 0 sorted.size
    return sorted.insertIdxIfInBounds place x) run.toArray
  return sorted.toList

end Sorting

namespace Session

/-- The batch of entries that are all events. -/
def interactions? (entries : List Entry) : Option (List Interaction) :=
  entries.mapM fun
    | .event r => some r.interaction
    | .loose _ => none

/-- The attribute that keeps an unchecked object from being stored. -/
def missingAttribute (o : Observation) : Fault :=
  .noAttribute Observation.looseType (if o.kind.isNone then "event_type" else "target_element")

/-- The fault of storing entries in the given order, and the number of events before it. -/
def storingFault : List Entry → Option (Fault × Nat)
  | [] => none
  | .event _ :: rest => (storingFault rest).map fun (f, n) => (f, n + 1)
  | .loose o :: _ => some (missingAttribute o, 0)

/-- The fault of appending entries some of which are unchecked, and the number of identities that
are given out before it. -/
def looseFault (entries : List Entry) : Option (Fault × Nat) :=
  let timed := entries.mapM fun e => do return (← e.timeOf, e)
  match timed.bind (sortBy fun a b => a.1.compare .lt b.1) with
  | .error f => some (f, 0)
  | .ok sorted => storingFault (sorted.map (·.2))

end Session

end TypingTrace
