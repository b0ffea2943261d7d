import TypingTrace.Metric.Burst
import TypingTrace.Metric.Pause

/-!
# Corrections and the clipboard

Deletions, their number per character typed, and the runs they come in. A run of deletions ends
with the next press of a key; other events do not end it.

How often text was pasted, copied and cut, and how much of the last text the pastes brought in. The
share is estimated from lengths alone, and is zero if the last event has no text.
-/

namespace TypingTrace

/-! ## Corrections -/

def deletionCount (events : List Observation) : Nat := (ofKind .delete events).length

/-- Deletions per character typed; zero if none was typed. -/
def deletionRate (events : List Observation) : Number :=
  let typed := (characterKeys events).length
  if typed = 0 then 0 else .float (Number.ratio (deletionCount events) typed)

/-- The number of runs of deletions that start; `inside` tells whether one is open before the
first event. -/
def correctionsFrom (inside : Bool) : List Observation → Nat
  | [] => 0
  | o :: rest =>
    if o.isKind .delete then (if inside then 0 else 1) + correctionsFrom true rest
    else if o.isKind .keydown then correctionsFrom false rest
    else correctionsFrom inside rest

def correctionCount (events : List Observation) : Nat := correctionsFrom false events

/-! ## The clipboard -/

/-- The number of characters in the text after the last event. -/
def lastTextLength (events : List Observation) : Nat :=
  (events.getLast?.map Observation.textLength).getD 0

structure Clipboard where
  pastes : Nat
  copies : Nat
  cuts : Nat
  pastedCharacters : Nat
  pasteRatio : Number

/-- A share in percent. -/
def percentage (part whole : Nat) : Number :=
  if whole = 0 then 0 else .float (Number.ratio part whole * 100.0)

def clipboard (events : List Observation) : Clipboard :=
  let pastes := ofKind .paste events
  let pasted := pastes.foldr (fun o total => o.pastedLength + total) 0
  ⟨pastes.length, (ofKind .copy events).length, (ofKind .cut events).length, pasted,
    percentage pasted (lastTextLength events)⟩

end TypingTrace
