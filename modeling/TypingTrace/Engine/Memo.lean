import TypingTrace.Value.Equality

/-!
# Keeping the last result

A memo keeps the result of the last run together with what it was computed from: which sequence, and
which token. A run is needed unless both are the same again. Without a token from outside the
memo's own one counts, and `reset` changes that one.

Sequences are told apart by keys of a type `κ`: two versions of a sequence have different keys.
-/

namespace TypingTrace

structure Memo (κ ρ : Type) where
  /-- The memo's own token. -/
  own : Nat := 0
  last : Option (κ × Value × ρ) := none
  /-- How often the engine was run. -/
  runs : Nat := 0

namespace Memo

variable {κ ρ : Type} [BEq κ]

/-- The token that counts. -/
def token (m : Memo κ ρ) (given : Option Value) : Value := given.getD (.int m.own)

/-- The result that is kept for a sequence and a token. -/
def kept (m : Memo κ ρ) (key : κ) (given : Option Value) : Option ρ :=
  match m.last with
  | some (k, t, result) => if k == key && (m.token given).equals t then some result else none
  | none => none

/-- Whether a run is needed. -/
def needs (m : Memo κ ρ) (key : κ) (given : Option Value) : Bool :=
  match m.last with
  | none => true
  | some (k, t, _) => k != key || !(m.token given).equals t

/-- The memo after a run. -/
def keep (m : Memo κ ρ) (key : κ) (given : Option Value) (result : ρ) : Memo κ ρ :=
  { m with last := some (key, m.token given, result), runs := m.runs + 1 }

/-- The result for a sequence: the one that is kept, or that of a run. -/
def compute {f : Type → Type} [Monad f] (run : f ρ) (key : κ) (given : Option Value)
    (m : Memo κ ρ) : f (ρ × Memo κ ρ) :=
  match m.kept key given with
  | some result => pure (result, m)
  | none => do
    let result ← run
    return (result, m.keep key given result)

/-- Changes the memo's own token. -/
def reset (m : Memo κ ρ) : Memo κ ρ := { m with own := m.own + 1 }

/-- Forgets the last result. -/
def invalidate (m : Memo κ ρ) : Memo κ ρ := { m with last := none }

/-- What is kept was computed from the same sequence. -/
theorem last_of_kept [LawfulBEq κ] {m : Memo κ ρ} {key : κ} {given : Option Value} {result : ρ}
    (h : m.kept key given = some result) : ∃ t, m.last = some (key, t, result) := by
  unfold kept at h
  split at h
  · rename_i k t kept hlast
    split at h
    · rename_i hsame
      rw [Bool.and_eq_true, beq_iff_eq] at hsame
      cases h
      exact ⟨t, hsame.1 ▸ hlast⟩
    · cases h
  · cases h

@[simp] theorem kept_invalidate (m : Memo κ ρ) (key : κ) (given : Option Value) :
    m.invalidate.kept key given = none := rfl

end Memo

end TypingTrace
