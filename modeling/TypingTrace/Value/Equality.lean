import TypingTrace.Value.Basic

/-!
# Equality of values

Two values are the same if they have one fingerprint: a number is known by its exact value and not
by its kind, a kind of interaction by its name, a clock reading of known offset by its instant, and
an object by its fields in the order of their names. Being the same is an equivalence, and it is
decidable since fingerprints are lists of plain marks.
-/

namespace TypingTrace

/-- A piece of a fingerprint. -/
inductive Mark where
  | null
  | number (q : Rat)
  | infinite (negative : Bool)
  | nan
  | text (s : String)
  | list (length : Nat)
  | object (length : Nat)
  | instant (n : Int)
  | face (n : Int)
  deriving DecidableEq

/-- Whether a fingerprint that starts with this mark is one of a key. -/
def Mark.isKey : Mark → Bool
  | list _ | object _ => false
  | _ => true

/-- The mark of a number. -/
def Number.mark (n : Number) : Mark :=
  match n.place with
  | none => .nan
  | some (0, q) => .number q
  | some (i, _) => .infinite (i < 0)

theorem Number.isKey_mark (n : Number) : n.mark.isKey := by
  unfold mark
  split <;> rfl

namespace Value

mutual

def fingerprint : Value → List Mark
  | .null => [.null]
  | .bool b => [.number (if b then 1 else 0)]
  | .int n => [.number n]
  | .float x => [(Number.float x).mark]
  | .text s => [.text s]
  | .list items => .list items.length :: fingerprints items
  | .object fields =>
    .object fields.length ::
      ((fieldPrints fields).mergeSort fun a b => decide (a.1 ≤ b.1)).flatMap
        fun (k, p) => .text k :: p
  | .fraction q => [.number q]
  | .scalar s => [(Number.scalar s).mark]
  | .kind k => [.text k.name]
  | .moment ⟨face, none⟩ => [.face face]
  | .moment ⟨face, some offset⟩ => [.instant (face - offset)]

def fingerprints : List Value → List Mark
  | [] => []
  | v :: rest => fingerprint v ++ fingerprints rest

def fieldPrints : List (String × Value) → List (String × List Mark)
  | [] => []
  | (k, v) :: rest => (k, fingerprint v) :: fieldPrints rest

end

/-- Whether two values are the same one. -/
def same (a b : Value) : Bool := decide (a.fingerprint = b.fingerprint)

/-- Whether two values are equal; a NaN equals nothing, not even itself. -/
def equals (a b : Value) : Bool := a.same b && !decide (.nan ∈ a.fingerprint)

theorem same_iff {a b : Value} : a.same b ↔ a.fingerprint = b.fingerprint := by simp [same]

@[simp] theorem same_refl (a : Value) : a.same a := by simp [same]

theorem same_symm {a b : Value} (h : a.same b) : b.same a := by
  rw [same_iff] at h ⊢; exact h.symm

theorem same_trans {a b c : Value} (h : a.same b) (h' : b.same c) : a.same c := by
  rw [same_iff] at *; exact h.trans h'

theorem same_congr_left {a b : Value} (h : a.same b) (c : Value) : a.same c = b.same c := by
  simp only [same, same_iff.1 h]

theorem same_congr_right {b c : Value} (h : b.same c) (a : Value) : a.same b = a.same c := by
  simp only [same, same_iff.1 h]

theorem all_isKey (v : Value) : v.fingerprint.head?.all Mark.isKey = v.isHashable := by
  cases v with
  | float x => exact Number.isKey_mark (.float x)
  | scalar s => exact Number.isKey_mark (.scalar s)
  | moment m =>
    obtain ⟨face, offset⟩ := m
    cases offset <;> rfl
  | _ => rfl

/-- Values that are the same are keys alike. -/
theorem isHashable_congr {a b : Value} (h : a.same b) : a.isHashable = b.isHashable := by
  rw [← all_isKey, ← all_isKey, same_iff.1 h]

@[simp] theorem same_text (s t : String) : (text s).same (text t) = decide (s = t) := by
  simp [same, fingerprint]

@[simp] theorem equals_text (s t : String) : (text s).equals (text t) = decide (s = t) := by
  simp [equals, fingerprint]

@[simp] theorem equals_int (m n : Int) : (int m).equals (int n) = decide (m = n) := by
  simp [equals, same, fingerprint]

end Value

end TypingTrace
