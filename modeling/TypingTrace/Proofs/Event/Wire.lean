import TypingTrace.Event.Wire

/-!
# Which values are events on the wire

`Value.isEvent` says which values stand for an event, field by field and without reading any of
them. Reading (`Interaction.ofWire`) accepts just these, and a batch is read if all its items are of
them.

**Theorem (`checked_ofWire`).** What is no event is refused, as a malformed event and as nothing
else.

**Theorem (`checked_mapM`).** So is a list in which anything is refused.

Rows, which may carry an identity and a time of acceptance, have a check of their own
(`Value.isRow`, `checked_row`).

What a value with integers of too many digits is refused for can often not be told, and then the
fault is that of writing. It is refused for this alone only if its key code or a part of its
identity cannot be written, which are kept as texts.
-/

namespace TypingTrace

open Time

variable {α β : Type}

/-! ## Checks -/

/-- A check that a truth value decides, and that knows no other fault than a malformed event. If
something cannot be written, there is also the fault of that. -/
inductive Checked (writable : Bool) : Bool → Except Fault α → Prop
  | ok (a : α) : Checked writable true (.ok a)
  | refused {f : Fault} : f.kind = "MalformedEvent" ∨ writable = false ∧ f.kind = "ValueError" →
      Checked writable false (.error f)

namespace Checked

variable {w w' p q : Bool} {x : Except Fault α}

theorem malformed {f : Fault} (h : f.kind = "MalformedEvent") :
    Checked w false (.error f : Except Fault α) := .refused (.inl h)

theorem of_ok {a : α} (h : Checked w p (.ok a)) : p = true := by
  cases h
  rfl

theorem of_error {f : Fault} (h : Checked w p (.error f : Except Fault α)) :
    p = false ∧ (f.kind = "MalformedEvent" ∨ w = false ∧ f.kind = "ValueError") := by
  cases h with
  | refused hkind => exact ⟨rfl, hkind⟩

/-- What passes the check is read. -/
theorem exists_ok (h : Checked w true x) : ∃ a, x = .ok a := by
  cases h with
  | ok a => exact ⟨a, rfl⟩

/-- Whatever a part holds, the whole holds. -/
theorem mono (h : Checked w p x) (hw : w' = true → w = true) : Checked w' p x := by
  cases h with
  | ok a => exact .ok a
  | refused hkind =>
    refine .refused (hkind.imp_right fun ⟨hunwritable, hkind⟩ => ⟨?_, hkind⟩)
    rw [← Bool.not_eq_true]
    exact fun h => by simp [hw h] at hunwritable

theorem bind {f : α → Except Fault β} (hx : Checked w p x) (hf : ∀ a, Checked w q (f a)) :
    Checked w (p && q) (x >>= f) := by
  cases hx with
  | ok a => exact hf a
  | refused h => exact .refused h

end Checked

/-- A malformed event is reported as one if it can be. -/
theorem checked_fault {f : Fault} (hkind : f.ownKind = "MalformedEvent") :
    Checked f.isWritable false (.error f : Except Fault α) := by
  have hcases : f.kind = f.ownKind ∨ f.isWritable = false ∧ f.kind = "ValueError" :=
    Fault.kind_cases id
  rw [hkind] at hcases
  exact .refused hcases

/-- A malformed event about a value. -/
theorem checked_fault_of_shown {f : Fault} {v : Value} (hkind : f.ownKind = "MalformedEvent")
    (hshown : f.shown = [v]) : Checked v.isWritable false (.error f : Except Fault α) := by
  refine (checked_fault hkind).mono fun hv => ?_
  simp [Fault.isWritable, hshown, hv]

theorem checked_write (v : Value) : Checked v.isWritable v.isWritable v.write := by
  unfold Value.write
  cases v.isWritable with
  | true => exact .ok _
  | false => exact .refused (.inr ⟨rfl, by decide⟩)

theorem checked_mapM {w : Bool} {p : α → Bool} {f : α → Except Fault β} {l : List α}
    (hf : ∀ a ∈ l, Checked w (p a) (f a)) : Checked w (l.all p) (l.mapM f) := by
  induction l with
  | nil => exact .ok []
  | cons a l ih =>
    rw [List.mapM_cons, List.all_cons]
    refine (hf a List.mem_cons_self).bind fun b => ?_
    rw [← Bool.and_true (l.all p)]
    exact (ih fun b hb => hf b (List.mem_cons_of_mem a hb)).bind fun bs => .ok (b :: bs)

/-- What is read from a list is read from its items, one by one. -/
theorem map_eq_of_mapM {f : α → Except Fault β} {l : List α} {bs : List β}
    (h : l.mapM f = .ok bs) : l.map f = bs.map .ok := by
  induction l generalizing bs with
  | nil =>
    cases h
    rfl
  | cons a l ih =>
    rw [List.mapM_cons] at h
    cases ha : f a with
    | error e => simp [ha, bind, Except.bind] at h
    | ok b =>
      cases hl : l.mapM f with
      | error e => simp [ha, hl, bind, Except.bind] at h
      | ok rest =>
        simp only [ha, hl, bind, Except.bind, pure, Except.pure] at h
        cases h
        rw [List.map_cons, List.map_cons, ha, ih hl]

/-! ## Events -/

namespace Fields

/-- Whether a position is absent or a non-negative integer. -/
def hasPosition (name : String) (fields : Fields) : Bool :=
  match fields.get name with
  | .null => true
  | .int n => decide (0 ≤ n)
  | _ => false

/-- Whether the metadata is an object, or counts as absent. -/
def hasMetadata (fields : Fields) : Bool :=
  match fields.get "metadata" with
  | .object _ => true
  | v => !v.truthy

/-- Whether there is a time, and one that the calendar has. -/
def hasTime (fields : Fields) : Bool :=
  ((fields.get? "timestamp").bind Stamp.ofValue?).isSome

/-- Whether the fields of an object are those of an event. -/
def areEvent (fields : Fields) : Bool :=
  (fields.get "eventType").kind?.isSome && ((fields.get "keyCode").isWritable &&
    (hasMetadata fields && (hasTime fields && (hasPosition "cursorPosition" fields &&
      (hasPosition "selectionStart" fields && hasPosition "selectionEnd" fields)))))

end Fields

/-- Whether a value stands for an event. -/
def Value.isEvent : Value → Bool
  | .object fields => Fields.areEvent fields
  | _ => false

/-! ### What can be written -/

namespace Fields

variable {fields : Fields} {key : String} {v : Value}

theorem isWritable_of_get? (hfields : Value.haveWritable fields) (h : fields.get? key = some v) :
    v.isWritable := by
  rw [Value.haveWritable_eq] at hfields
  exact List.all_eq_true.1 hfields _ (mem_of_get? h)

/-- What is true of null and of what is written in a field is true of the field. -/
theorem get_of_forall {p : Value → Prop} (hnull : p .null)
    (h : ∀ v, fields.get? key = some v → p v) : p (fields.get key) := by
  unfold get
  cases hv : fields.get? key with
  | none => exact hnull
  | some v => exact h v hv

theorem isWritable_get (hfields : Value.haveWritable fields) (key : String) :
    (fields.get key).isWritable :=
  get_of_forall (p := fun v => v.isWritable) rfl fun _ => isWritable_of_get? hfields

end Fields

/-! ### Reading -/

section

variable (fields : Fields)

theorem checked_readKind : Checked (Value.haveWritable fields)
    (fields.get "eventType").kind?.isSome (readKind fields) := by
  unfold readKind
  cases (fields.get "eventType").kind? with
  | none => exact (checked_fault_of_shown rfl rfl).mono (Fields.isWritable_get · "eventType")
  | some k => exact .ok k

theorem checked_readKeyCode : Checked (Value.haveWritable fields)
    (fields.get "keyCode").isWritable (readKeyCode fields) := by
  have hwrite := (checked_write (fields.get "keyCode")).mono (Fields.isWritable_get · "keyCode")
  unfold readKeyCode
  generalize fields.get "keyCode" = v at hwrite
  rw [← Bool.and_true v.isWritable]
  cases v with
  | null => exact .ok none
  | _ => exact hwrite.bind fun text => .ok (some text)

theorem checked_readMetadata : Checked (Value.haveWritable fields)
    (Fields.hasMetadata fields) (readMetadata fields) := by
  unfold readMetadata Fields.hasMetadata
  generalize fields.get "metadata" = v
  by_cases hv : v.truthy
  · rw [if_pos hv]
    cases v with
    | object metadata => exact .ok metadata
    | _ =>
      simp only [hv]
      exact .malformed (by decide)
  · rw [if_neg hv]
    rw [Bool.not_eq_true] at hv
    cases v with
    | object metadata => exact .ok []
    | _ =>
      simp only [hv]
      exact .ok []

theorem checked_readPosition (name : String) : Checked (Value.haveWritable fields)
    (Fields.hasPosition name fields) (readPosition fields name) := by
  have hwritable : Value.haveWritable fields → (fields.get name).isWritable :=
    (Fields.isWritable_get · name)
  unfold readPosition Fields.hasPosition
  generalize fields.get name = v at hwritable
  have hrefused : Checked (Value.haveWritable fields) false
      (.error (.invalidPosition name v) : Except Fault (Option Nat)) :=
    (checked_fault_of_shown rfl rfl).mono hwritable
  cases v with
  | null => exact .ok none
  | int n =>
    cases n with
    | ofNat n =>
      show Checked _ (decide (0 ≤ (n : Int))) _
      rw [decide_eq_true (Int.natCast_nonneg n)]
      exact .ok (some n)
    | negSucc n =>
      show Checked _ (decide (0 ≤ Int.negSucc n)) _
      rw [decide_eq_false (Int.not_le.2 (Int.negSucc_lt_zero n))]
      exact hrefused
  | _ => exact hrefused

end

theorem checked_stamp (v : Value) :
    Checked v.isWritable (Stamp.ofValue? v).isSome (Stamp.ofWire v) := by
  unfold Stamp.ofWire
  cases Stamp.ofValue? v with
  | none => exact checked_fault_of_shown rfl rfl
  | some t => exact .ok t

theorem checked_ofFields (fields : Fields) : Checked (Value.haveWritable fields)
    (Fields.areEvent fields) (Interaction.ofFields fields) := by
  refine (checked_readKind fields).bind fun kind => ?_
  rw [Fields.hasTime]
  cases hsent : fields.get? "timestamp" with
  | none =>
    -- A missing time is noticed before the metadata are looked at.
    show Checked _ (_ && (Fields.hasMetadata fields && false)) _
    rw [Bool.and_false, Bool.and_false]
    exact .malformed (by decide)
  | some sent =>
    refine (checked_readKeyCode fields).bind fun keyCode => ?_
    refine (checked_readMetadata fields).bind fun metadata => ?_
    refine ((checked_stamp sent).mono (Fields.isWritable_of_get? · hsent)).bind fun time => ?_
    refine (checked_readPosition fields "cursorPosition").bind fun cursor => ?_
    refine (checked_readPosition fields "selectionStart").bind fun selectionStart => ?_
    rw [← Bool.and_true (Fields.hasPosition "selectionEnd" fields)]
    exact (checked_readPosition fields "selectionEnd").bind fun selectionEnd => .ok _

/-- Reading accepts just the values that stand for events. -/
theorem checked_ofWire (v : Value) : Checked v.isWritable v.isEvent (Interaction.ofWire v) := by
  cases v with
  | object fields => exact checked_ofFields fields
  | _ => exact .malformed (by rfl)

/-! ## Rows -/

namespace Fields

/-- Whether the time of acceptance counts as absent, or is one that the calendar has. -/
def hasAcceptance (fields : Fields) : Bool :=
  !(fields.get "createdAt").truthy || (Stamp.ofValue? (fields.get "createdAt")).isSome

/-- Whether a part of an identity is missing or can be written. -/
def hasPart (name : String) (fields : Fields) : Bool :=
  ((fields.get? name).getD (.text "")).isWritable

/-- Whether the fields of an object are those of a row. Without any part of an identity the time of
acceptance does not matter. -/
def areRow (fields : Fields) : Bool :=
  areEvent fields && (!Row.carriesIdentity fields || (hasPart "id" fields &&
    (hasPart "sessionId" fields && (hasPart "projectId" fields && hasAcceptance fields))))

end Fields

/-- Whether a value stands for a row. -/
def Value.isRow : Value → Bool
  | .object fields => Fields.areRow fields
  | _ => false

section

variable (fields : Fields)

theorem checked_identityPart (name : String) : Checked (Value.haveWritable fields)
    (Fields.hasPart name fields) (Row.identityPart fields name) := by
  refine (checked_write _).mono fun hfields => ?_
  cases h : fields.get? name with
  | none => rfl
  | some v => exact Fields.isWritable_of_get? hfields h

theorem checked_ofWireIfAny : Checked (Value.haveWritable fields)
    (Fields.hasAcceptance fields) (Stamp.ofWireIfAny (fields.get "createdAt")) := by
  have hstamp := (checked_stamp (fields.get "createdAt")).mono fun hfields =>
    Fields.isWritable_get hfields "createdAt"
  unfold Stamp.ofWireIfAny Fields.hasAcceptance
  generalize fields.get "createdAt" = v at hstamp
  by_cases hv : v.truthy
  · simp only [hv, if_true, Bool.not_true, Bool.false_or]
    rw [← Bool.and_true (Stamp.ofValue? v).isSome]
    exact hstamp.bind fun t => .ok (some t)
  · simp only [hv]
    exact .ok none

end

/-- Reading accepts just the values that stand for rows. -/
theorem checked_row (v : Value) : Checked v.isWritable v.isRow (Row.ofWire v) := by
  cases v with
  | object fields =>
    refine (checked_ofFields fields).bind fun interaction => ?_
    by_cases hidentity : Row.carriesIdentity fields
    · simp only [hidentity, if_true, Bool.not_true, Bool.false_or]
      refine (checked_identityPart fields "id").bind fun id => ?_
      refine (checked_identityPart fields "sessionId").bind fun session => ?_
      refine (checked_identityPart fields "projectId").bind fun project => ?_
      rw [← Bool.and_true (Fields.hasAcceptance fields)]
      exact (checked_ofWireIfAny fields).bind fun accepted => .ok _
    · simp only [hidentity]
      exact .ok _
  | _ => exact .malformed (by rfl)

end TypingTrace
