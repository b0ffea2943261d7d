import Mathlib.Data.List.Nodup
import TypingTrace.Settings.Tree

/-!
# What stands where in a tree

A path of names leads to at most one value (`Value.reach?`). A value is in the way of a path if it
is no object and a proper part of the path leads to it (`Value.blocks`).

**Theorem (`reach?_overlay`).** When a tree that names each field once is laid over another, then
what it has at the end of a path is laid over what the other has there. Where it has nothing, the
other one's value stands, unless the tree has something in the way.

**Theorem (`mergeFields_mergeFields`).** Laying the same fields over the result once more changes
nothing.

Both are inductions over the tree that is laid over the other, and need to know one field of a merge
at a time (`get?_mergeFields`). For what does not depend on the fields of an object that a path
leads to, all objects count as alike (`Value.peek?`).
-/

namespace TypingTrace

/-! ## Fields -/

namespace Fields

theorem get?_eq_none_iff {key : String} {fields : Fields} :
    get? key fields = none ↔ key ∉ names fields := by
  induction fields with
  | nil => simp [get?, names]
  | cons f rest ih =>
    obtain ⟨k, v⟩ := f
    by_cases h : k = key
    · simp [get?, names, h]
    · simpa [get?, names, h, Ne.symm h] using ih

theorem get?_of_mem {fields : Fields} (h : (names fields).Nodup) {field : String × Value}
    (hmem : field ∈ fields) : get? field.1 fields = some field.2 := by
  induction fields with
  | nil => cases hmem
  | cons f rest ih =>
    obtain ⟨hf, hrest⟩ := List.nodup_cons.1 h
    rcases List.mem_cons.1 hmem with rfl | hmem
    · exact if_pos rfl
    · have hne : f.1 ≠ field.1 := fun heq => hf (List.mem_map.2 ⟨field, hmem, heq.symm⟩)
      exact (if_neg hne).trans (ih hrest hmem)

/-- To set a field to what it is changes nothing. -/
theorem set_of_get?_eq_some {key : String} {fields : Fields} {v : Value}
    (h : get? key fields = some v) : set key v fields = fields := by
  induction fields with
  | nil => cases h
  | cons f rest ih =>
    obtain ⟨k, w⟩ := f
    rw [get?] at h
    split_ifs at h with hk
    · rw [set, if_pos hk, Option.some.inj h]
    · rw [set, if_neg hk, ih h]

end Fields

namespace Value

/-! ## Paths -/

def isObject : Value → Bool
  | .object _ => true
  | _ => false

/-- The value at the end of a path. -/
def reach? : List String → Value → Option Value
  | [], v => some v
  | name :: path, .object fields => (Fields.get? name fields).bind (reach? path)
  | _ :: _, _ => none

/-- Whether a proper part of a path leads to something that is no object. -/
def blocks : List String → Value → Bool
  | [], _ => false
  | name :: path, .object fields => ((Fields.get? name fields).map (blocks path)).getD false
  | _ :: _, _ => true

@[simp] theorem reach?_nil (v : Value) : v.reach? [] = some v := by
  unfold reach?
  rfl

@[simp] theorem reach?_object (name : String) (path : List String) (fields : Fields) :
    (object fields).reach? (name :: path) = (Fields.get? name fields).bind (reach? path) := rfl

theorem blocks_nil (v : Value) : v.blocks [] = false := by cases v <;> rfl

theorem isObject_iff {v : Value} : v.isObject ↔ ∃ fields, v = .object fields := by
  cases v <;> simp [isObject]

theorem reach?_of_not_isObject {v : Value} (h : ¬ v.isObject) (name : String)
    (path : List String) : v.reach? (name :: path) = none := by
  cases v with
  | object fields => exact absurd rfl h
  | _ => rfl

theorem blocks_of_not_isObject {v : Value} (h : ¬ v.isObject) (name : String)
    (path : List String) : v.blocks (name :: path) := by
  cases v with
  | object fields => exact absurd rfl h
  | _ => rfl

theorem reach?_append (p q : List String) (v : Value) :
    v.reach? (p ++ q) = (v.reach? p).bind (reach? q) := by
  induction p generalizing v with
  | nil => simp
  | cons name p ih =>
    by_cases h : v.isObject
    · obtain ⟨fields, rfl⟩ := isObject_iff.1 h
      rw [List.cons_append, reach?_object, reach?_object, Option.bind_assoc]
      exact congrArg _ (funext ih)
    · rw [List.cons_append, reach?_of_not_isObject h, reach?_of_not_isObject h, Option.bind_none]

/-- Reading a path takes null where it leads nowhere. -/
theorem atPath_eq (path : List String) (v : Value) :
    v.atPath path = (v.reach? path).getD .null := by
  induction path generalizing v with
  | nil => simp [atPath]
  | cons name path ih =>
    by_cases h : v.isObject
    · obtain ⟨fields, rfl⟩ := isObject_iff.1 h
      rw [atPath, ih, reach?_object, Fields.get]
      cases Fields.get? name fields with
      | none => cases path <;> simp [reach?]
      | some w => rfl
    · rw [reach?_of_not_isObject h]
      cases v with
      | object fields => exact absurd rfl h
      | _ => rfl

theorem blocks_append (p q : List String) (v : Value) :
    v.blocks (p ++ q) = (v.blocks p || (v.reach? p).any (blocks q)) := by
  induction p generalizing v with
  | nil => simp [blocks_nil]
  | cons name p ih =>
    by_cases h : v.isObject
    · obtain ⟨fields, rfl⟩ := isObject_iff.1 h
      rw [List.cons_append, blocks, blocks, reach?_object]
      cases Fields.get? name fields with
      | none => rfl
      | some w => exact ih w
    · rw [List.cons_append, blocks_of_not_isObject h, blocks_of_not_isObject h]
      rfl

theorem exists_of_blocks {path : List String} {v : Value} (h : v.blocks path) :
    ∃ q w, q <+: path ∧ q ≠ path ∧ v.reach? q = some w ∧ ¬ w.isObject := by
  induction path generalizing v with
  | nil =>
    rw [blocks_nil] at h
    cases h
  | cons name path ih =>
    by_cases hv : v.isObject
    · obtain ⟨fields, rfl⟩ := isObject_iff.1 hv
      rw [blocks] at h
      cases hget : Fields.get? name fields with
      | none => simp [hget] at h
      | some v =>
        obtain ⟨q, w, hq, hne, hreach, hw⟩ := ih (by simpa [hget] using h)
        refine ⟨name :: q, w, (List.prefix_cons_inj name).2 hq, ?_, ?_, hw⟩
        · exact fun heq => hne (List.cons.inj heq).2
        · rw [reach?_object, hget, Option.bind_some, hreach]
    · exact ⟨[], v, List.nil_prefix, (List.cons_ne_nil name path).symm, reach?_nil v, hv⟩

/-- What is in the way of a path. -/
theorem blocks_iff {path : List String} {v : Value} :
    v.blocks path ↔ ∃ q w, q <+: path ∧ q ≠ path ∧ v.reach? q = some w ∧ ¬ w.isObject := by
  refine ⟨exists_of_blocks, ?_⟩
  rintro ⟨q, w, ⟨r, rfl⟩, hne, hreach, hw⟩
  cases r with
  | nil => exact absurd (List.append_nil q).symm hne
  | cons name r =>
    rw [blocks_append, hreach, Option.any_some, blocks_of_not_isObject hw, Bool.or_true]

/-- A path that something is in the way of leads nowhere. -/
theorem reach?_of_blocks {path : List String} {v : Value} (h : v.blocks path) :
    v.reach? path = none := by
  obtain ⟨q, w, ⟨r, rfl⟩, hne, hreach, hw⟩ := blocks_iff.1 h
  rw [reach?_append, hreach, Option.bind_some]
  cases r with
  | nil => exact absurd (List.append_nil q).symm hne
  | cons name r => exact reach?_of_not_isObject hw name r

/-- What is in the way of a field is in the way of the object around it, or is in the place of
this object. -/
theorem blocks_snoc (path : List String) (name : String) (v : Value) :
    v.blocks (path ++ [name]) =
      match v.reach? path with
      | some w => !w.isObject
      | none => v.blocks path := by
  rw [blocks_append]
  cases hreach : v.reach? path with
  | none => exact Bool.or_false _
  | some w =>
    have hfree : v.blocks path = false := by
      by_contra h
      rw [reach?_of_blocks (by simpa using h)] at hreach
      cases hreach
    have hfield : w.blocks [name] = !w.isObject := by
      cases w with
      | object fields =>
        rw [blocks, funext blocks_nil]
        cases Fields.get? name fields <;> rfl
      | _ => rfl
    rw [hfree, Bool.false_or, Option.any_some, hfield]

/-! ## Trees laid over others -/

/-- A value whose objects, one inside the other, name each field once. -/
inductive IsTree : Value → Prop
  | object {fields : Fields} (names : fields.names.Nodup)
      (values : ∀ field ∈ fields, IsTree field.2) : IsTree (.object fields)
  | leaf {v : Value} (h : ¬ v.isObject) : IsTree v

/-- Only objects are laid over objects. -/
theorem overlay_of_forall {base : Option Value} (h : ∀ b ∈ base, ¬ b.isObject) (v : Value) :
    overlay base v = v := by
  unfold overlay
  split
  · exact absurd rfl (h _ rfl)
  · rfl

theorem overlay_of_not_isObject {v : Value} (h : ¬ v.isObject) (base : Option Value) :
    overlay base v = v := by
  unfold overlay
  split
  · exact absurd rfl h
  · rfl

theorem isObject_overlay (base : Option Value) (v : Value) :
    (overlay base v).isObject = v.isObject := by
  unfold overlay
  split <;> rfl

/-- One field of a merge. -/
theorem get?_mergeFields {fields : Fields} (h : fields.names.Nodup) (base : Fields) (key : String) :
    Fields.get? key (mergeFields base fields) =
      match Fields.get? key fields with
      | some v => some (overlay (Fields.get? key base) v)
      | none => Fields.get? key base := by
  induction fields generalizing base with
  | nil => rw [mergeFields]; rfl
  | cons f rest ih =>
    obtain ⟨k, v⟩ := f
    obtain ⟨hk, hrest⟩ := List.nodup_cons.1 h
    rw [mergeFields, ih hrest, Fields.get?]
    by_cases hkey : k = key
    · subst hkey
      rw [Fields.get?_eq_none_iff.2 hk, if_pos rfl, Fields.get?_set_self]
    · rw [if_neg hkey, Fields.get?_set_of_ne (Ne.symm hkey)]

theorem reach?_singleton (name : String) (fields : Fields) :
    (object fields).reach? [name] = Fields.get? name fields := by
  rw [reach?_object]
  cases Fields.get? name fields <;> simp

/-- One field of an overlay. -/
theorem reach?_overlay_singleton {fields : Fields} (h : fields.names.Nodup) (base : Option Value)
    (name : String) : (overlay base (.object fields)).reach? [name] =
      match Fields.get? name fields with
      | some v => some (overlay (base.bind (reach? [name])) v)
      | none => base.bind (reach? [name]) := by
  by_cases hbase : ∃ b ∈ base, b.isObject
  · obtain ⟨b, rfl, hb⟩ := hbase
    obtain ⟨base, rfl⟩ := isObject_iff.1 hb
    rw [overlay, Option.bind_some, reach?_singleton, reach?_singleton, get?_mergeFields h]
  · have hnone : base.bind (reach? [name]) = none :=
      Option.bind_eq_none_iff.2 fun b hb => reach?_of_not_isObject (fun h => hbase ⟨b, hb, h⟩) _ _
    rw [overlay_of_forall (fun b hb h => hbase ⟨b, hb, h⟩), reach?_singleton, hnone]
    cases Fields.get? name fields with
    | none => rfl
    | some v =>
      have hnothing : ∀ b ∈ (none : Option Value), ¬ b.isObject := by simp
      exact congrArg some (overlay_of_forall hnothing v).symm

/-- **Overlays, path by path.** -/
theorem reach?_overlay {v : Value} (h : v.IsTree) (base : Option Value) (path : List String) :
    (overlay base v).reach? path =
      match v.reach? path with
      | some w => some (overlay (base.bind (reach? path)) w)
      | none => if v.blocks path then none else base.bind (reach? path) := by
  induction h generalizing base path with
  | leaf h =>
    rw [overlay_of_not_isObject h]
    cases path with
    | nil => simp [overlay_of_not_isObject h]
    | cons name path => rw [reach?_of_not_isObject h, blocks_of_not_isObject h name path]; rfl
  | @object fields hnames hvalues ih =>
    cases path with
    | nil => cases base <;> simp
    | cons name path =>
      -- the first name is a field, and the field is an overlay of the fields with this name
      have hstep : reach? (name :: path) = fun v => (v.reach? [name]).bind (reach? path) :=
        funext (reach?_append [name] path)
      rw [hstep, ← Option.bind_assoc]
      beta_reduce
      rw [reach?_overlay_singleton hnames, reach?_singleton, blocks]
      cases hget : Fields.get? name fields with
      | none => rfl
      | some v => exact ih _ (Fields.mem_of_get? hget) _ path

/-! ## The same fields once more -/

/-- To lay over what is there what would not change it does nothing. -/
theorem mergeFields_eq_self {fields base : Fields}
    (h : ∀ field ∈ fields, ∃ w, Fields.get? field.1 base = some w ∧ overlay (some w) field.2 = w) :
    mergeFields base fields = base := by
  induction fields with
  | nil => unfold mergeFields; rfl
  | cons f rest ih =>
    obtain ⟨w, hget, hw⟩ := h f List.mem_cons_self
    rw [mergeFields, hget, hw, Fields.set_of_get?_eq_some hget]
    exact ih fun field hfield => h field (List.mem_cons_of_mem f hfield)

theorem overlay_overlay {v : Value} (h : v.IsTree) (base : Option Value) :
    overlay (some (overlay base v)) v = overlay base v := by
  induction h generalizing base with
  | leaf h => rw [overlay_of_not_isObject h, overlay_of_not_isObject h]
  | @object fields hnames _ ih =>
    have hfields := reach?_overlay_singleton hnames base
    obtain ⟨result, hresult⟩ := isObject_iff.1 (isObject_overlay base (.object fields))
    rw [hresult] at hfields ⊢
    rw [overlay]
    refine congrArg object (mergeFields_eq_self fun field hfield => ?_)
    have hget := hfields field.1
    rw [reach?_singleton, Fields.get?_of_mem hnames hfield] at hget
    exact ⟨_, hget, ih field hfield _⟩

/-- **Idempotence.** -/
theorem mergeFields_mergeFields {fields : Fields} (h : (object fields).IsTree) (base : Fields) :
    mergeFields (mergeFields base fields) fields = mergeFields base fields := by
  have hoverlay := overlay_overlay h (some (.object base))
  rw [overlay, overlay] at hoverlay
  exact object.inj hoverlay

/-! ## Objects alike -/

/-- A value, an object without its fields. -/
def hollow : Value → Value
  | .object _ => .object []
  | v => v

/-- What a path leads to, an object without its fields. -/
def peek? (path : List String) (v : Value) : Option Value := (v.reach? path).map hollow

theorem hollow_of_not_isObject {v : Value} (h : ¬ v.isObject) : v.hollow = v := by
  cases v with
  | object fields => exact absurd rfl h
  | _ => rfl

theorem isObject_hollow (v : Value) : v.hollow.isObject = v.isObject := by cases v <;> rfl

theorem hollow_eq_nil_iff {v : Value} : v.hollow = .object [] ↔ v.isObject := by
  cases v <;> simp [hollow, isObject]

theorem peek?_nil (v : Value) : v.peek? [] = some v.hollow := by rw [peek?, reach?_nil]; rfl

theorem peek?_object (name : String) (path : List String) (fields : Fields) :
    (object fields).peek? (name :: path) = (Fields.get? name fields).bind (peek? path) := by
  rw [peek?, reach?_object, Option.map_bind]
  rfl

theorem peek?_of_not_isObject {v : Value} (h : ¬ v.isObject) (name : String)
    (path : List String) : v.peek? (name :: path) = none := by
  rw [peek?, reach?_of_not_isObject h]
  rfl

/-- What is no object is the same where it looks the same. -/
theorem reach?_of_peek?_eq {v v' : Value} {path : List String} (h : v'.peek? path = v.peek? path)
    (hleaf : ∀ w ∈ v.reach? path, ¬ w.isObject) : v'.reach? path = v.reach? path := by
  cases hreach : v.reach? path with
  | none =>
    rw [peek?, peek?, hreach] at h
    exact Option.map_eq_none_iff.1 h
  | some w =>
    have hw := hleaf w hreach
    rw [peek?, peek?, hreach, Option.map_some, hollow_of_not_isObject hw] at h
    obtain ⟨w', hreach', hhollow⟩ := Option.map_eq_some_iff.1 h
    have hw' : ¬ w'.isObject := by rwa [← isObject_hollow, hhollow]
    rw [hreach', ← hhollow, hollow_of_not_isObject hw']

theorem hollow_overlay (base : Option Value) (v : Value) : (overlay base v).hollow = v.hollow := by
  unfold overlay
  split <;> rfl

/-- Overlays, objects counting as alike. -/
theorem peek?_overlay {v : Value} (h : v.IsTree) (base : Option Value) (path : List String) :
    (overlay base v).peek? path =
      match v.peek? path with
      | some w => some w
      | none => if v.blocks path then none else base.bind (peek? path) := by
  rw [peek?, peek?, reach?_overlay h]
  cases v.reach? path with
  | none =>
    cases v.blocks path with
    | true => rfl
    | false => exact Option.map_bind ..
  | some w => exact congrArg some (hollow_overlay _ w)

end Value

end TypingTrace
