import TypingTrace.Proofs.Settings.Tree
import TypingTrace.Settings.Loading

/-!
# Settings from the environment

A variable that is set, and numeric where it has to be, overrides the setting at one path
(`Settings.Override`). Overriding succeeds just in case the sections around the setting are an
object (`override_cases`). Then the setting has its value, and what any other path leads to is the
same as before (`peek?_override`), when all objects count as alike (`Value.peek?`): those around the
setting are objects still.

**Theorem (`overrideAll_cases`).** No overriding path is a part of another one. So all overrides
succeed just in case each would on its own, and a failure is a fault of a wrong type.
-/

namespace TypingTrace

namespace Settings

open Value

/-! ## One override -/

theorem kind_assignmentFault (v : Value) : v.assignmentFault.kind = "TypeError" := by
  cases v <;> rfl

theorem kind_subscriptFault (v : Value) : (subscriptFault v).kind = "TypeError" := by
  unfold subscriptFault
  split
  · rfl
  · split_ifs <;> rfl

theorem within_of_not_isObject {v : Value} (h : ¬ v.isObject) (name : String)
    (change : Value → Except Fault Value) : within name change v = .error (subscriptFault v) := by
  cases v with
  | object fields => exact absurd rfl h
  | _ => rfl

theorem assign_of_not_isObject {v : Value} (h : ¬ v.isObject) (name : String) (value : Value) :
    assign name value v = .error v.assignmentFault := by
  cases v with
  | object fields => exact absurd rfl h
  | _ => rfl

/-- A new value for one setting, and the sections around it from outside. -/
structure Override where
  sections : List String
  name : String
  value : Value

namespace Override

def path (o : Override) : List String := o.sections ++ [o.name]

/-- The tree with the new value. -/
def change (o : Override) : Value → Except Fault Value :=
  o.sections.foldr within (assign o.name o.value)

/-- A setting can be overridden just in case it is in an object. -/
theorem change_cases (o : Override) (v : Value) :
    (v.peek? o.sections = some (.object []) ∧ ∃ v', o.change v = .ok v') ∨
    (v.peek? o.sections ≠ some (.object []) ∧
      ∃ f, o.change v = .error f ∧ f.kind = "TypeError") := by
  obtain ⟨sections, name, value⟩ := o
  dsimp only
  induction sections generalizing v with
  | nil =>
    rw [peek?_nil, ne_eq, Option.some_inj, hollow_eq_nil_iff]
    by_cases h : v.isObject
    · obtain ⟨fields, rfl⟩ := isObject_iff.1 h
      exact .inl ⟨h, _, rfl⟩
    · exact .inr ⟨h, _, assign_of_not_isObject h name value, kind_assignmentFault v⟩
  | cons part rest ih =>
    by_cases h : v.isObject
    · obtain ⟨fields, rfl⟩ := isObject_iff.1 h
      have hchange : change ⟨part :: rest, name, value⟩ (.object fields) =
          (change ⟨rest, name, value⟩ (Fields.get part fields)).map fun w =>
            .object (Fields.set part w fields) := by
        show (change ⟨rest, name, value⟩ _ >>= _) = _
        cases change ⟨rest, name, value⟩ (Fields.get part fields) <;> rfl
      rw [peek?_object, hchange]
      have hinner := ih (Fields.get part fields)
      cases hget : Fields.get? part fields with
      | some v =>
        rw [Fields.get, hget, Option.getD_some] at hinner ⊢
        rcases hinner with ⟨hobject, w, hw⟩ | ⟨hobject, f, hf, hkind⟩
        · exact .inl ⟨hobject, _, by rw [hw]; rfl⟩
        · exact .inr ⟨hobject, f, by rw [hf]; rfl, hkind⟩
      | none =>
        -- a missing section is read as null, in which nothing can be set
        rw [Fields.get, hget, Option.getD_none] at hinner ⊢
        rcases hinner with ⟨hobject, -⟩ | ⟨-, f, hf, hkind⟩
        · cases rest <;> simp [peek?, reach?, hollow] at hobject
        · exact .inr ⟨by simp, f, by rw [hf]; rfl, hkind⟩
    · refine .inr ⟨?_, _, within_of_not_isObject h part _, kind_subscriptFault v⟩
      rw [peek?_of_not_isObject h]
      simp

/-- An override sets its setting and leaves everything else as it is. -/
theorem change_ok {o : Override} {v v' : Value} (h : o.change v = .ok v') :
    v.isObject ∧ v'.isObject ∧ v'.reach? o.path = some o.value ∧
      ∀ path, ¬ o.path <+: path → v'.peek? path = v.peek? path := by
  obtain ⟨sections, name, value⟩ := o
  dsimp only [path]
  induction sections generalizing v v' with
  | nil =>
    by_cases hv : v.isObject
    · obtain ⟨fields, rfl⟩ := isObject_iff.1 hv
      obtain rfl := Except.ok.inj h
      refine ⟨rfl, rfl, ?_, fun path hpath => ?_⟩
      · rw [List.nil_append, reach?_singleton, Fields.get?_set_self]
      · cases path with
        | nil => rfl
        | cons k path =>
          have hk : k ≠ name := fun heq => hpath (by simp [heq])
          rw [peek?_object, peek?_object, Fields.get?_set_of_ne hk]
    · rw [change, List.foldr_nil, assign_of_not_isObject hv] at h
      cases h
  | cons part rest ih =>
    by_cases hv : v.isObject
    · obtain ⟨fields, rfl⟩ := isObject_iff.1 hv
      obtain ⟨w, hw, h⟩ := exists_of_bind_ok h
      obtain rfl := Except.ok.inj h
      obtain ⟨hinner, -, hreach, hothers⟩ := ih hw
      refine ⟨rfl, rfl, ?_, fun path hpath => ?_⟩
      · rw [List.cons_append, reach?_object, Fields.get?_set_self, Option.bind_some, hreach]
      · cases path with
        | nil => rfl
        | cons k path =>
          rw [peek?_object, peek?_object]
          by_cases hk : k = part
          · subst hk
            -- the section was there, as null has no fields
            have hget : Fields.get? k fields = some (Fields.get k fields) := by
              rw [Fields.get] at hinner ⊢
              cases hget : Fields.get? k fields with
              | none => simp [hget, isObject] at hinner
              | some u => rfl
            have hpath' : ¬ rest ++ [name] <+: path := fun hinside =>
              hpath ((List.prefix_cons_inj k).2 hinside)
            rw [Fields.get?_set_self, hget, Option.bind_some, Option.bind_some, hothers path hpath']
          · rw [Fields.get?_set_of_ne hk]
    · rw [change, List.foldr_cons, within_of_not_isObject hv] at h
      cases h

/-- Neither of two overrides is inside the other one. -/
def Apart (o o' : Override) : Prop := ¬ o.path <+: o'.path ∧ ¬ o'.path <+: o.path

end Override

/-! ## Overrides of settings -/

/-- The settings as one value. -/
def value (s : Settings) : Value := .object s.tree

def override (o : Override) (s : Settings) : Except Fault Settings := s.changed o.change

section

variable {o : Override} {s s' : Settings}

theorem change_of_override (h : s.override o = .ok s') : o.change s.value = .ok s'.value := by
  obtain ⟨v, hv, h⟩ := exists_of_bind_ok h
  obtain ⟨fields, rfl⟩ := isObject_iff.1 (Override.change_ok hv).2.1
  obtain rfl := Except.ok.inj h
  exact hv

theorem override_cases (o : Override) (s : Settings) :
    (s.value.peek? o.sections = some (.object []) ∧ ∃ s', s.override o = .ok s') ∨
    (s.value.peek? o.sections ≠ some (.object []) ∧
      ∃ f, s.override o = .error f ∧ f.kind = "TypeError") := by
  have hoverride : s.override o = (o.change s.value >>= _) := rfl
  rcases o.change_cases s.value with ⟨hfits, v, hv⟩ | ⟨hfits, f, hf, hkind⟩
  · obtain ⟨fields, rfl⟩ := isObject_iff.1 (Override.change_ok hv).2.1
    exact .inl ⟨hfits, ⟨fields⟩, by rw [hoverride, hv]; rfl⟩
  · exact .inr ⟨hfits, f, by rw [hoverride, hf]; rfl, hkind⟩

theorem peek?_override (h : s.override o = .ok s') {path : List String}
    (hpath : ¬ o.path <+: path) : s'.value.peek? path = s.value.peek? path :=
  (Override.change_ok (change_of_override h)).2.2.2 path hpath

theorem reach?_override (h : s.override o = .ok s') : s'.value.reach? o.path = some o.value :=
  (Override.change_ok (change_of_override h)).2.2.1

end

/-- The settings after overrides, one after the other. -/
def overrideAll (os : List Override) (s : Settings) : Except Fault Settings :=
  os.foldlM (fun s o => s.override o) s

theorem overrideAll_cons (o : Override) (os : List Override) (s : Settings) :
    s.overrideAll (o :: os) = s.override o >>= overrideAll os := List.foldlM_cons

theorem overrideAll_singleton (o : Override) (s : Settings) :
    s.overrideAll [o] = s.override o := (overrideAll_cons o [] s).trans (bind_pure _)

theorem overrideAll_append (os others : List Override) (s : Settings) :
    s.overrideAll (os ++ others) = s.overrideAll os >>= overrideAll others := List.foldlM_append

/-- Overrides that are apart fail or succeed on their own. -/
theorem overrideAll_cases {os : List Override} (hos : os.Pairwise Override.Apart) (s : Settings) :
    ((∀ o ∈ os, s.value.peek? o.sections = some (.object [])) ∧
      ∃ s', s.overrideAll os = .ok s') ∨
    ((∃ o ∈ os, s.value.peek? o.sections ≠ some (.object [])) ∧
      ∃ f, s.overrideAll os = .error f ∧ f.kind = "TypeError") := by
  induction os generalizing s with
  | nil => exact .inl ⟨by simp, s, rfl⟩
  | cons o os ih =>
    obtain ⟨ho, hos⟩ := List.pairwise_cons.1 hos
    rw [overrideAll_cons]
    rcases s.override_cases o with ⟨hfits, s₁, hs₁⟩ | ⟨hfits, f, hf, hkind⟩
    · have hsame : ∀ o' ∈ os, s₁.value.peek? o'.sections = s.value.peek? o'.sections :=
        fun o' ho' => peek?_override hs₁ fun hinside =>
          (ho o' ho').1 (hinside.trans (List.prefix_append _ _))
      rw [hs₁]
      rcases ih hos s₁ with ⟨hall, hok⟩ | ⟨⟨o', ho', hne⟩, herror⟩
      · exact .inl ⟨List.forall_mem_cons.2 ⟨hfits, fun o' ho' => hsame o' ho' ▸ hall o' ho'⟩, hok⟩
      · exact .inr ⟨⟨o', List.mem_cons_of_mem o ho', hsame o' ho' ▸ hne⟩, herror⟩
    · rw [hf]
      exact .inr ⟨⟨o, List.mem_cons_self, hfits⟩, f, rfl, hkind⟩

/-- What is inside no overridden setting is as before. -/
theorem peek?_overrideAll {os : List Override} {s s' : Settings} (h : s.overrideAll os = .ok s')
    {path : List String} (hpath : ∀ o ∈ os, ¬ o.path <+: path) :
    s'.value.peek? path = s.value.peek? path := by
  induction os generalizing s with
  | nil =>
    obtain rfl := Except.ok.inj h
    rfl
  | cons o os ih =>
    obtain ⟨ho, hos⟩ := List.forall_mem_cons.1 hpath
    rw [overrideAll_cons] at h
    obtain ⟨s₁, hs₁, h⟩ := exists_of_bind_ok h
    rw [ih h hos, peek?_override hs₁ ho]

/-- An overridden setting has its value. -/
theorem reach?_overrideAll {os : List Override} (hos : os.Pairwise Override.Apart)
    {s s' : Settings} (h : s.overrideAll os = .ok s') {o : Override} (ho : o ∈ os)
    (hleaf : ¬ o.value.isObject) : s'.value.reach? o.path = some o.value := by
  induction os generalizing s with
  | nil => cases ho
  | cons o' os ih =>
    obtain ⟨hfirst, hos⟩ := List.pairwise_cons.1 hos
    rw [overrideAll_cons] at h
    obtain ⟨s₁, hs₁, hrest⟩ := exists_of_bind_ok h
    rcases List.mem_cons.1 ho with rfl | ho
    · have hset := reach?_override hs₁
      have hsame : s'.value.peek? o.path = s₁.value.peek? o.path :=
        peek?_overrideAll hrest fun o' ho' => (hfirst o' ho').2
      rw [reach?_of_peek?_eq hsame fun w hw => ?_, hset]
      rw [hset] at hw
      exact Option.some.inj hw ▸ hleaf
    · exact ih hos hrest ho

/-! ## Variables -/

/-- A variable, the setting that it overrides, and the value of the setting by the variable's
text. -/
structure Variable where
  name : String
  sections : List String
  setting : String
  read : String → Option Value

namespace Variable

def path (x : Variable) : List String := x.sections ++ [x.setting]

/-- What a variable does that is set to a text that it can have. -/
def override? (env : Environment) (x : Variable) : Option Override :=
  ((env.get? x.name).bind x.read).map fun value => ⟨x.sections, x.setting, value⟩

def ofNumber : String × String × String → Variable
  | (name, part, setting) => ⟨name, [part], setting, fun text => (readFloat text).map .float⟩

def ofFailureLog : List Variable := [
  ⟨switchVariable, ["engine", "failure_log"], "enabled", fun text => some (.bool (isOn text))⟩,
  ⟨pathVariable, ["engine", "failure_log"], "log_path", fun text => some (.text text)⟩]

end Variable

/-- All variables, in the order in which they are looked at. -/
def allVariables : List Variable := numericVariables.map Variable.ofNumber ++ Variable.ofFailureLog

/-- What the environment overrides. -/
def overrides (env : Environment) : List Override :=
  allVariables.filterMap (Variable.override? env)

theorem applyNumeric_eq (env : Environment) (s : Settings) (v : String × String × String) :
    (applyNumeric env s v).1 = s.overrideAll ((Variable.ofNumber v).override? env).toList := by
  obtain ⟨name, part, setting⟩ := v
  unfold applyNumeric Variable.override? Variable.ofNumber
  dsimp only
  cases env.get? name with
  | none => rfl
  | some text =>
    dsimp only [Option.bind_some]
    cases readFloat text with
    | none => rfl
    | some x => exact (overrideAll_singleton ⟨[part], setting, .float x⟩ s).symm

theorem applyNumerics_eq (env : Environment) (s : Settings)
    (numeric : List (String × String × String)) : (applyNumerics env s numeric).1 =
      s.overrideAll ((numeric.map Variable.ofNumber).filterMap (Variable.override? env)) := by
  induction numeric generalizing s with
  | nil => rfl
  | cons v rest ih =>
    have hfirst := applyNumeric_eq env s v
    rw [List.map_cons, List.filterMap_eq_flatMap_toList, List.flatMap_cons, overrideAll_append,
      ← List.filterMap_eq_flatMap_toList, ← hfirst, applyNumerics]
    rcases applyNumeric env s v with ⟨f | s₁, warnings⟩
    · rfl
    · exact ih s₁

theorem applyFailureLog_eq (env : Environment) (s : Settings) : applyFailureLog env s =
    s.overrideAll (Variable.ofFailureLog.filterMap (Variable.override? env)) := by
  simp only [Variable.ofFailureLog, List.filterMap_cons, Variable.override?]
  unfold applyFailureLog
  have hsingle (text : String) (s : Settings) :=
    (overrideAll_singleton ⟨["engine", "failure_log"], "log_path", .text text⟩ s).symm
  cases env.get? switchVariable with
  | none =>
    cases env.get? pathVariable with
    | none => rfl
    | some text => exact hsingle text s
  | some switch =>
    cases env.get? pathVariable with
    | none => rfl
    | some text =>
      exact congrArg
        (s.override ⟨["engine", "failure_log"], "enabled", .bool (isOn switch)⟩ >>= ·)
        (funext (hsingle text))

theorem applyEnvironment_eq (env : Environment) (s : Settings) :
    (applyEnvironment env s).1 = s.overrideAll (overrides env) := by
  rw [overrides, allVariables, List.filterMap_append, overrideAll_append, ← applyNumerics_eq,
    ← funext (applyFailureLog_eq env)]
  rfl

theorem mem_overrides {env : Environment} {o : Override} : o ∈ overrides env ↔
    ∃ x ∈ allVariables, ∃ text, env.get? x.name = some text ∧ ∃ value, x.read text = some value ∧
      o = ⟨x.sections, x.setting, value⟩ := by
  simp only [overrides, List.mem_filterMap, Variable.override?, Option.map_eq_some_iff,
    Option.bind_eq_some_iff]
  constructor
  · rintro ⟨x, hx, value, ⟨text, htext, hread⟩, rfl⟩
    exact ⟨x, hx, text, htext, value, hread, rfl⟩
  · rintro ⟨x, hx, text, htext, value, hread, rfl⟩
    exact ⟨x, hx, value, ⟨text, htext, hread⟩, rfl⟩

/-- No variable overrides what is inside the setting of another one. -/
theorem pairwise_allVariables :
    allVariables.Pairwise fun x x' => ¬ x.path <+: x'.path ∧ ¬ x'.path <+: x.path := by
  decide +kernel

theorem pairwise_overrides (env : Environment) : (overrides env).Pairwise Override.Apart := by
  refine List.pairwise_filterMap.2 (pairwise_allVariables.imp ?_)
  intro x x' hapart o ho o' ho'
  obtain ⟨value, -, rfl⟩ := Option.map_eq_some_iff.1 ho
  obtain ⟨value', -, rfl⟩ := Option.map_eq_some_iff.1 ho'
  exact hapart

/-- No variable puts an object into the settings. -/
theorem not_isObject_of_read {x : Variable} (hx : x ∈ allVariables) {text : String} {value : Value}
    (h : x.read text = some value) : ¬ value.isObject := by
  rcases List.mem_append.1 hx with hnumber | hlog
  · obtain ⟨v, -, rfl⟩ := List.mem_map.1 hnumber
    obtain ⟨x, -, rfl⟩ := Option.map_eq_some_iff.1 h
    simp [isObject]
  · simp only [Variable.ofFailureLog, List.mem_cons, List.not_mem_nil, or_false] at hlog
    rcases hlog with rfl | rfl <;> obtain rfl := Option.some.inj h <;> simp [isObject]

/-- The settings that can be overridden are in sections of the defaults. -/
theorem peek?_defaults : ∀ x ∈ allVariables,
    defaults.value.peek? x.sections = some (.object []) := by
  rw [allVariables, List.forall_mem_append]
  constructor
  · simp only [numericVariables, List.map_cons, List.map_nil, List.forall_mem_cons,
      Variable.ofNumber]
    exact ⟨rfl, rfl, rfl, by simp⟩
  · simp only [Variable.ofFailureLog, List.forall_mem_cons]
    exact ⟨rfl, rfl, by simp⟩

end Settings

end TypingTrace
