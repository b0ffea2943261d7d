import TypingTrace.Proofs.Settings.Layers

/-!
# Reading and setting single settings

**Theorem (`set_lens`).** A setting that was set has its new value, and what is neither inside it
nor around it is as before, whatever sections had to be created on the way. To set one is refused
just in case its path runs through something that is no object. That is a fault of a wrong type, and
every setting is as before.

A write creates sections as it goes along the path and can be refused part of the way, so that it is
not refused after it has created something has to be seen. It comes with the induction on the path:
in a section that was just created nothing is in the way of the rest (`blocks_empty`), so a refused
write has only written back what was there (`put_cases`).
-/

namespace TypingTrace

/-! ## Writing a path -/

namespace Value

variable {value v : Value} {path other : List String}

theorem kind_sectionFault (name : String) (v : Value) :
    (v.sectionFault name).kind = "TypeError" := by
  unfold sectionFault
  split
  · rfl
  · split
    · split_ifs <;> rfl
    · rfl

theorem put_object (value : Value) (name : String) (path : List String) (fields : Fields) :
    put value (name :: path) (.object fields) =
      ((put value path ((Fields.get? name fields).getD (.object []))).1,
        .object (Fields.set name
          (put value path ((Fields.get? name fields).getD (.object []))).2 fields)) := by
  cases path <;> simp [put]

theorem put_of_not_isObject (value : Value) (h : ¬ v.isObject) (name : String)
    (path : List String) :
    ∃ f, put value (name :: path) v = (.error f, v) ∧ f.kind = "TypeError" := by
  cases path with
  | nil =>
    refine ⟨v.assignmentFault, ?_, Settings.kind_assignmentFault v⟩
    cases v with
    | object fields => exact absurd rfl h
    | _ => rfl
  | cons part path =>
    refine ⟨v.sectionFault name, ?_, kind_sectionFault name v⟩
    cases v with
    | object fields => exact absurd rfl h
    | _ => rfl

/-- Nothing is in the way in a section that was just created. -/
theorem blocks_empty (path : List String) : (object []).blocks path = false := by
  cases path <;> rfl

/-- A write is refused just in case something is in its way, and then it changes nothing. -/
theorem put_cases (value : Value) (path : List String) (v : Value) :
    (v.blocks path = false ∧ (put value path v).1 = .ok ()) ∨
    (v.blocks path ∧ ∃ f, put value path v = (.error f, v) ∧ f.kind = "TypeError") := by
  induction path generalizing v with
  | nil => exact .inl ⟨blocks_nil v, by simp [put]⟩
  | cons name path ih =>
    by_cases hv : v.isObject
    · obtain ⟨fields, rfl⟩ := isObject_iff.1 hv
      rw [put_object, blocks]
      cases hget : Fields.get? name fields with
      | none =>
        rcases ih (.object []) with ⟨-, hok⟩ | ⟨hblocks, -⟩
        · exact .inl ⟨rfl, hok⟩
        · rw [blocks_empty] at hblocks
          cases hblocks
      | some w =>
        rcases ih w with ⟨hfree, hok⟩ | ⟨hblocks, f, hput, hkind⟩
        · exact .inl ⟨hfree, hok⟩
        · refine .inr ⟨hblocks, f, ?_, hkind⟩
          -- the section is written back as it was
          simp only [Option.getD_some, hput, Fields.set_of_get?_eq_some hget]
    · exact .inr ⟨blocks_of_not_isObject hv name path, put_of_not_isObject value hv name path⟩

theorem reach?_put_self (h : (put value path v).1 = .ok ()) :
    (put value path v).2.reach? path = some value := by
  induction path generalizing v with
  | nil => simp [put]
  | cons name path ih =>
    by_cases hv : v.isObject
    · obtain ⟨fields, rfl⟩ := isObject_iff.1 hv
      rw [put_object] at h ⊢
      rw [reach?_object, Fields.get?_set_self, Option.bind_some, ih h]
    · obtain ⟨f, hput, -⟩ := put_of_not_isObject value hv name path
      rw [hput] at h
      cases h

/-- What is neither inside the path nor around its end is as before. -/
theorem reach?_put_of_apart (value v : Value) (hinside : ¬ path <+: other)
    (haround : ¬ other <+: path) : (put value path v).2.reach? other = v.reach? other := by
  induction path generalizing v other with
  | nil => exact absurd other.nil_prefix hinside
  | cons name path ih =>
    by_cases hv : v.isObject
    · obtain ⟨fields, rfl⟩ := isObject_iff.1 hv
      rw [put_object]
      cases other with
      | nil => exact absurd (List.nil_prefix) haround
      | cons k other =>
        rw [reach?_object, reach?_object]
        by_cases hk : k = name
        · subst hk
          rw [List.prefix_cons_inj] at hinside haround
          rw [Fields.get?_set_self, Option.bind_some, ih _ hinside haround]
          cases Fields.get? k fields with
          | none =>
            -- the section is new, and the other path does not end at it
            cases other with
            | nil => exact absurd (List.nil_prefix) haround
            | cons part other => rfl
          | some w => rfl
        · rw [Fields.get?_set_of_ne hk]
    · obtain ⟨f, hput, -⟩ := put_of_not_isObject value hv name path
      rw [hput]

theorem isObject_put (value : Value) (hpath : path ≠ []) (v : Value) :
    (put value path v).2.isObject = v.isObject := by
  cases path with
  | nil => exact absurd rfl hpath
  | cons name path =>
    by_cases hv : v.isObject
    · obtain ⟨fields, rfl⟩ := isObject_iff.1 hv
      rw [put_object]
      rfl
    · obtain ⟨f, hput, -⟩ := put_of_not_isObject value hv name path
      rw [hput]

end Value

/-! ## Settings -/

/-- There is always a last piece. -/
theorem Text.splitCharsFrom_ne_nil (mark : Char) (piece cs : List Char) :
    splitCharsFrom mark piece cs ≠ [] := by
  induction cs generalizing piece with
  | nil => simp [splitCharsFrom]
  | cons c rest ih =>
    rw [splitCharsFrom]
    by_cases h : c = mark
    · simp [h]
    · rw [if_neg h]
      exact ih (c :: piece)

open Value

namespace Settings

theorem path_ne_nil (key : String) : path key ≠ [] := by
  intro h
  exact Text.splitCharsFrom_ne_nil '.' [] key.toList (List.map_eq_nil_iff.1 h)

/-- To set a setting is to write its path. -/
theorem put_value (s : Settings) (key : String) (v : Value) :
    put v (path key) s.value = ((s.set key v).1, (s.set key v).2.value) := by
  have hobject : (put v (path key) s.value).2.isObject := by
    rw [isObject_put v (path_ne_nil key)]
    rfl
  obtain ⟨tree, htree⟩ := isObject_iff.1 hobject
  have hput : put v (path key) s.value = ((put v (path key) s.value).1, .object tree) :=
    Prod.ext rfl htree
  rw [value] at hput
  rw [set, hput, value, hput]
  rfl

variable {s : Settings} {key other : String} {v fallback : Value}

theorem get_set_self (h : (s.set key v).1 = .ok ()) :
    (s.set key v).2.get key fallback = v.orElse fallback := by
  have hput := put_value s key v
  have hreach : (s.set key v).2.value.reach? (path key) = some v := by
    have hok : (put v (path key) s.value).1 = .ok () := by rw [hput, h]
    simpa [hput] using reach?_put_self hok
  rw [get_eq, hreach, Option.getD_some]

theorem get_set_of_apart (hinside : ¬ path key <+: path other)
    (haround : ¬ path other <+: path key) :
    (s.set key v).2.get other fallback = s.get other fallback := by
  have hreach := reach?_put_of_apart v s.value hinside haround
  rw [put_value] at hreach
  rw [get_eq, get_eq, hreach]

/-- Setting is refused just in case something is in the way, and then it changes nothing. -/
theorem set_cases (s : Settings) (key : String) (v : Value) :
    (s.value.blocks (path key) = false ∧ (s.set key v).1 = .ok ()) ∨
    (s.value.blocks (path key) ∧
      ∃ f, s.set key v = (.error f, s) ∧ f.kind = "TypeError") := by
  have hput := put_value s key v
  rcases put_cases v (path key) s.value with ⟨hfree, hok⟩ | ⟨hblocks, f, hf, hkind⟩
  · rw [hput] at hok
    exact .inl ⟨hfree, hok⟩
  · rw [hput] at hf
    obtain ⟨hresult, hvalue⟩ := Prod.mk.inj hf
    obtain htree := object.inj hvalue
    exact .inr ⟨hblocks, f, Prod.ext hresult (congrArg mk htree), hkind⟩

end Settings

/-! ## Configurations -/

namespace Configuration

open Settings

variable {c : Configuration} {s : Settings}

/-- The defaults under the environment alone can always be loaded. -/
theorem exists_settings (c : Configuration) : ∃ s, c.settings.1 = .ok s := by
  obtain ⟨loaded, env⟩ := c
  cases loaded with
  | some s => exact ⟨s, rfl⟩
  | none =>
    have hload : (Settings.load "" none env).1 = _ := load_eq "" none env
    rcases overrideAll_cases (pairwise_overrides env) (fromFile (fileFields? none)) with
      ⟨-, s, hs⟩ | ⟨⟨o, ho, hne⟩, -⟩
    · rw [hs] at hload
      rw [settings, load]
      rcases hresult : Settings.load "" none env with ⟨f | t, warnings⟩
      · rw [hresult] at hload
        cases hload
      · exact ⟨t, rfl⟩
    · exact absurd ((fits_iff ho).2 (by simp [fileFields?])) hne

theorem get_of_settings (h : c.settings.1 = .ok s) (key : String) (fallback : Value) :
    (c.get key fallback).1 = .ok (s.get key fallback) := by
  show c.settings.1.map (Settings.get key fallback) = _
  rw [h]
  rfl

theorem set_of_settings (h : c.settings.1 = .ok s) (key : String) (v : Value) :
    (c.set key v).1 = (s.set key v).1 ∧
      (c.set key v).2.1.settings.1 = .ok (s.set key v).2 := by
  rw [set]
  rcases hsettings : c.settings with ⟨f | t, c', warnings⟩
  · rw [hsettings] at h
    cases h
  · rw [hsettings] at h
    obtain rfl := Except.ok.inj h
    exact ⟨rfl, rfl⟩

/-- **Reading and setting.** Settings can always be read. One that was set has its value, and what
is neither inside it nor around it is as before. To set one is refused just in case something that
is no object stands on the way to it, and then all settings are as before. -/
theorem set_lens (c : Configuration) (key : String) (v : Value) :
    ∃ s, c.settings.1 = .ok s ∧
      (∀ other fallback, (c.get other fallback).1 = .ok (s.get other fallback)) ∧
      ((c.set key v).1 = .ok () →
        (∀ fallback, ((c.set key v).2.1.get key fallback).1 = .ok (v.orElse fallback)) ∧
        ∀ other, ¬ path key <+: path other → ¬ path other <+: path key →
          ∀ fallback, ((c.set key v).2.1.get other fallback).1 = (c.get other fallback).1) ∧
      (∀ f, (c.set key v).1 = .error f → f.kind = "TypeError" ∧
        ∀ other fallback, ((c.set key v).2.1.get other fallback).1 = (c.get other fallback).1) ∧
      ((∃ f, (c.set key v).1 = .error f) ↔
        ∃ q w, q <+: path key ∧ q ≠ path key ∧ s.value.reach? q = some w ∧ ¬ w.isObject) := by
  obtain ⟨s, hs⟩ := c.exists_settings
  obtain ⟨hresult, hafter⟩ := set_of_settings hs key v
  have hget := get_of_settings hs
  have hgetAfter := get_of_settings hafter
  refine ⟨s, hs, hget, ?ok, ?refused, ?blocked⟩
  case ok =>
    intro hok
    rw [hresult] at hok
    refine ⟨fun fallback => ?_, fun other hinside haround fallback => ?_⟩
    · rw [hgetAfter, get_set_self hok]
    · rw [hgetAfter, hget, get_set_of_apart hinside haround]
  case refused =>
    intro f hf
    rw [hresult] at hf
    rcases s.set_cases key v with ⟨-, hok⟩ | ⟨-, g, hset, hkind⟩
    · rw [hok] at hf
      cases hf
    · rw [hset] at hf
      obtain rfl := Except.error.inj hf
      refine ⟨hkind, fun other fallback => ?_⟩
      rw [hgetAfter, hget, hset]
  case blocked =>
    rw [← blocks_iff, hresult]
    rcases s.set_cases key v with ⟨hfree, hok⟩ | ⟨hblocks, f, hset, -⟩
    · simp [hfree, hok]
    · simp [hblocks, hset]

/-- A setting in two sections that are not there, and one inside a text. -/
theorem set_lens_newSection :
    ((initial.set "a.b.c" (.int 1)).1 = .ok () ∧
      ((initial.set "a.b.c" (.int 1)).2.1.get "a.b.c" .null).1 = .ok (.int 1) ∧
      ((initial.set "a.b.c" (.int 1)).2.1.get "a.d" (.text "none")).1 = .ok (.text "none")) ∧
    ∃ f, (initial.set "version.major" (.int 2)).1 = .error f ∧ f.kind = "TypeError" ∧
      ((initial.set "version.major" (.int 2)).2.1.get "version" .null).1 =
        .ok (.text "1.0.0") := by
  have hdeep : path "a.b.c" = ["a", "b", "c"] := by decide +kernel
  have hbeside : path "a.d" = ["a", "d"] := by decide +kernel
  have hversion : path "version" = ["version"] := by decide +kernel
  have hinside : path "version.major" = ["version", "major"] := by decide +kernel
  have hinitial : initial.settings.1 = .ok defaults := rfl
  constructor
  · obtain ⟨s, hs, hget, hset, -, hblocks⟩ := initial.set_lens "a.b.c" (.int 1)
    obtain rfl := Except.ok.inj (hinitial.symm.trans hs)
    have hok : (initial.set "a.b.c" (.int 1)).1 = .ok () := by
      cases hresult : (initial.set "a.b.c" (.int 1)).1 with
      | ok u => rfl
      | error f =>
        have hblocked := blocks_iff.2 (hblocks.1 ⟨f, hresult⟩)
        rw [hdeep] at hblocked
        cases hblocked
    obtain ⟨hself, hothers⟩ := hset hok
    refine ⟨hok, hself .null, ?_⟩
    rw [hothers "a.d" (by simp [hdeep, hbeside]) (by simp [hdeep, hbeside]), hget, get_eq, hbeside]
    rfl
  · obtain ⟨s, hs, hget, -, hsame, hblocks⟩ := initial.set_lens "version.major" (.int 2)
    obtain rfl := Except.ok.inj (hinitial.symm.trans hs)
    obtain ⟨f, hf⟩ := hblocks.2
      ⟨["version"], .text "1.0.0", by simp [hinside], by simp [hinside], rfl, by simp [isObject]⟩
    obtain ⟨hkind, hunchanged⟩ := hsame f hf
    refine ⟨f, hf, hkind, ?_⟩
    rw [hunchanged, hget, get_eq, hversion]
    rfl

end Configuration

end TypingTrace
