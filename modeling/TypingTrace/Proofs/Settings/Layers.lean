import TypingTrace.Proofs.Json.Trees
import TypingTrace.Proofs.Settings.Environment

/-!
# Layers of settings

**Theorem (`layered`).** What loaded settings have at the end of a path is decided by the uppermost
layer that says something about it: a variable of the environment, the file, the defaults. A value
that is no object leaves nothing of the layers below it that is further along the path.

**Theorem (`reload_decided`).** To load settings anew succeeds unless the file has something in the
way of a setting that a variable overrides. Then it is a fault of a wrong type, and no settings are
loaded. A file that holds no object is as good as none.

The settings are the overrides of the environment applied to the file laid over the defaults
(`load_eq`), and both layers are known path by path (`peek?_fromFile`, `peek?_overrideAll`).
Overrides are apart, so they can only fail because of what the file has in the way of one of them
(`fits_iff`).
-/

namespace TypingTrace

open Value

namespace Settings

/-! ## The file -/

/-- The fields of a file, if there is one that holds an object. -/
def fileFields? (file : Option String) : Option Fields :=
  file.bind fun text =>
    match Json.readJson text with
    | .ok (.object fields) => some fields
    | _ => none

/-- Fields laid over the defaults. -/
def fromFile (fields : Option Fields) : Settings :=
  match fields with
  | some fields => ⟨mergeFields defaults.tree fields⟩
  | none => defaults

theorem ofFile_eq (name : String) (file : Option String) :
    (ofFile name file).1 = fromFile (fileFields? file) := by
  cases file with
  | none => rfl
  | some text =>
    rw [ofFile, ofText, fileFields?, Option.bind_some]
    cases Json.readJson text with
    | error rejection => rfl
    | ok v => cases v <;> rfl

theorem load_eq (name : String) (file : Option String) (env : Environment) :
    (load name file env).1 = (fromFile (fileFields? file)).overrideAll (overrides env) := by
  rw [load, ← ofFile_eq name file, ← applyEnvironment_eq]

theorem isTree_of_fileFields? {file : Option String} {fields : Fields}
    (h : fileFields? file = some fields) : (object fields).IsTree := by
  obtain ⟨text, -, h⟩ := Option.bind_eq_some_iff.1 h
  split at h
  case h_1 read hread =>
    obtain rfl := Option.some.inj h
    exact Json.isTree_of_readJson hread
  case h_2 => cases h

/-- A file laid over the defaults, path by path. -/
theorem peek?_fromFile {fields : Fields} (h : (object fields).IsTree) (path : List String) :
    (fromFile (some fields)).value.peek? path =
      match (object fields).peek? path with
      | some w => some w
      | none => if (object fields).blocks path then none else defaults.value.peek? path := by
  have hvalue : (fromFile (some fields)).value =
      overlay (some defaults.value) (.object fields) := by
    rw [Settings.value, Settings.value, overlay]
    rfl
  rw [hvalue, peek?_overlay h]
  rfl

/-- A setting can be overridden just in case the file has nothing in its way. -/
theorem fits_iff {file : Option String} {env : Environment} {o : Override}
    (ho : o ∈ overrides env) :
    (fromFile (fileFields? file)).value.peek? o.sections = some (.object []) ↔
      ∀ fields, fileFields? file = some fields → (object fields).blocks o.path = false := by
  obtain ⟨x, hx, -, -, value, -, rfl⟩ := mem_overrides.1 ho
  have hdefaults := peek?_defaults x hx
  cases hfile : fileFields? file with
  | none => exact iff_of_true hdefaults (by simp)
  | some fields =>
    rw [peek?_fromFile (isTree_of_fileFields? hfile), hdefaults, peek?]
    have hblocks := blocks_snoc x.sections x.setting (.object fields)
    cases hreach : (object fields).reach? x.sections with
    | some w =>
      rw [hreach] at hblocks
      simp [Override.path, hblocks, hollow_eq_nil_iff]
    | none =>
      rw [hreach] at hblocks
      simp [Override.path, hblocks]

/-! ## All layers -/

theorem load_ok {name : String} {file : Option String} {env : Environment} {s : Settings}
    {warnings : List String} (h : load name file env = (.ok s, warnings)) :
    (fromFile (fileFields? file)).overrideAll (overrides env) = .ok s := by
  rw [← load_eq name file env, h]

theorem get_eq (s : Settings) (key : String) (fallback : Value) :
    s.get key fallback = ((s.value.reach? (path key)).getD .null).orElse fallback := by
  rw [get, atPath_eq]
  rfl

/-- **Layers.** -/
theorem layered {name text : String} {env : Environment} {fields : Fields} {s : Settings}
    {warnings : List String} (hfile : Json.readJson text = .ok (.object fields))
    (hload : load name (some text) env = (.ok s, warnings)) :
    (∀ path,
      (∀ o ∈ overrides env, o.path = path → s.value.reach? path = some o.value) ∧
      (∀ o ∈ overrides env, o.path <+: path → o.path ≠ path → s.value.reach? path = none) ∧
      ((∀ o ∈ overrides env, ¬ o.path <+: path) →
        (∀ v, (object fields).reach? path = some v → ¬ v.isObject →
          s.value.reach? path = some v) ∧
        ((∃ q v, q <+: path ∧ q ≠ path ∧ (object fields).reach? q = some v ∧ ¬ v.isObject) →
          s.value.reach? path = none) ∧
        ((object fields).reach? path = none →
          (∀ q v, q <+: path → q ≠ path → (object fields).reach? q = some v → v.isObject) →
          (∀ v ∈ defaults.value.reach? path, ¬ v.isObject) →
          s.value.reach? path = defaults.value.reach? path))) ∧
    (∀ key fallback,
      s.get key fallback = ((s.value.reach? (path key)).getD .null).orElse fallback) ∧
    ∀ base, mergeFields (mergeFields base fields) fields = mergeFields base fields := by
  have htree : (object fields).IsTree := Json.isTree_of_readJson hfile
  have hfields : fileFields? (some text) = some fields := by
    rw [fileFields?, Option.bind_some, hfile]
  have hall := load_ok hload
  have hset : ∀ o ∈ overrides env, s.value.reach? o.path = some o.value := by
    intro o ho
    obtain ⟨x, hx, text, -, value, hread, rfl⟩ := mem_overrides.1 ho
    exact reach?_overrideAll (pairwise_overrides env) hall ho (not_isObject_of_read hx hread)
  refine ⟨fun path => ⟨?set, ?inside, fun hothers => ?_⟩, get_eq s, mergeFields_mergeFields htree⟩
  case set =>
    rintro o ho rfl
    exact hset o ho
  case inside =>
    rintro o ho ⟨rest, rfl⟩ hne
    obtain ⟨x, hx, text, -, value, hread, rfl⟩ := mem_overrides.1 ho
    rw [reach?_append, hset _ ho, Option.bind_some]
    cases rest with
    | nil => exact absurd (List.append_nil _).symm hne
    | cons k rest => exact reach?_of_not_isObject (not_isObject_of_read hx hread) k rest
  have hpeek : s.value.peek? path =
      match (object fields).peek? path with
      | some w => some w
      | none => if (object fields).blocks path then none else defaults.value.peek? path := by
    rw [peek?_overrideAll hall hothers, hfields, peek?_fromFile htree]
  refine ⟨?file, ?blocked, ?default⟩
  case file =>
    intro v hreach hleaf
    have hfile : (object fields).peek? path = some v := by
      rw [peek?, hreach, Option.map_some, hollow_of_not_isObject hleaf]
    rw [hfile] at hpeek
    rw [← hreach]
    refine reach?_of_peek?_eq (hpeek.trans hfile.symm) fun w hw => ?_
    rw [hreach] at hw
    exact Option.some.inj hw ▸ hleaf
  case blocked =>
    intro hblocks
    have hblocks := blocks_iff.2 hblocks
    rw [peek?, peek?, reach?_of_blocks hblocks, hblocks] at hpeek
    exact Option.map_eq_none_iff.1 hpeek
  case default =>
    intro hreach hfree hleaf
    have hblocks : (object fields).blocks path = false := by
      by_contra h
      obtain ⟨q, v, hq, hne, hv, hobject⟩ := blocks_iff.1 (by simpa using h)
      exact hobject (hfree q v hq hne hv)
    have hnothing : (object fields).peek? path = none := by rw [peek?, hreach]; rfl
    rw [hnothing, hblocks] at hpeek
    exact reach?_of_peek?_eq hpeek hleaf

/-- The text of a file with a version of its own, and a text in the place of the thresholds. -/
def reduced : String := "\x7b\"version\": \"2.0.0\", \"thresholds\": \"none\"\x7d"

theorem layered_reduced :
    ∃ s, load "analytics_config.json" (some reduced) [(switchVariable, "yes")] = (.ok s, []) ∧
      s.value.reach? ["engine", "failure_log", "enabled"] = some (.bool true) ∧
      s.value.reach? ["engine", "failure_log", "enabled", "since"] = none ∧
      s.value.reach? ["version"] = some (.text "2.0.0") ∧
      s.value.reach? ["thresholds", "pause_ms"] = none ∧
      s.value.reach? ["ingestion", "max_batch_size"] = some (.int 1000) := by
  have htext : reduced = Json.objectText [("version", "2.0.0"), ("thresholds", "none")] := by
    decide +kernel
  have hread : Json.readJson reduced =
      .ok (.object [("version", .text "2.0.0"), ("thresholds", .text "none")]) := by
    rw [htext]
    exact Json.readJson_textFields (by simp)
  obtain ⟨s, hload⟩ : ∃ s, load "analytics_config.json" (some reduced) [(switchVariable, "yes")] =
      (.ok s, []) := by
    simp only [load, ofFile, ofText, hread]
    exact ⟨_, rfl⟩
  have hoverrides : overrides [(switchVariable, "yes")] =
      [⟨["engine", "failure_log"], "enabled", .bool true⟩] := by
    have hon : isOn "yes" = true := by decide +kernel
    rw [← hon]
    rfl
  obtain ⟨hpaths, -, -⟩ := layered hread hload
  rw [hoverrides] at hpaths
  have hother {path : List String} (h : ¬ ["engine", "failure_log", "enabled"] <+: path) :=
    (hpaths path).2.2 fun o ho => by rw [List.mem_singleton.1 ho]; exact h
  refine ⟨s, hload, ?_, ?_, ?_, ?_, ?_⟩
  · exact (hpaths _).1 _ (List.mem_singleton_self _) rfl
  · exact (hpaths _).2.1 _ (List.mem_singleton_self _) (by decide) (by decide)
  · exact (hother (by decide)).1 _ rfl (by simp [isObject])
  · exact (hother (by decide)).2.1 ⟨["thresholds"], .text "none", by decide, by decide, rfl,
      by simp [isObject]⟩
  · refine (hother (by decide)).2.2 rfl (fun q v hq hne hv => ?_) fun v hv => ?_
    · by_contra hleaf
      have hblocks := blocks_iff.2 ⟨q, v, hq, hne, hv, hleaf⟩
      cases hblocks
    · obtain rfl := Option.some.inj hv
      simp [isObject]

end Settings

namespace Configuration

open Settings

theorem reload_of_ok {name : String} {file : Option String} {c : Configuration} {s : Settings}
    (h : (Settings.load name file c.env).1 = .ok s) : (c.reload name file).1 = .ok s ∧
      (c.reload name file).2.1 = { c with loaded := some s } := by
  rw [reload, load]
  rcases hload : Settings.load name file c.env with ⟨f | t, warnings⟩
  · rw [hload] at h
    cases h
  · rw [hload] at h
    obtain rfl := Except.ok.inj h
    exact ⟨rfl, rfl⟩

theorem reload_of_error {name : String} {file : Option String} {c : Configuration} {f : Fault}
    (h : (Settings.load name file c.env).1 = .error f) : (c.reload name file).1 = .error f ∧
      (c.reload name file).2.1 = { c with loaded := none } := by
  rw [reload, load]
  rcases hload : Settings.load name file c.env with ⟨g | t, warnings⟩
  · rw [hload] at h
    obtain rfl := Except.error.inj h
    exact ⟨rfl, rfl⟩
  · rw [hload] at h
    cases h

/-- **Loading anew** fails just in case the file has something in the way of a setting that a
variable overrides. What a file holds that holds no object does not matter. -/
theorem reload_decided (c : Configuration) (name : String) (file : Option String) :
    ((∃ o ∈ overrides c.env, ∃ fields, fileFields? file = some fields ∧
        (object fields).blocks o.path) →
      ∃ f, (c.reload name file).1 = .error f ∧ f.kind = "TypeError" ∧
        (c.reload name file).2.1 = { c with loaded := none }) ∧
    ((∀ o ∈ overrides c.env, ∀ fields, fileFields? file = some fields →
        (object fields).blocks o.path = false) →
      ∃ s, (c.reload name file).1 = .ok s ∧
        (c.reload name file).2.1 = { c with loaded := some s }) ∧
    (fileFields? file = none →
      ∃ s, (c.reload name file).1 = .ok s ∧
        (c.reload name file).2.1 = { c with loaded := some s } ∧
        (applyEnvironment c.env defaults).1 = .ok s) := by
  have hload := load_eq name file c.env
  have hcases := overrideAll_cases (pairwise_overrides c.env) (fromFile (fileFields? file))
  have hok : (∀ o ∈ overrides c.env, ∀ fields, fileFields? file = some fields →
      (object fields).blocks o.path = false) →
      ∃ s, (Settings.load name file c.env).1 = .ok s := by
    intro hfree
    rcases hcases with ⟨-, s, hs⟩ | ⟨⟨o, ho, hne⟩, -⟩
    · exact ⟨s, hload.trans hs⟩
    · exact absurd ((fits_iff ho).2 (hfree o ho)) hne
  refine ⟨?blocked, ?free, ?noObject⟩
  case blocked =>
    rintro ⟨o, ho, fields, hfile, hblocks⟩
    rcases hcases with ⟨hfits, -⟩ | ⟨-, f, hf, hkind⟩
    · rw [(fits_iff ho).1 (hfits o ho) fields hfile] at hblocks
      cases hblocks
    · obtain ⟨hresult, hstate⟩ := reload_of_error (hload.trans hf)
      exact ⟨f, hresult, hkind, hstate⟩
  case free =>
    intro hfree
    obtain ⟨s, hs⟩ := hok hfree
    exact ⟨s, reload_of_ok hs⟩
  case noObject =>
    intro hfile
    obtain ⟨s, hs⟩ := hok (by simp [hfile])
    obtain ⟨hresult, hstate⟩ := reload_of_ok hs
    rw [hload, hfile, ← applyEnvironment_eq] at hs
    exact ⟨s, hresult, hstate, hs⟩

/-- A text in the place of a section that a variable changes. -/
def misplaced : String := "\x7b\"engine\": \"fast\"\x7d"

theorem reload_misplaced :
    let c : Configuration := ⟨none, [(switchVariable, "true")]⟩
    c.reload "analytics_config.json" (some misplaced) = (.error .textIndex, c, []) ∧
      Fault.kind .textIndex = "TypeError" := by
  have htext : misplaced = Json.objectText [("engine", "fast")] := by decide +kernel
  have hread : Json.readJson misplaced = .ok (.object [("engine", .text "fast")]) := by
    rw [htext]
    exact Json.readJson_textFields (by simp)
  refine ⟨?_, rfl⟩
  simp only [reload, load, Settings.load, ofFile, ofText, hread]
  rfl

end Configuration

end TypingTrace
