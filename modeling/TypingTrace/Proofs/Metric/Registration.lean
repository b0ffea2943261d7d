import Mathlib.Data.List.Induction
import Mathlib.Data.List.Nodup
import Mathlib.Data.List.Pairwise
import TypingTrace.Metric.Typing

/-!
# Registration

**Theorem (`first_registered`).** Take a registry of given definitions and let anything be asked of
it. The definitions that it then has are the given ones and, in order, those whose registration was
answered. To look an id up is to find the first definition with this id that was ever offered before
the registry was frozen: the first registration counts, and later ones of the same id are refused.
All views of the registry agree (`Views`), and each of its metrics is in exactly one category.

What is offered depends on the operations alone (`offered`), and not on what became of them. An
operation that offers nothing leaves an unfrozen registry as it is or freezes it, and one that
offers a definition does what registering that definition does (`respond_of_offer`); so the proofs
are inductions over the operations with these two cases and the one of a frozen registry, which
stays what it is (`after_of_frozen`).
-/

namespace TypingTrace

/-! ## Registries that can be built -/

namespace Registry

/-- A registry that registering and freezing lead to. -/
inductive Built : Registry → Prop
  | empty : Built .empty
  | register {r r' : Registry} {d : Definition} : Built r → r.register d = .ok r' → Built r'
  | freeze {r : Registry} : Built r → Built r.freeze

theorem register_ok {r r' : Registry} {d : Definition} (h : r.register d = .ok r') :
    r.contains d.id = false ∧ r' = { r with definitions := r.definitions ++ [d] } := by
  unfold register at h
  split_ifs at h with hfrozen hkey htaken
  exact ⟨by simpa using htaken, (Except.ok.inj h).symm⟩

/-- No two metrics of a registry have one id. -/
theorem Built.distinct {r : Registry} (h : r.Built) : r.ids.Pairwise fun a b => ¬ a.same b := by
  induction h with
  | empty => exact .nil
  | @register r r' d _ hregister ih =>
    obtain ⟨htaken, rfl⟩ := register_ok hregister
    have hnew : ∀ id ∈ r.ids, ¬ id.same d.id := by
      intro id hid hsame
      obtain ⟨d', hd', rfl⟩ := List.mem_map.1 hid
      rw [contains, get?, List.find?_isSome.2 ⟨d', hd', hsame⟩] at htaken
      cases htaken
    rw [ids, List.map_append]
    exact List.pairwise_append.2 ⟨ih, List.pairwise_singleton _ _, fun a ha b hb =>
      List.mem_singleton.1 hb ▸ hnew a ha⟩
  | freeze _ ih => exact ih

theorem Built.nodup {r : Registry} (h : r.Built) : r.ids.Nodup :=
  h.distinct.imp fun {a b} hne heq => hne (by rw [heq, Value.same_refl])

/-- A definition of a registry is known by its id. -/
theorem Built.eq_of_id_eq {r : Registry} (h : r.Built) {d d' : Definition}
    (hd : d ∈ r.definitions) (hd' : d' ∈ r.definitions) (hid : d.id = d'.id) : d = d' :=
  List.inj_on_of_nodup_map h.nodup hd hd' hid

theorem built_foldlM {l : List Definition} {r₀ r : Registry} (hr₀ : r₀.Built)
    (h : l.foldlM (fun r d => r.register d) r₀ = .ok r) :
    r.Built ∧ r = { r₀ with definitions := r₀.definitions ++ l } := by
  induction l generalizing r₀ with
  | nil =>
    obtain rfl := Except.ok.inj h
    exact ⟨hr₀, by rw [List.append_nil]⟩
  | cons d rest ih =>
    rw [List.foldlM_cons] at h
    cases hregister : r₀.register d with
    | error f => simp [hregister, bind, Except.bind] at h
    | ok r₁ =>
      rw [hregister] at h
      obtain ⟨hbuilt, rfl⟩ := ih (.register hr₀ hregister) h
      obtain ⟨-, rfl⟩ := register_ok hregister
      exact ⟨hbuilt, by rw [List.append_assoc]; rfl⟩

theorem built_ofList {definitions : List Definition} {r : Registry}
    (h : ofList definitions = .ok r) : r.Built := (built_foldlM .empty h).1

theorem eq_of_ofList {definitions : List Definition} {r : Registry}
    (h : ofList definitions = .ok r) : r = ⟨definitions, false⟩ := (built_foldlM .empty h).2

/-- Hashable ids of which no two are the same are all that a registry needs. -/
theorem built_of_distinct (frozen : Bool) {definitions : List Definition}
    (hhash : ∀ d ∈ definitions, d.id.isHashable)
    (hdistinct : definitions.Pairwise fun d d' => ¬ d.id.same d'.id) :
    Built ⟨definitions, frozen⟩ := by
  have hopen : Built ⟨definitions, false⟩ := by
    induction definitions using List.reverseRecOn with
    | nil => exact .empty
    | append_singleton l d ih =>
      obtain ⟨hinit, -, hlast⟩ := List.pairwise_append.1 hdistinct
      have hnew : (Registry.mk l false).contains d.id = false := by
        rw [contains, get?, Option.isSome_eq_false_iff, Option.isNone_iff_eq_none,
          List.find?_eq_none]
        exact fun d' hd' => hlast d' hd' d (List.mem_singleton_self d)
      have hl := ih (fun d' hd' => hhash d' (List.mem_append_left _ hd')) hinit
      refine hl.register (d := d) ?_
      rw [register, if_neg Bool.false_ne_true, hhash d (by simp), hnew]
      rfl
  cases frozen with
  | false => exact hopen
  | true => exact hopen.freeze

theorem built_typingRegistry (t : Thresholds) : (typingRegistry t).Built := by
  -- the ids are the same texts under all thresholds
  refine built_of_distinct true ?_ ?_
  · have hhash : (typingRegistry t).ids.all Value.isHashable := rfl
    exact fun d hd => List.all_eq_true.1 hhash d.id (List.mem_map_of_mem hd)
  · rw [← List.pairwise_map (f := Definition.id) (R := fun a b => ¬ a.same b)]
    change (typingRegistry ⟨.null, .null, .null, .null⟩).ids.Pairwise fun a b => ¬ a.same b
    decide +kernel

end Registry

/-! ## Sound definitions -/

namespace Definition

/-- A definition that passes its check. -/
structure IsSound (d : Definition) : Prop where
  id : d.id.truthy
  category : isCategory d.category

theorem isSound_of_check {d d' : Definition} {callable : Bool} (h : d.check callable = .ok d') :
    d'.IsSound := by
  unfold check at h
  split_ifs at h with hid hcallable hcategory
  obtain rfl := Except.ok.inj h
  exact ⟨by simpa using hid, by simpa using hcategory⟩

theorem isSound_ofFields {id : Value} {calculator : Option Calculator} {fields : Fields}
    {d : Definition} (h : ofFields id calculator fields = .ok d) : d.IsSound := by
  obtain ⟨plain, -, hcheck⟩ := exists_of_bind_ok h
  exact isSound_of_check hcheck

end Definition

namespace Registry

/-! ## Operations -/

/-- A definition made from its parts on the way into a registry. -/
def build (id : Value) (calculator : Option Calculator) (fields : Fields) :
    Except Fault Definition :=
  match fields.names.find? takenNames.contains with
  | some name => .error (.repeatedField "MetricRegistry.register()" name)
  | none => Definition.ofFields id calculator fields

theorem registerParts_of_build_error {id : Value} {calculator : Option Calculator} {fields : Fields}
    {f : Fault} (h : build id calculator fields = .error f) (r : Registry) :
    r.registerParts id calculator fields = .error f := by
  unfold build at h
  unfold registerParts
  cases htaken : fields.names.find? takenNames.contains with
  | some name =>
    rw [htaken] at h
    obtain rfl := Except.error.inj h
    rfl
  | none =>
    rw [htaken] at h
    dsimp only at h ⊢
    rw [h]
    rfl

theorem registerParts_of_build {id : Value} {calculator : Option Calculator} {fields : Fields}
    {d : Definition} (h : build id calculator fields = .ok d) (r : Registry) :
    r.registerParts id calculator fields = (r.register d).map fun r' => (d, r') := by
  unfold build at h
  unfold registerParts
  cases htaken : fields.names.find? takenNames.contains with
  | some name =>
    rw [htaken] at h
    cases h
  | none =>
    rw [htaken] at h
    dsimp only at h ⊢
    rw [h]
    cases hregister : r.register d <;> simp [hregister, bind, Except.bind, Except.map, pure,
      Except.pure]

theorem isSound_build {id : Value} {calculator : Option Calculator} {fields : Fields}
    {d : Definition} (h : build id calculator fields = .ok d) : d.IsSound := by
  unfold build at h
  split at h
  · cases h
  · exact Definition.isSound_ofFields h

/-- What can be asked of a registry: to register a definition that was made before, or one in its
parts; to be frozen; to look an id up. -/
inductive Operation where
  | register (d : Definition) (sound : d.IsSound)
  | registerParts (id : Value) (calculator : Option Calculator) (fields : Fields)
  | freeze
  | lookUp (id : Value)

inductive Answer where
  | registered (d : Definition)
  | frozen
  | found (d : Option Definition)

/-- The answer to an operation, and the registry after it. -/
def respond (r : Registry) : Operation → Except Fault Answer × Registry
  | .register d _ =>
    match r.register d with
    | .ok r' => (.ok (.registered d), r')
    | .error f => (.error f, r)
  | .registerParts id calculator fields =>
    match r.registerParts id calculator fields with
    | .ok (d, r') => (.ok (.registered d), r')
    | .error f => (.error f, r)
  | .freeze => (.ok .frozen, r.freeze)
  | .lookUp id => ((r.lookUp id).map .found, r)

def after (r : Registry) (ops : List Operation) : Registry :=
  ops.foldl (fun r op => (r.respond op).2) r

/-- The definition that an answer reports as registered. -/
def Answer.registered? : Except Fault Answer → Option Definition
  | .ok (.registered d) => some d
  | _ => none

/-- The definitions that are reported as registered, in order. -/
def registered (r : Registry) : List Operation → List Definition
  | [] => []
  | op :: ops => (Answer.registered? (r.respond op).1).toList ++ registered (r.respond op).2 ops

/-- The definition that an operation offers, if it is a sound one. -/
def Operation.offer? : Operation → Option Definition
  | .register d _ => some d
  | .registerParts id calculator fields => (build id calculator fields).toOption
  | .freeze => none
  | .lookUp _ => none

/-- The definitions that operations offer before the first that freezes. -/
def offered : List Operation → List Definition
  | [] => []
  | .freeze :: _ => []
  | op :: ops => op.offer?.toList ++ offered ops

theorem offered_cons {op : Operation} (h : op ≠ .freeze) (ops : List Operation) :
    offered (op :: ops) = op.offer?.toList ++ offered ops := by
  cases op with
  | freeze => exact absurd rfl h
  | _ => rfl

/-! ## One operation -/

section

variable {r : Registry} {d : Definition} {op : Operation}

/-- A definition is refused for the first of three reasons that holds, or added at the end. -/
theorem register_cases (r : Registry) (d : Definition) :
    (∃ f, r.register d = .error f ∧
      (r.frozen ∨ d.id.isHashable = false ∨ r.contains d.id)) ∨
    (r.frozen = false ∧ d.id.isHashable ∧ r.contains d.id = false ∧
      r.register d = .ok { r with definitions := r.definitions ++ [d] }) := by
  unfold register
  split_ifs with hfrozen hhash htaken
  · exact .inl ⟨_, rfl, .inl hfrozen⟩
  · exact .inl ⟨_, rfl, .inr (.inl (by simpa using hhash))⟩
  · exact .inl ⟨_, rfl, .inr (.inr htaken)⟩
  · exact .inr ⟨by simpa using hfrozen, by simpa using hhash, by simpa using htaken, rfl⟩

theorem respond_of_offer (h : op.offer? = some d) (r : Registry) : r.respond op =
    match r.register d with
    | .ok r' => (.ok (.registered d), r')
    | .error f => (.error f, r) := by
  cases op with
  | register d' sound =>
    obtain rfl := Option.some.inj h
    rfl
  | registerParts id calculator fields =>
    cases hbuild : build id calculator fields with
    | error f => simp [Operation.offer?, hbuild, Except.toOption] at h
    | ok d' =>
      obtain rfl : d' = d := by simpa [Operation.offer?, hbuild, Except.toOption] using h
      rw [respond, registerParts_of_build hbuild]
      cases r.register d' <;> rfl
  | freeze => cases h
  | lookUp id => cases h

/-- All that an operation can do: it freezes the registry, or it offers nothing and does nothing, or
what it offers is refused or registered. -/
theorem respond_cases (r : Registry) (op : Operation) :
    (op = .freeze ∧ r.respond op = (.ok .frozen, r.freeze)) ∨
    (op ≠ .freeze ∧ op.offer? = none ∧
      ∃ answer, Answer.registered? answer = none ∧ r.respond op = (answer, r)) ∨
    (∃ d f, op ≠ .freeze ∧ op.offer? = some d ∧
      (r.frozen ∨ d.id.isHashable = false ∨ r.contains d.id) ∧ r.respond op = (.error f, r)) ∨
    (∃ d, op ≠ .freeze ∧ op.offer? = some d ∧
      r.frozen = false ∧ d.id.isHashable ∧ r.contains d.id = false ∧
      r.respond op = (.ok (.registered d), { r with definitions := r.definitions ++ [d] })) := by
  by_cases hfreeze : op = .freeze
  · subst hfreeze
    exact .inl ⟨rfl, rfl⟩
  · refine .inr ?_
    cases hoffer : op.offer? with
    | some d =>
      refine .inr ?_
      rw [respond_of_offer hoffer]
      rcases r.register_cases d with ⟨f, hrefused, hwhy⟩ | ⟨hopen, hhash, hnew, hadded⟩
      · exact .inl ⟨d, f, hfreeze, rfl, hwhy, by rw [hrefused]⟩
      · exact .inr ⟨d, hfreeze, rfl, hopen, hhash, hnew, by rw [hadded]⟩
    | none =>
      refine .inl ⟨hfreeze, rfl, ?_⟩
      cases op with
      | register d sound => cases hoffer
      | registerParts id calculator fields =>
        cases hbuild : build id calculator fields with
        | error f => exact ⟨.error f, rfl, by rw [respond, registerParts_of_build_error hbuild]⟩
        | ok d => simp [Operation.offer?, hbuild, Except.toOption] at hoffer
      | freeze => exact absurd rfl hfreeze
      | lookUp id =>
        refine ⟨(r.lookUp id).map .found, ?_, rfl⟩
        cases r.lookUp id <;> rfl

/-- What is refused changes nothing. -/
theorem respond_of_error {f : Fault} (h : (r.respond op).1 = .error f) :
    (r.respond op).2 = r := by
  rcases r.respond_cases op with ⟨-, hr⟩ | ⟨-, -, _, -, hr⟩ | ⟨_, _, -, -, -, hr⟩ |
    ⟨_, -, -, -, -, -, hr⟩ <;> rw [hr] at h ⊢
  · cases h
  · cases h

/-- An operation adds what it reports as registered, and nothing else. -/
theorem definitions_respond (r : Registry) (op : Operation) : (r.respond op).2.definitions =
    r.definitions ++ (Answer.registered? (r.respond op).1).toList := by
  rcases r.respond_cases op with ⟨-, hr⟩ | ⟨-, -, _, hnone, hr⟩ | ⟨_, _, -, -, -, hr⟩ |
    ⟨_, -, -, -, -, -, hr⟩ <;> rw [hr]
  · exact (List.append_nil _).symm
  · rw [hnone]
    exact (List.append_nil _).symm
  · exact (List.append_nil _).symm
  · rfl

theorem frozen_respond (r : Registry) (op : Operation) :
    (r.respond op).2.frozen ↔ r.frozen ∨ op = .freeze := by
  rcases r.respond_cases op with ⟨rfl, hr⟩ | ⟨hne, -, _, -, hr⟩ | ⟨_, _, hne, -, -, hr⟩ |
    ⟨_, hne, -, -, -, -, hr⟩ <;> rw [hr]
  · exact ⟨fun _ => .inr rfl, fun _ => rfl⟩
  · exact (or_iff_left hne).symm
  · exact (or_iff_left hne).symm
  · exact (or_iff_left hne).symm

/-- Nothing changes a frozen registry. -/
theorem respond_of_frozen (h : r.frozen) (op : Operation) : (r.respond op).2 = r := by
  rcases r.respond_cases op with ⟨-, hr⟩ | ⟨-, -, _, -, hr⟩ | ⟨_, _, -, -, -, hr⟩ |
    ⟨_, -, -, hopen, -, -, hr⟩ <;> rw [hr]
  · show r.freeze = r
    rw [freeze, ← h]
  · exact absurd h (by simp [hopen])

theorem Built.respond (h : r.Built) (op : Operation) : (r.respond op).2.Built := by
  cases hoffer : op.offer? with
  | some d =>
    rw [respond_of_offer hoffer]
    cases hregister : r.register d with
    | error f => exact h
    | ok r' => exact h.register hregister
  | none =>
    rcases r.respond_cases op with ⟨-, hr⟩ | ⟨-, -, _, -, hr⟩ | ⟨_, _, -, hsome, -, hr⟩ |
      ⟨_, -, hsome, -, -, -, hr⟩
    · rw [hr]
      exact h.freeze
    · rw [hr]
      exact h
    · rw [hoffer] at hsome
      cases hsome
    · rw [hoffer] at hsome
      cases hsome

/-- Only sound definitions are offered. -/
theorem isSound_offer (h : op.offer? = some d) : d.IsSound := by
  cases op with
  | register d' sound =>
    obtain rfl := Option.some.inj h
    exact sound
  | registerParts id calculator fields =>
    cases hbuild : build id calculator fields with
    | error f => simp [Operation.offer?, hbuild, Except.toOption] at h
    | ok d' =>
      obtain rfl : d' = d := by simpa [Operation.offer?, hbuild, Except.toOption] using h
      exact isSound_build hbuild
  | freeze => cases h
  | lookUp id => cases h

end

/-! ## Any operations -/

section

variable {r : Registry}

theorem after_of_frozen (h : r.frozen) (ops : List Operation) : r.after ops = r := by
  induction ops with
  | nil => rfl
  | cons op ops ih =>
    show (r.respond op).2.after ops = r
    rw [respond_of_frozen h op, ih]

/-- A registry is frozen after the first operation that freezes it. -/
theorem frozen_after (r : Registry) (ops : List Operation) :
    (r.after ops).frozen ↔ r.frozen ∨ .freeze ∈ ops := by
  induction ops generalizing r with
  | nil => simp [after]
  | cons op ops ih =>
    show ((r.respond op).2.after ops).frozen ↔ _
    rw [ih, frozen_respond, List.mem_cons, or_assoc, @eq_comm _ op]

theorem Built.after (h : r.Built) (ops : List Operation) : Built (r.after ops) := by
  induction ops generalizing r with
  | nil => exact h
  | cons op ops ih => exact ih (h.respond op)

theorem definitions_after (r : Registry) (ops : List Operation) :
    (r.after ops).definitions = r.definitions ++ r.registered ops := by
  induction ops generalizing r with
  | nil => exact (List.append_nil _).symm
  | cons op ops ih =>
    show ((r.respond op).2.after ops).definitions = _
    rw [ih, definitions_respond, List.append_assoc]
    rfl

/-- What is registered was offered, in the same order. -/
theorem definitions_sublist (r : Registry) (ops : List Operation) :
    (r.after ops).definitions.Sublist (r.definitions ++ offered ops) := by
  induction ops generalizing r with
  | nil => simp [after, offered]
  | cons op ops ih =>
    have hrest := ih (r.respond op).2
    show ((r.respond op).2.after ops).definitions.Sublist _
    rcases r.respond_cases op with ⟨rfl, hr⟩ | ⟨hne, hoffer, _, -, hr⟩ |
      ⟨d, _, hne, hoffer, -, hr⟩ | ⟨d, hne, hoffer, -, -, -, hr⟩ <;> rw [hr] at hrest ⊢
    · rw [after_of_frozen (r := r.freeze) rfl]
      exact List.sublist_append_left _ _
    · rw [offered_cons hne, hoffer]
      exact hrest
    · rw [offered_cons hne, hoffer]
      exact hrest.trans ((List.Sublist.refl _).append (List.sublist_cons_self d _))
    · rw [offered_cons hne, hoffer]
      simpa using hrest

theorem isSound_of_mem_offered {ops : List Operation} {d : Definition} (h : d ∈ offered ops) :
    d.IsSound := by
  induction ops with
  | nil => cases h
  | cons op ops ih =>
    by_cases hfreeze : op = .freeze
    · subst hfreeze
      cases h
    · rw [offered_cons hfreeze, List.mem_append, Option.mem_toList] at h
      rcases h with hoffer | hrest
      · exact isSound_offer hoffer
      · exact ih hrest

/-- What is not the first of its kind is not found first. -/
theorem find?_append_cons {α : Type} {p : α → Bool} {a : α} {l : List α}
    (h : p a → ∃ b ∈ l, p b) (rest : List α) :
    (l ++ a :: rest).find? p = (l ++ rest).find? p := by
  rw [List.find?_append, List.find?_append, List.find?_cons]
  cases hp : p a with
  | false => rfl
  | true =>
    obtain ⟨b, hb, hpb⟩ := h hp
    obtain ⟨c, hc⟩ := Option.isSome_iff_exists.1 (List.find?_isSome.2 ⟨b, hb, hpb⟩)
    rw [hc]
    rfl

theorem contains_iff {id : Value} : r.contains id ↔ ∃ d ∈ r.definitions, d.id.same id :=
  List.find?_isSome

/-- **First registrations.** What is found under an id is the first definition that was offered with
it, whatever was offered and asked afterwards. -/
theorem get?_after (hopen : r.frozen = false) {id : Value} (hid : id.isHashable)
    (ops : List Operation) :
    (r.after ops).get? id = (r.definitions ++ offered ops).find? fun d => d.id.same id := by
  induction ops generalizing r with
  | nil => simp [after, offered, get?]
  | cons op ops ih =>
    show ((r.respond op).2.after ops).get? id = _
    rcases r.respond_cases op with ⟨rfl, hr⟩ | ⟨hne, hoffer, _, -, hr⟩ |
      ⟨d, _, hne, hoffer, hwhy, hr⟩ | ⟨d, hne, hoffer, -, -, -, hr⟩ <;> rw [hr]
    · rw [after_of_frozen (r := r.freeze) rfl, offered, List.append_nil]
      rfl
    · rw [offered_cons hne, hoffer]
      exact ih hopen
    · rw [offered_cons hne, hoffer, ih hopen]
      -- what is refused is found first under no id: another definition has the id, or nothing can
      refine (find?_append_cons (fun hsame => ?_) _).symm
      rcases hwhy with hfrozen | hhash | htaken
      · exact absurd hfrozen (by simp [hopen])
      · rw [Value.isHashable_congr hsame, hid] at hhash
        cases hhash
      · obtain ⟨d', hd', hsame'⟩ := contains_iff.1 htaken
        exact ⟨d', hd', Value.same_trans hsame' hsame⟩
    · rw [offered_cons hne, hoffer]
      have hrest := ih (r := { r with definitions := r.definitions ++ [d] }) hopen
      simpa using hrest

/-- The answer to an offer, as what was offered before decides it. -/
theorem respond_of_offer_after (hopen : r.frozen = false) (ops : List Operation) {op : Operation}
    {d : Definition} (hoffer : op.offer? = some d) : ((r.after ops).respond op).1 =
      if (r.after ops).frozen then .error (.registryFrozen d.id)
      else if !d.id.isHashable then .error (.unhashable d.id.shortTypeName)
      else if (r.definitions ++ offered ops).any (fun d' => d'.id.same d.id) then
        .error (.duplicateMetric d.id)
      else .ok (.registered d) := by
  rw [respond_of_offer hoffer, register]
  cases hfrozen : (r.after ops).frozen with
  | true => rfl
  | false =>
    cases hhash : d.id.isHashable with
    | false => rfl
    | true =>
      have htaken : (r.after ops).contains d.id =
          (r.definitions ++ offered ops).any fun d' => d'.id.same d.id := by
        rw [contains, get?_after hopen hhash, Bool.eq_iff_iff, List.find?_isSome, List.any_eq_true]
      rw [← htaken]
      cases (r.after ops).contains d.id <;> rfl

end

/-! ## Views -/

/-- Each thing under just one of several keys: what the keys select makes up the whole. -/
theorem flatMap_filter_perm {κ α : Type} {p : κ → α → Bool} {keys : List κ} (hkeys : keys.Nodup)
    {l : List α} (h : ∀ a ∈ l, ∃ k ∈ keys, p k a ∧ ∀ k' ∈ keys, p k' a → k' = k) :
    (keys.flatMap fun k => l.filter (p k)).Perm l := by
  induction keys generalizing l with
  | nil =>
    cases l with
    | nil => exact .nil
    | cons a l =>
      obtain ⟨k, hk, -⟩ := h a List.mem_cons_self
      cases hk
  | cons k keys ih =>
    obtain ⟨hk, hkeys⟩ := List.nodup_cons.1 hkeys
    -- what the other keys select is not selected by this one
    have hrest : keys.flatMap (fun k' => l.filter (p k')) =
        keys.flatMap fun k' => (l.filter fun a => !p k a).filter (p k') := by
      refine List.flatMap_congr fun k' hk' => ?_
      rw [List.filter_filter]
      refine List.filter_congr fun a ha => ?_
      cases hpk' : p k' a with
      | false => rfl
      | true =>
        obtain ⟨k₀, -, -, hunique⟩ := h a ha
        have hpk : p k a = false := by
          by_contra hpk
          have heq := (hunique k List.mem_cons_self (by simpa using hpk)).trans
            (hunique k' (List.mem_cons_of_mem k hk') hpk').symm
          exact hk (heq ▸ hk')
        simp [hpk]
    have hothers : ∀ a ∈ l.filter fun a => !p k a,
        ∃ k₀ ∈ keys, p k₀ a ∧ ∀ k' ∈ keys, p k' a → k' = k₀ := by
      intro a ha
      obtain ⟨ha, hpk⟩ := List.mem_filter.1 ha
      obtain ⟨k₀, hk₀, hp, hunique⟩ := h a ha
      rcases List.mem_cons.1 hk₀ with rfl | hk₀
      · simp [hp] at hpk
      · exact ⟨k₀, hk₀, hp, fun k' hk' => hunique k' (List.mem_cons_of_mem k hk')⟩
    rw [List.flatMap_cons, hrest]
    exact ((ih hkeys hothers).append_left _).trans (List.filter_append_perm (p k) l)

/-- A category has just one of the five names. -/
theorem exists_categoryName {v : Value} (h : isCategory v) : ∃ name ∈ categoryNames,
    v.equals (.text name) ∧ ∀ name' ∈ categoryNames, v.equals (.text name') → name' = name := by
  obtain ⟨name, hmem, hequals⟩ := List.any_eq_true.1 h
  refine ⟨name, hmem, hequals, fun name' _ hequals' => ?_⟩
  have hsame : v.same (.text name) := (Bool.and_eq_true_iff.1 hequals).1
  have hsame' : v.same (.text name') := (Bool.and_eq_true_iff.1 hequals').1
  simpa using Value.same_trans (Value.same_symm hsame') hsame

/-- The views of a registry agree: its list, its ids, what is found under an id, whether there is
anything, and the categories, into which its list is divided. -/
structure Views (r : Registry) : Prop where
  ids : r.ids = r.definitions.map (·.id)
  length : r.ids.length = r.definitions.length
  distinct : r.ids.Pairwise fun a b => ¬ a.same b
  found : ∀ {id d}, r.get? id = some d ↔ d ∈ r.definitions ∧ d.id.same id
  contains : ∀ id, r.contains id = (r.get? id).isSome ∧ (r.contains id ↔ ∃ k ∈ r.ids, k.same id)
  lookUp : ∀ id, id.isHashable → r.lookUp id = .ok (r.get? id)
  categorised : ∀ d ∈ r.definitions, ∃ name ∈ categoryNames, d ∈ r.byCategory (.text name) ∧
    ∀ name' ∈ categoryNames, d ∈ r.byCategory (.text name') → name' = name
  ordered : ∀ name, (r.byCategory (.text name)).Sublist r.definitions
  divided : (categoryNames.flatMap fun name => r.byCategory (.text name)).Perm r.definitions

/-- No two definitions of a registry answer to one id. -/
theorem Built.eq_of_same {r : Registry} (h : r.Built) {d d' : Definition}
    (hd : d ∈ r.definitions) (hd' : d' ∈ r.definitions) (hsame : d.id.same d'.id) : d = d' := by
  have hdistinct : r.definitions.Pairwise fun d d' => ¬ d.id.same d'.id :=
    List.pairwise_map.1 h.distinct
  have hsymm : Std.Symm fun d d' : Definition => ¬ d.id.same d'.id :=
    ⟨fun _ _ hne hsame => hne (Value.same_symm hsame)⟩
  by_contra hne
  exact hdistinct.forall hd hd' hne hsame

theorem of_get?_eq_some {r : Registry} {id : Value} {d : Definition} (h : r.get? id = some d) :
    d ∈ r.definitions ∧ d.id.same id :=
  ⟨List.mem_of_find?_eq_some h, List.find?_some (p := fun d : Definition => d.id.same id) h⟩

theorem Built.found_iff {r : Registry} (h : r.Built) {id : Value} {d : Definition} :
    r.get? id = some d ↔ d ∈ r.definitions ∧ d.id.same id := by
  refine ⟨of_get?_eq_some, fun ⟨hd, hsame⟩ => ?_⟩
  obtain ⟨d', hd'⟩ := Option.isSome_iff_exists.1 (contains_iff.2 ⟨d, hd, hsame⟩)
  obtain ⟨hmem, hsame'⟩ := of_get?_eq_some hd'
  rw [hd', h.eq_of_same hmem hd (Value.same_trans hsame' (Value.same_symm hsame))]

theorem Built.views {r : Registry} (h : r.Built) (hsound : ∀ d ∈ r.definitions, d.IsSound) :
    r.Views where
  ids := rfl
  length := List.length_map _
  distinct := h.distinct
  found := h.found_iff
  contains id := by
    refine ⟨rfl, contains_iff.trans ?_⟩
    simp [Registry.ids]
  lookUp id hid := if_pos hid
  categorised d hd := by
    obtain ⟨name, hname, hequals, hunique⟩ := exists_categoryName (hsound d hd).category
    exact ⟨name, hname, List.mem_filter.2 ⟨hd, hequals⟩, fun name' hname' hmem =>
      hunique name' hname' (List.mem_filter.1 hmem).2⟩
  ordered name := List.filter_sublist
  divided := flatMap_filter_perm (by decide) fun d hd => exists_categoryName (hsound d hd).category

/-! ## The whole history -/

/-- **Registration over a whole history.** The definitions of a registry are the given ones and
those that were registered; what is found, the views, the answers and the faults follow from what
was offered before the first operation that freezes. -/
theorem first_registered {given : List Definition} {r : Registry}
    (hgiven : ∀ d ∈ given, d.IsSound) (h : ofList given = .ok r) (ops : List Operation) :
    (r.after ops).definitions = given ++ r.registered ops ∧
    (∀ id, id.isHashable →
      (r.after ops).get? id = (given ++ offered ops).find? fun d => d.id.same id) ∧
    (∀ id d, (r.after ops).get? id = some d →
      ∀ more, ((r.after ops).after more).get? id = some d) ∧
    (r.after ops).Views ∧
    ((r.after ops).frozen ↔ .freeze ∈ ops) ∧
    (∀ op d, op.offer? = some d → ((r.after ops).respond op).1 =
      if (r.after ops).frozen then .error (.registryFrozen d.id)
      else if !d.id.isHashable then .error (.unhashable d.id.shortTypeName)
      else if (given ++ offered ops).any (fun d' => d'.id.same d.id) then
        .error (.duplicateMetric d.id)
      else .ok (.registered d)) ∧
    (∀ id calculator fields f, build id calculator fields = .error f →
      ((r.after ops).respond (.registerParts id calculator fields)).1 = .error f) ∧
    (∀ op f, ((r.after ops).respond op).1 = .error f →
      ((r.after ops).respond op).2 = r.after ops) ∧
    (.freeze ∈ ops → ∀ more, (r.after ops).after more = r.after ops) := by
  have hbuilt := built_ofList h
  obtain rfl := eq_of_ofList h
  have hsound : ∀ d ∈ (Registry.after ⟨given, false⟩ ops).definitions, d.IsSound := by
    intro d hd
    rcases List.mem_append.1 ((definitions_sublist _ ops).mem hd) with hmem | hmem
    · exact hgiven d hmem
    · exact isSound_of_mem_offered hmem
  have hfrozen : (Registry.after ⟨given, false⟩ ops).frozen ↔ .freeze ∈ ops :=
    (frozen_after _ ops).trans (or_iff_right Bool.false_ne_true)
  refine ⟨definitions_after _ ops, fun id hid => get?_after rfl hid ops, fun id d hget more => ?_,
    (hbuilt.after ops).views hsound, hfrozen,
    fun op d hoffer => respond_of_offer_after rfl ops hoffer,
    fun id calculator fields f hbuild => ?_, fun op f => respond_of_error,
    fun hmem more => after_of_frozen (hfrozen.2 hmem) more⟩
  · rw [get?] at hget ⊢
    rw [definitions_after, List.find?_append, hget]
    rfl
  · rw [respond, registerParts_of_build_error hbuild]

def lengthOnly : Calculator := ⟨fun events => .ok (.int events.length), false⟩

def eventCount : Definition := { id := .text "events", calculator := lengthOnly }

/-- One metric is added; the others have a taken id, no id, no known category, or come too late. -/
def additions : List Operation := [
  .registerParts (.text "pace") (some lengthOnly) [("category", .text "speed")],
  .registerParts (.text "events") (some lengthOnly) [("label", .text "Events")],
  .registerParts (.text "") (some lengthOnly) [],
  .registerParts (.text "odd") (some lengthOnly) [("category", .text "odd")],
  .freeze,
  .registerParts (.text "late") (some lengthOnly) []]

theorem first_registered_additions :
    let r := Registry.after ⟨[eventCount], false⟩ additions
    r.ids = [.text "events", .text "pace"] ∧
    r.get? (.text "events") = some eventCount ∧
    (r.respond (.register eventCount ⟨rfl, rfl⟩)).1 = .error (.registryFrozen (.text "events")) ∧
    r.Views := by
  intro r
  have hsound : ∀ d ∈ [eventCount], d.IsSound := fun d hd => by
    rw [List.mem_singleton.1 hd]
    exact ⟨rfl, rfl⟩
  obtain ⟨hdefinitions, hget, -, hviews, hfrozen, hanswer, -, -, -⟩ :=
    first_registered hsound (r := ⟨[eventCount], false⟩) rfl additions
  refine ⟨?_, ?_, ?_, hviews⟩
  · rw [hviews.ids, hdefinitions]
    rfl
  · rw [hget _ rfl]
    rfl
  · rw [hanswer _ eventCount rfl, if_pos (hfrozen.2 (by simp [additions]))]
    rfl

end Registry

end TypingTrace
