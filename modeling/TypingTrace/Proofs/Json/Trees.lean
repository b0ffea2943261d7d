import TypingTrace.Proofs.Json.Texts
import TypingTrace.Proofs.Settings.Tree

/-!
# What is read from texts

What is true of every value that is read from a text is shown by one induction on the fuel of the
reader, for values, the items of a list and the fields of an object at once (`forall_of_read`).

**Theorem (`isTree_of_readJson`).** The objects of a value that is read from a text name each field
once, as of several fields with one name only the last is kept.

**Theorem (`isWritable_of_readJson`).** A value that is read can be written: the reader accepts no
integer with more digits than the writer does.
-/

namespace TypingTrace

open Fields Text Value

namespace Fields

theorem names_set_of_mem {key : String} {fields : Fields} (h : key ∈ names fields) (v : Value) :
    names (set key v fields) = names fields := by
  induction fields with
  | nil => cases h
  | cons f rest ih =>
    obtain ⟨k, w⟩ := f
    rw [set]
    split_ifs with hk
    · rfl
    · have hrest : key ∈ names rest := (List.mem_cons.1 h).resolve_left (Ne.symm hk)
      exact congrArg (k :: ·) (ih hrest)

theorem nodup_names_set {fields : Fields} (h : (names fields).Nodup) (key : String) (v : Value) :
    (names (set key v fields)).Nodup := by
  by_cases hmem : key ∈ names fields
  · rwa [names_set_of_mem hmem]
  · rw [set_of_not_mem hmem, names, List.map_append]
    exact h.append (List.nodup_singleton key) (List.disjoint_singleton.2 hmem)

theorem mem_set {key : String} {v : Value} {fields : Fields} {field : String × Value}
    (h : field ∈ set key v fields) : field = (key, v) ∨ field ∈ fields := by
  induction fields with
  | nil => exact .inl (List.mem_singleton.1 h)
  | cons f rest ih =>
    obtain ⟨k, w⟩ := f
    rw [set] at h
    split_ifs at h with hk
    · rcases List.mem_cons.1 h with rfl | hrest
      · exact .inl (by rw [hk])
      · exact .inr (List.mem_cons_of_mem _ hrest)
    · rcases List.mem_cons.1 h with rfl | hrest
      · exact .inr List.mem_cons_self
      · exact (ih hrest).imp_right (List.mem_cons_of_mem _)

/-- What is true of the values of fields stays true when one is set to such a value. -/
theorem forall_ofList {p : Value → Prop} {pairs : List (String × Value)}
    (h : ∀ field ∈ pairs, p field.2) : ∀ field ∈ Fields.ofList pairs, p field.2 := by
  unfold ofList
  refine List.foldlRecOn (motive := fun fields : Fields => ∀ field ∈ fields, p field.2) pairs _
    (by simp) ?_
  rintro fields hfields ⟨key, v⟩ hpair field hfield
  rcases mem_set hfield with rfl | hold
  · exact h (key, v) hpair
  · exact hfields field hold

theorem nodup_names_ofList (pairs : List (String × Value)) :
    (names (Fields.ofList pairs)).Nodup := by
  unfold ofList
  refine List.foldlRecOn (motive := fun fields => (names fields).Nodup) pairs _ List.nodup_nil ?_
  exact fun fields hfields field _ => nodup_names_set hfields field.1 field.2

end Fields

namespace Json

/-! ## Numbers and words -/

theorem digits_of_readWhole {s rest : List Char} {digits : List Nat}
    (h : readWhole s = some (digits, rest)) : ∀ d ∈ digits, d < 10 := by
  have htaken : ∀ d ∈ (takeDigits s).1, d < 10 := by
    intro d hd
    obtain ⟨c, hc, rfl⟩ := List.mem_map.1 hd
    have hdigit := isDigit_iff.1 (List.mem_takeWhile_imp hc)
    omega
  unfold readWhole at h
  split at h
  · obtain ⟨rfl, -⟩ := Prod.mk.inj (Option.some.inj h)
    simp
  · split at h
    · cases h
    · rename_i ds after hne htake
      obtain ⟨rfl, -⟩ := Prod.mk.inj (Option.some.inj h)
      rwa [htake] at htaken

/-- An integer that is read has no more digits than may be written. -/
theorem fitsDigits_of_readInteger {negative : Bool} {digits : List Nat} {s rest : List Char}
    {v : Value} (hdigits : ∀ d ∈ digits, d < 10)
    (h : readInteger negative digits s = .ok (v, rest)) : ∃ n, v = .int n ∧ fitsDigits n := by
  unfold readInteger at h
  split at h
  · cases h
  · rename_i hcheck
    obtain ⟨rfl, -⟩ := Prod.mk.inj (Except.ok.inj h)
    refine ⟨_, rfl, fitsDigits_iff.2 ?_⟩
    unfold checkDigits at hcheck
    split_ifs at hcheck with hlimit
    have hbelow : ofDigits digits < 10 ^ digitLimit :=
      Nat.lt_of_lt_of_le (ofDigits_lt hdigits)
        (Nat.pow_le_pow_right (by decide) (Nat.not_lt.1 hlimit))
    split_ifs <;> simpa using hbelow

theorem readUnsigned_cases {start s rest : List Char} {negative : Bool} {v : Value}
    (h : readUnsigned start negative s = .ok (v, rest)) :
    (∃ n, v = .int n ∧ fitsDigits n) ∨ ∃ x, v = .float x := by
  unfold readUnsigned at h
  split at h
  · cases h
  · rename_i whole after hwhole
    dsimp only at h
    split at h
    · split at h
      · exact .inl (fitsDigits_of_readInteger (digits_of_readWhole hwhole) h)
      · exact .inr ⟨_, (Prod.mk.inj (Except.ok.inj h)).1.symm⟩
    · exact .inr ⟨_, (Prod.mk.inj (Except.ok.inj h)).1.symm⟩

theorem eq_of_readWord {word : String} {v w : Value} {s rest : List Char}
    (h : readWord word w s = .ok (v, rest)) : v = w := by
  unfold readWord at h
  split at h
  · exact (Prod.mk.inj (Except.ok.inj h)).1.symm
  · cases h

/-- A word or a number is no object, and can be written. -/
theorem readAtom_spec {s rest : List Char} {v : Value} (h : readAtom s = .ok (v, rest)) :
    ¬ v.isObject ∧ v.isWritable := by
  have hnumber {start s negative} (h : readUnsigned start negative s = .ok (v, rest)) :
      ¬ v.isObject ∧ v.isWritable := by
    obtain ⟨n, rfl, hn⟩ | ⟨x, rfl⟩ := readUnsigned_cases h
    · exact ⟨by simp [isObject], hn⟩
    · exact ⟨by simp [isObject], rfl⟩
  unfold readAtom at h
  split at h
  iterate 6
    obtain rfl := eq_of_readWord h
    exact ⟨by simp [isObject], rfl⟩
  · exact hnumber h
  · exact hnumber h

/-! ## Values -/

section

variable {p : Value → Prop} (hatom : ∀ {s v rest}, readAtom s = .ok (v, rest) → p v)
  (htext : ∀ s, p (.text s)) (hlist : ∀ items, (∀ v ∈ items, p v) → p (.list items))
  (hobject : ∀ fields : Fields, (names fields).Nodup → (∀ field ∈ fields, p field.2) →
    p (.object fields))

include hatom htext hlist hobject

/-- What is true of words, numbers and texts, and of lists and of objects with distinct names if it
is true of all that is in them, is true of every value that is read. -/
theorem forall_of_read (fuel : Nat) :
    (∀ {room s v rest}, readValue room fuel s = .ok (v, rest) → p v) ∧
    (∀ {room s items rest}, readItems room fuel s = .ok (items, rest) → ∀ v ∈ items, p v) ∧
    ∀ {room s fields rest}, readFields room fuel s = .ok (fields, rest) →
      ∀ field ∈ fields, p field.2 := by
  induction fuel with
  | zero =>
    refine ⟨?_, ?_, ?_⟩
    · intro room s v rest h
      unfold readValue at h
      cases h
    · intro room s items rest h
      unfold readItems at h
      cases h
    · intro room s fields rest h
      unfold readFields at h
      cases h
  | succ fuel ih =>
    obtain ⟨hvalue, hitems, hfields⟩ := ih
    refine ⟨?_, ?_, ?_⟩
    · intro room s v rest h
      unfold readValue at h
      split at h
      · obtain ⟨_, -, h⟩ := exists_of_bind_ok h
        obtain ⟨rfl, -⟩ := Prod.mk.inj (Except.ok.inj h)
        exact htext _
      · obtain ⟨_, -, h⟩ := exists_of_bind_ok h
        split at h
        · obtain ⟨rfl, -⟩ := Prod.mk.inj (Except.ok.inj h)
          exact hlist [] (by simp)
        · obtain ⟨_, hread, h⟩ := exists_of_bind_ok h
          obtain ⟨rfl, -⟩ := Prod.mk.inj (Except.ok.inj h)
          exact hlist _ (hitems hread)
      · obtain ⟨_, -, h⟩ := exists_of_bind_ok h
        split at h
        · obtain ⟨rfl, -⟩ := Prod.mk.inj (Except.ok.inj h)
          exact hobject [] List.nodup_nil (by simp)
        · obtain ⟨⟨fields, after⟩, hread, h⟩ := exists_of_bind_ok h
          obtain ⟨rfl, -⟩ := Prod.mk.inj (Except.ok.inj h)
          exact hobject _ (nodup_names_ofList fields) (forall_ofList (hfields hread))
      · exact hatom h
    · intro room s items rest h
      unfold readItems at h
      obtain ⟨⟨v, after⟩, hread, h⟩ := exists_of_bind_ok h
      have hfirst := hvalue hread
      dsimp only at h
      split at h
      · obtain ⟨rfl, -⟩ := Prod.mk.inj (Except.ok.inj h)
        simpa using hfirst
      · obtain ⟨⟨others, after⟩, hmore, h⟩ := exists_of_bind_ok h
        obtain ⟨rfl, -⟩ := Prod.mk.inj (Except.ok.inj h)
        exact List.forall_mem_cons.2 ⟨hfirst, hitems hmore⟩
      · cases h
    · intro room s fields rest h
      unfold readFields at h
      split at h
      · obtain ⟨⟨name, after⟩, -, h⟩ := exists_of_bind_ok h
        dsimp only at h
        split at h
        · obtain ⟨⟨v, after⟩, hread, h⟩ := exists_of_bind_ok h
          have hfirst := hvalue hread
          dsimp only at h
          split at h
          · obtain ⟨rfl, -⟩ := Prod.mk.inj (Except.ok.inj h)
            simpa using hfirst
          · obtain ⟨⟨others, after⟩, hmore, h⟩ := exists_of_bind_ok h
            obtain ⟨rfl, -⟩ := Prod.mk.inj (Except.ok.inj h)
            exact List.forall_mem_cons.2 ⟨hfirst, hfields hmore⟩
          · cases h
        · cases h
      · cases h

theorem of_readJson {text : String} {v : Value} (h : readJson text = .ok v) : p v := by
  unfold readJson at h
  dsimp only at h
  split at h
  · cases h
  · obtain ⟨⟨w, rest⟩, hread, h⟩ := exists_of_bind_ok h
    dsimp only at h
    split at h
    · obtain rfl := Except.ok.inj h
      exact (forall_of_read hatom htext hlist hobject _).1 hread
    · cases h

end

/-- **Distinct names.** -/
theorem isTree_of_readJson {text : String} {v : Value} (h : readJson text = .ok v) : v.IsTree := by
  refine of_readJson ?_ ?_ ?_ ?_ h
  · exact fun hatom => .leaf (readAtom_spec hatom).1
  · exact fun _ => .leaf (by simp [isObject])
  · exact fun _ _ => .leaf (by simp [isObject])
  · exact fun _ hnames hfields => .object hnames hfields

/-- **Short integers.** -/
theorem isWritable_of_readJson {text : String} {v : Value} (h : readJson text = .ok v) :
    v.isWritable := by
  refine of_readJson (p := fun v => v.isWritable) ?_ ?_ ?_ ?_ h
  · exact fun hatom => (readAtom_spec hatom).2
  · exact fun _ => rfl
  · exact fun items hitems => (areWritable_eq items).trans (List.all_eq_true.2 hitems)
  · exact fun fields _ hfields => (haveWritable_eq fields).trans (List.all_eq_true.2 hfields)

end Json

end TypingTrace
