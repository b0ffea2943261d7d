import TypingTrace.Proofs.Event.RoundTrip

/-!
# Batches on the wire and back

A batch is sent as an object with the id of its session and its events. What is written of a batch
with times in range reads back as that batch (`Batch.ofFields_toFields`), and every batch that is
read from JSON has its times in range (`Batch.inRange_of_ofFields`).
-/

namespace TypingTrace

open Time

/-! ## Items -/

namespace Value

theorem areJson_eq (l : List Value) : areJson l = l.all isJson := by
  induction l with
  | nil => rfl
  | cons v l ih => rw [areJson, List.all_cons, ih]

theorem isJson_of_mem {l : List Value} (h : areJson l) {v : Value} (hv : v ∈ l) : v.isJson := by
  rw [areJson_eq] at h
  exact List.all_eq_true.1 h v hv

/-- What a value of JSON holds are values of JSON. -/
theorem isJson_of_items {v : Value} (hv : v.isJson) {l : List Value} (h : v.items = .ok l)
    {item : Value} (hitem : item ∈ l) : item.isJson := by
  unfold items at h
  split at h
  · obtain rfl := Except.ok.inj h
    exact isJson_of_mem hv hitem
  · obtain rfl := Except.ok.inj h
    obtain ⟨_, -, rfl⟩ := List.mem_map.1 hitem
    rfl
  · split at h
    · obtain rfl := Except.ok.inj h
      obtain ⟨_, -, rfl⟩ := List.mem_map.1 hitem
      rfl
    · cases h

theorem isJson_of_itemsIfAny {v : Value} (hv : v.isJson) {l : List Value}
    (h : v.itemsIfAny = .ok l) {item : Value} (hitem : item ∈ l) : item.isJson := by
  unfold itemsIfAny at h
  split_ifs at h
  · exact isJson_of_items hv h hitem
  · obtain rfl := Except.ok.inj h
    cases hitem

end Value

section

variable {α β : Type} {f : α → Except Fault β}

theorem exists_of_mem_mapM {l : List α} {l' : List β} (h : l.mapM f = .ok l') {b : β}
    (hb : b ∈ l') : ∃ a ∈ l, f a = .ok b := by
  induction l generalizing l' with
  | nil =>
    obtain rfl := Except.ok.inj h
    cases hb
  | cons a rest ih =>
    rw [List.mapM_cons] at h
    obtain ⟨first, hfirst, h⟩ := exists_of_bind_ok h
    obtain ⟨others, hothers, h⟩ := exists_of_bind_ok h
    obtain rfl := Except.ok.inj h
    rcases List.mem_cons.1 hb with rfl | hmem
    · exact ⟨a, List.mem_cons_self, hfirst⟩
    · obtain ⟨a', ha', hread⟩ := ih hothers hmem
      exact ⟨a', List.mem_cons_of_mem a ha', hread⟩

theorem mapM_map_of_forall {g : β → α} {l : List β} (h : ∀ b ∈ l, f (g b) = .ok b) :
    (l.map g).mapM f = .ok l := by
  induction l with
  | nil => rfl
  | cons b rest ih =>
    rw [List.map_cons, List.mapM_cons, h b List.mem_cons_self,
      ih fun b' hb' => h b' (List.mem_cons_of_mem b hb')]
    rfl

end

/-! ## Batches -/

namespace Batch

/-- The fields of a batch on the wire. -/
def toFields (b : Batch) : Fields :=
  [("sessionId", b.session), ("events", .list (b.events.map Interaction.toWire))]

theorem ofFields_toFields {b : Batch} (h : ∀ e ∈ b.events, e.time.InRange) :
    ofFields b.toFields = .ok b := by
  have hevents : (b.events.map Interaction.toWire).mapM Interaction.ofWire = .ok b.events :=
    mapM_map_of_forall fun e he => e.isIn_toFields.ofFields (h e he)
  have hitems : (Fields.get "events" b.toFields).itemsIfAny =
      .ok (b.events.map Interaction.toWire) := Value.itemsIfAny_list _
  rw [ofFields, hitems]
  show (b.events.map Interaction.toWire).mapM Interaction.ofWire >>= _ = _
  rw [hevents]
  rfl

/-- A batch that is read from JSON has its times in range. -/
theorem inRange_of_ofFields {fields : Fields} (hfields : Value.haveJson fields) {b : Batch}
    (h : ofFields fields = .ok b) {e : Interaction} (he : e ∈ b.events) : e.time.InRange := by
  unfold ofFields at h
  obtain ⟨items, hitems, h⟩ := exists_of_bind_ok h
  obtain ⟨events, hevents, h⟩ := exists_of_bind_ok h
  obtain rfl := Except.ok.inj h
  obtain ⟨item, hitem, hread⟩ := exists_of_mem_mapM hevents he
  have hjson := Value.isJson_of_itemsIfAny (Fields.isJson_get hfields "events") hitems hitem
  cases item with
  | object sent => exact Interaction.inRange_of_ofFields hjson hread
  | _ => cases hread

end Batch

end TypingTrace
