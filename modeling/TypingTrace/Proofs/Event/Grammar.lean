import TypingTrace.Proofs.Event.RoundTrip
import TypingTrace.Proofs.Time.Milliseconds
import TypingTrace.Value.Order

/-!
# The grammar of rows

`Value.IsRow` says what a row looks like as a value of JSON: which fields there have to be, and what
their values may be. It speaks of the fields alone and of none of the checks that reading makes.

**Theorem (`ofWire_grammar`).** Reading accepts a value of JSON exactly if it is a row by the
grammar and refuses any other as a malformed event, never with another fault. All times that it
reads are points in time, of which any two can be compared.

This is so of all values in which no integer has more digits than a text may have. With longer
integers a row is accepted exactly if its key code and its identity can be written
(`Value.HasTexts`), and what is refused may be refused with the fault of writing
(`ofWire_endlessTime`).

That a number is a time is a matter of its milliseconds: they have to be from the first midnight of
the calendar up to its end (`inCalendar_of_integer`, `inCalendar_of_double`).
-/

namespace TypingTrace

open Time

/-! ## The grammar -/

/-- A time on the wire: a number of milliseconds within the calendar, which is no truth value, or a
text in ISO 8601 notation. -/
inductive Value.IsTime : Value → Prop
  | int {n : Int} : firstMillisecond ≤ n → n < endMillisecond → IsTime (.int n)
  | float {x : Float} {q : Rat} : exactOf x = some q → firstMillisecond ≤ q → q < endMillisecond →
      IsTime (.float x)
  | text {s : String} : s ≠ "" → (readIso (writeOutZ s.toList)).isSome → IsTime (.text s)

/-- A field that may be missing, but is as it should be if it is there. -/
def Fields.May (fields : Fields) (name : String) (p : Value → Prop) : Prop :=
  ∀ v, fields.get? name = some v → p v

/-- The fields of a row. -/
structure Fields.IsRow (fields : Fields) : Prop where
  kind : ∃ k : EventKind, fields.get? "eventType" = some (.text k.name)
  time : ∃ v, fields.get? "timestamp" = some v ∧ v.IsTime
  metadata : fields.May "metadata" fun v => v.truthy = false ∨ ∃ metadata, v = .object metadata
  positions : ∀ name ∈ ["cursorPosition", "selectionStart", "selectionEnd"],
    fields.May name fun v => v = .null ∨ ∃ n : Nat, v = .int n
  /-- With any part of an identity there may be a time of acceptance. -/
  acceptance : (∃ name ∈ ["id", "sessionId", "projectId"], fields.has name) →
    fields.May "createdAt" fun v => v.truthy = false ∨ v.IsTime

/-- The values that are rows. -/
def Value.IsRow (v : Value) : Prop := ∃ fields, v = .object fields ∧ Fields.IsRow fields

/-- What a row keeps as a text can be written. -/
structure Fields.HaveTexts (fields : Fields) : Prop where
  keyCode : fields.May "keyCode" fun v => v.isWritable
  identity : ∀ name ∈ ["id", "sessionId", "projectId"], fields.May name fun v => v.isWritable

/-- The values of whose fields can be written what a row keeps as a text. -/
def Value.HasTexts (v : Value) : Prop := ∀ fields, v = .object fields → Fields.HaveTexts fields

theorem Value.hasTexts_of_isWritable {v : Value} (h : v.isWritable) : v.HasTexts := by
  rintro fields rfl
  exact ⟨fun _ => Fields.isWritable_of_get? h, fun _ _ _ => Fields.isWritable_of_get? h⟩

/-! ## Times -/

theorem isSome_ofMilliseconds? (q : Rat) :
    (Stamp.ofMilliseconds? q).isSome ↔ InCalendar (microsOf q) := by
  unfold Stamp.ofMilliseconds?
  dsimp only
  split_ifs with h <;> simp [h]

/-- What reading makes of a time is what the grammar says of it. -/
theorem isSome_ofValue? {v : Value} (hv : v.isJson) : (Stamp.ofValue? v).isSome ↔ v.IsTime := by
  cases v with
  | int n =>
    show (Stamp.ofMilliseconds? (roundBinary n)).isSome ↔ _
    rw [isSome_ofMilliseconds?, inCalendar_of_integer]
    refine ⟨fun h => .int h.1 h.2, fun h => ?_⟩
    cases h with
    | int h h' => exact ⟨h, h'⟩
  | float x =>
    show ((exactOf x).bind Stamp.ofMilliseconds?).isSome ↔ _
    cases hx : exactOf x with
    | none =>
      refine iff_of_false Bool.false_ne_true fun h => ?_
      cases h with
      | float hx' => simp [hx] at hx'
    | some q =>
      rw [Option.bind_some, isSome_ofMilliseconds?, inCalendar_of_double hx]
      refine ⟨fun h => .float hx h.1 h.2, fun h => ?_⟩
      cases h with
      | float hx' h h' =>
        obtain rfl := Option.some.inj (hx.symm.trans hx')
        exact ⟨h, h'⟩
  | text s =>
    show (Stamp.ofText? s).isSome ↔ _
    rw [Stamp.ofText?, Option.isSome_map]
    constructor
    · intro h
      refine .text ?_ h
      rintro rfl
      exact absurd h (by decide)
    · intro h
      cases h with
      | text _ h => exact h
  | null | bool | list | object => exact iff_of_false Bool.false_ne_true fun h => by cases h
  | fraction | scalar | kind | moment => cases hv

/-! ## Fields -/

namespace Fields

variable {fields : Fields}

/-- A field that may be missing is as it should be if null is. -/
theorem may_iff_get {name : String} {p : Value → Prop} (hnull : p .null) :
    fields.May name p ↔ p (fields.get name) := by
  unfold May get
  cases fields.get? name with
  | none => simpa using hnull
  | some v => simp

theorem kind?_get_iff (hfields : Value.haveJson fields) :
    (fields.get "eventType").kind?.isSome ↔
      ∃ k : EventKind, fields.get? "eventType" = some (.text k.name) := by
  unfold get
  cases hv : fields.get? "eventType" with
  | none => simp [Value.kind?]
  | some v =>
    have hjson := isJson_of_get? hfields hv
    rw [Option.getD_some]
    cases v with
    | text s =>
      show (EventKind.ofName? s).isSome ↔ _
      rw [Option.isSome_iff_exists]
      refine exists_congr fun k => ?_
      rw [EventKind.ofName?_eq_some_iff]
      exact ⟨fun h => by rw [h], fun h => by injection h with h; injection h with h; exact h.symm⟩
    | null | bool | int | float | list | object => simp [Value.kind?]
    | fraction | scalar | kind | moment => cases hjson

theorem hasTime_iff (hfields : Value.haveJson fields) :
    fields.hasTime ↔ ∃ v, fields.get? "timestamp" = some v ∧ v.IsTime := by
  unfold hasTime
  cases hv : fields.get? "timestamp" with
  | none => simp
  | some v =>
    rw [Option.bind_some, isSome_ofValue? (isJson_of_get? hfields hv)]
    simp

theorem hasMetadata_iff : fields.hasMetadata ↔
    fields.May "metadata" fun v => v.truthy = false ∨ ∃ metadata, v = .object metadata := by
  rw [may_iff_get (.inl rfl)]
  unfold hasMetadata
  cases fields.get "metadata" <;> simp

theorem hasPosition_iff (name : String) :
    fields.hasPosition name ↔ fields.May name fun v => v = .null ∨ ∃ n : Nat, v = .int n := by
  rw [may_iff_get (.inl rfl)]
  unfold hasPosition
  cases fields.get name with
  | int n =>
    simp only [decide_eq_true_eq, reduceCtorEq, Value.int.injEq, false_or]
    exact ⟨Int.eq_ofNat_of_zero_le, fun ⟨k, hk⟩ => hk ▸ Int.natCast_nonneg k⟩
  | _ => simp

theorem hasAcceptance_iff (hfields : Value.haveJson fields) : fields.hasAcceptance ↔
    fields.May "createdAt" fun v => v.truthy = false ∨ v.IsTime := by
  rw [may_iff_get (.inl rfl)]
  unfold hasAcceptance
  rw [Bool.or_eq_true, isSome_ofValue? (isJson_get hfields _), Bool.not_eq_true']

theorem carriesIdentity_iff : Row.carriesIdentity fields ↔
    ∃ name ∈ ["id", "sessionId", "projectId"], fields.has name := by
  simp [Row.carriesIdentity, or_assoc]

theorem isWritable_get_iff (name : String) :
    (fields.get name).isWritable ↔ fields.May name fun v => v.isWritable :=
  (may_iff_get (p := fun v => v.isWritable) rfl).symm

theorem hasPart_iff (name : String) :
    fields.hasPart name ↔ fields.May name fun v => v.isWritable := by
  unfold hasPart May
  cases fields.get? name with
  | none => simp [Value.isWritable]
  | some v => simp

/-- **The grammar of fields.** -/
theorem areRow_iff (hfields : Value.haveJson fields) :
    fields.areRow ↔ fields.IsRow ∧ fields.HaveTexts := by
  simp only [areRow, areEvent, Bool.and_eq_true, Bool.or_eq_true, Bool.not_eq_true',
    kind?_get_iff hfields, isWritable_get_iff, hasPart_iff, hasTime_iff hfields, hasMetadata_iff,
    hasPosition_iff, hasAcceptance_iff hfields]
  constructor
  · rintro ⟨⟨hkind, hcode, hmetadata, htime, hcursor, hstart, hend⟩, hidentity⟩
    refine ⟨⟨hkind, htime, hmetadata, by simp [hcursor, hstart, hend], fun hcarries => ?_⟩,
      hcode, ?_⟩
    · rw [← carriesIdentity_iff] at hcarries
      exact (hidentity.resolve_left (by simp [hcarries])).2.2.2
    · rcases hidentity with hnone | ⟨hid, hsession, hproject, -⟩
      · -- Without a part of an identity all three fields are missing.
        intro name hname v hv
        have hhas : fields.has name := by simp [has, hv]
        simp [carriesIdentity_iff.2 ⟨name, hname, hhas⟩] at hnone
      · simp [hid, hsession, hproject]
  · rintro ⟨⟨hkind, htime, hmetadata, hpositions, hacceptance⟩, hcode, htexts⟩
    refine ⟨⟨hkind, hcode, hmetadata, htime, hpositions _ (by simp), hpositions _ (by simp),
      hpositions _ (by simp)⟩, ?_⟩
    rw [← carriesIdentity_iff] at hacceptance
    cases hidentity : Row.carriesIdentity fields with
    | false => exact .inl rfl
    | true => exact .inr ⟨htexts _ (by simp), htexts _ (by simp), htexts _ (by simp),
        hacceptance hidentity⟩

end Fields

theorem Value.isRow_iff {v : Value} (hv : v.isJson) : v.isRow ↔ v.IsRow ∧ v.HasTexts := by
  cases v with
  | object fields =>
    show Fields.areRow fields ↔ _
    rw [Fields.areRow_iff hv]
    constructor
    · exact fun ⟨hrow, htexts⟩ => ⟨⟨fields, rfl, hrow⟩, fun _ heq => by cases heq; exact htexts⟩
    · rintro ⟨⟨_, heq, hrow⟩, htexts⟩
      cases heq
      exact ⟨hrow, htexts fields rfl⟩
  | _ => exact iff_of_false nofun fun ⟨⟨_, heq, _⟩, _⟩ => by cases heq

/-! ## Rows -/

namespace Row

/-- The times of a row: that of the interaction, and that of its acceptance if there is one. -/
def times : Row → List Stamp
  | plain e => [e.time]
  | stored e => e.time :: e.accepted.toList

theorem inRange_times {r : Row} (h : r.Readable) {t : Stamp} (ht : t ∈ r.times) : t.InRange := by
  cases r with
  | plain e =>
    obtain rfl := List.mem_singleton.1 ht
    exact h
  | stored e =>
    rcases List.mem_cons.1 ht with rfl | haccepted
    · exact h.time
    · exact h.accepted t (Option.mem_toList.1 haccepted)

theorem readable_of_ofWire {v : Value} (hv : v.isJson) {r : Row} (h : ofWire v = .ok r) :
    r.Readable := by
  cases v with
  | object fields => exact readable_of_ofFields hv h
  | _ => cases h

/-- **The grammar of rows.** A value of JSON is read as a row if and only if it is one by the
grammar, and its texts can be written. What is refused is malformed, unless something in the value
cannot be written. What is read has times of known offset only, so that any two are compared by the
instants they stand for. -/
theorem ofWire_grammar {v : Value} (hv : v.isJson) :
    ((∃ r, ofWire v = .ok r) ↔ v.IsRow ∧ v.HasTexts) ∧
    (v.isWritable → ((∃ r, ofWire v = .ok r) ↔ v.IsRow) ∧
      (¬ v.IsRow → ∃ f, ofWire v = .error f ∧ f.kind = "MalformedEvent")) ∧
    (∀ f, ofWire v = .error f →
      f.kind = "MalformedEvent" ∨ v.isWritable = false ∧ f.kind = "ValueError") ∧
    ∀ r, ofWire v = .ok r → ∀ t ∈ r.times, t.InRange ∧ t.toMoment.offset = some t.offset ∧
      ∀ w s, w.isJson → ofWire w = .ok s → ∀ u ∈ s.times, ∀ c : Comparison,
        (Value.moment t.toMoment).compare c (.moment u.toMoment) =
          .ok (c.ordered t.instant u.instant) := by
  have hchecked := checked_row v
  have hread : (∃ r, ofWire v = .ok r) ↔ v.IsRow ∧ v.HasTexts := by
    rw [← Value.isRow_iff hv]
    refine ⟨fun ⟨r, hr⟩ => (hr ▸ hchecked).of_ok, fun h => ?_⟩
    rw [h] at hchecked
    exact hchecked.exists_ok
  have hrefused : ∀ f, ofWire v = .error f →
      f.kind = "MalformedEvent" ∨ v.isWritable = false ∧ f.kind = "ValueError" :=
    fun f hf => (hf ▸ hchecked).of_error.2
  refine ⟨hread, fun hwritable => ⟨?_, fun hnone => ?_⟩, hrefused, fun r hr t ht => ?_⟩
  · rw [hread, and_iff_left (Value.hasTexts_of_isWritable hwritable)]
  · cases hresult : ofWire v with
    | ok r => exact absurd (hread.1 ⟨r, hresult⟩).1 hnone
    | error f => exact ⟨f, rfl, (hrefused f hresult).resolve_right (by simp [hwritable])⟩
  · exact ⟨inRange_times (readable_of_ofWire hv hr) ht, rfl, fun w s _ _ u _ c => rfl⟩

/-- A key press at a number of milliseconds. -/
def pressAt (milliseconds : Int) : Value :=
  .object [("eventType", .text "keydown"), ("timestamp", .int milliseconds)]

/-- A key press in the last millisecond of the calendar is read, and one in the next is not. -/
theorem ofWire_grammar_lastMillisecond :
    (pressAt 253402300799999).isJson ∧ (∃ r, ofWire (pressAt 253402300799999) = .ok r) ∧
      ∃ f, ofWire (pressAt 253402300800000) = .error f ∧ f.kind = "MalformedEvent" := by
  have hlast : (pressAt 253402300799999).isJson := by decide
  have hnext : (pressAt 253402300800000).isJson := by decide
  have hwritable : (pressAt 253402300800000).isWritable := by decide
  refine ⟨hlast, (ofWire_grammar hlast).1.2 ?_, ((ofWire_grammar hnext).2.1 hwritable).2 ?_⟩
  · rw [← Value.isRow_iff hlast]
    decide +kernel
  · intro hrow
    have hnone := (Value.isRow_iff hnext).2 ⟨hrow, Value.hasTexts_of_isWritable hwritable⟩
    exact absurd hnone (by decide +kernel)

end Row

/-! ### A time with too many digits -/

theorem fitsDigits_pow_digitLimit : Text.fitsDigits (10 ^ Text.digitLimit : Nat) = false := by
  rw [← Bool.not_eq_true, Text.fitsDigits_iff, Int.natAbs_natCast]
  exact Nat.lt_irrefl _

theorem endMillisecond_le_pow_digitLimit : endMillisecond ≤ (10 ^ Text.digitLimit : Nat) := by
  have hpow : 10 ^ 15 ≤ 10 ^ Text.digitLimit := Nat.pow_le_pow_right (by decide) (by decide)
  exact Int.le_trans (by decide : endMillisecond ≤ (10 ^ 15 : Nat)) (Int.ofNat_le.2 hpow)

/-- A time beyond the calendar is what a key press is refused for. -/
theorem Interaction.ofWire_pressAt {n : Int} (h : endMillisecond ≤ n) :
    ofWire (Row.pressAt n) = .error (.invalidTime (.int n)) := by
  have hnone : Stamp.ofValue? (.int n) = none := by
    rw [← Option.not_isSome_iff_eq_none, isSome_ofValue? (by rfl)]
    rintro (⟨-, hlt⟩ | _ | _)
    omega
  have htime : Stamp.ofWire (.int n) = .error (.invalidTime (.int n)) := by
    rw [Stamp.ofWire, hnone]
  show (Stamp.ofWire (.int n) >>= _) = _
  rw [htime]
  rfl

/-- The fault of a time that no message can show. -/
theorem kind_invalidTime_pow_digitLimit :
    (Fault.invalidTime (.int (10 ^ Text.digitLimit : Nat))).kind = "ValueError" := by
  refine Fault.kind_of_not_writable ?_
  rw [Fault.isWritable, Fault.shown, List.all_cons, Value.isWritable, fitsDigits_pow_digitLimit]
  exact Bool.false_ne_true

/-- **A row that is refused otherwise**: its time is beyond the calendar, and has so many digits
that no message can show it. -/
theorem Row.ofWire_endlessTime :
    (pressAt (10 ^ Text.digitLimit : Nat)).isJson ∧ ¬ (pressAt (10 ^ Text.digitLimit : Nat)).IsRow ∧
      ∃ f, ofWire (pressAt (10 ^ Text.digitLimit : Nat)) = .error f ∧ f.kind = "ValueError" := by
  refine ⟨by rfl, ?_, _, ?_, kind_invalidTime_pow_digitLimit⟩
  · rintro ⟨fields, heq, hrow⟩
    cases heq
    obtain ⟨v, hv, htime⟩ := hrow.time
    obtain rfl := Option.some.inj hv
    have hend := endMillisecond_le_pow_digitLimit
    cases htime with
    | int _ hlt => omega
  · show (Interaction.ofWire (pressAt _) >>= _) = _
    rw [Interaction.ofWire_pressAt endMillisecond_le_pow_digitLimit]
    rfl

end TypingTrace
