import TypingTrace.Proofs.Event.Wire
import TypingTrace.Proofs.Time.Iso

/-!
# Events on the wire and back

**Theorem (`ofWire_toWire`).** A row that is read from JSON and written again reads back as the same
row, equal in every field, so that what is written after one reading stays as it is.

What is read is `Readable`: its times are in range, since a number or a text never stands for
another one, and the session and project of a stored event are texts. A readable row is written such
that every field is found again where reading looks for it (`Interaction.IsIn`). A field that is
left out since it is null reads as null; empty metadata are left out and read as empty; a key code
has become a text, which is its own text.
-/

namespace TypingTrace

open Time

/-! ## Looking up what is written -/

namespace Fields

theorem get?_append (key : String) (a b : Fields) :
    get? key (a ++ b) = (get? key a).or (get? key b) := by
  induction a with
  | nil => rfl
  | cons f a ih =>
    obtain ⟨k, v⟩ := f
    rw [List.cons_append, get?, get?]
    split_ifs
    · rfl
    · exact ih

theorem get?_fieldIfAny (key name : String) (v : Value) :
    get? key (Interaction.fieldIfAny name v) = if name = key then
      if v.isNull then none else some v else none := by
  unfold Interaction.fieldIfAny
  split_ifs <;> simp_all [get?]

end Fields

namespace Interaction

/-- The names of the fields of an interaction on the wire. -/
def fieldNames : List String := [
  "eventType", "timestamp", "targetElement", "keyCode", "keyChar", "textBefore", "textAfter",
  "cursorPosition", "selectionStart", "selectionEnd", "metadata"]

theorem get?_metadata (key : String) (metadata : Fields) :
    Fields.get? key (if metadata.isEmpty then [] else [("metadata", .object metadata)]) =
      if "metadata" = key then if metadata.isEmpty then none else some (.object metadata)
      else none := by
  split_ifs <;> simp_all [Fields.get?]

/-- A field that is left out if it is null reads as null. -/
theorem getD_unlessNull (v : Value) : (if v.isNull then none else some v).getD .null = v := by
  cases v <;> rfl

/-- Fields that hold an interaction as it is written, whatever else they hold. -/
structure IsIn (e : Interaction) (fields : Fields) : Prop where
  kind : fields.get "eventType" = .text e.kind.name
  time : fields.get? "timestamp" = some (.text e.time.iso)
  target : fields.get "targetElement" = e.target
  keyCode : fields.get "keyCode" = ofKeyCode e.keyCode
  keyChar : fields.get "keyChar" = e.keyChar
  textBefore : fields.get "textBefore" = e.textBefore
  textAfter : fields.get "textAfter" = e.textAfter
  cursor : fields.get "cursorPosition" = ofPosition e.cursor
  selectionStart : fields.get "selectionStart" = ofPosition e.selectionStart
  selectionEnd : fields.get "selectionEnd" = ofPosition e.selectionEnd
  metadata : fields.get? "metadata" =
    if e.metadata.isEmpty then none else some (.object e.metadata)

theorem isIn_toFields_append (e : Interaction) {more : Fields}
    (hmore : ∀ name ∈ fieldNames, more.get? name = none) : e.IsIn (e.toFields ++ more) := by
  simp only [fieldNames, List.forall_mem_cons] at hmore
  constructor <;>
    simp only [toFields, Fields.get, Fields.get?_append, Fields.get?_fieldIfAny, Fields.get?,
      get?_metadata, hmore, String.reduceEq, if_true, if_false, Option.or_none, Option.none_or,
      Option.getD_some, getD_unlessNull]

theorem isIn_toFields (e : Interaction) : e.IsIn e.toFields := by
  have hin : e.IsIn (e.toFields ++ []) := e.isIn_toFields_append fun _ _ => rfl
  rwa [List.append_nil] at hin

/-- An interaction has no field of an identity. -/
theorem get?_toFields_eq_none (e : Interaction) {name : String} (h : name ∉ fieldNames) :
    e.toFields.get? name = none := by
  have hne : ∀ n ∈ fieldNames, ¬ n = name := fun n hn heq => h (heq ▸ hn)
  simp only [fieldNames, List.forall_mem_cons] at hne
  simp only [toFields, Fields.get?_append, Fields.get?_fieldIfAny, Fields.get?, get?_metadata, hne,
    if_false, Option.or_none]

theorem readPosition_of_get {fields : Fields} {name : String} {n : Option Nat}
    (h : fields.get name = ofPosition n) : readPosition fields name = .ok n := by
  rw [readPosition, h]
  cases n <;> rfl

theorem ofValue?_text (s : String) : Stamp.ofValue? (.text s) = Stamp.ofText? s := rfl

theorem ofWire_iso {t : Stamp} (h : t.InRange) : Stamp.ofWire (.text t.iso) = .ok t := by
  rw [Stamp.ofWire, ofValue?_text, Stamp.ofText?_iso h]

/-- **Reading what is written.** -/
theorem IsIn.ofFields {e : Interaction} {fields : Fields} (h : e.IsIn fields)
    (hrange : e.time.InRange) : ofFields fields = .ok e := by
  have hkind : readKind fields = .ok e.kind := by
    have hname : (Value.text e.kind.name).kind? = some e.kind := EventKind.ofName?_name e.kind
    rw [readKind, h.kind, hname]
  have hmetadata : readMetadata fields = .ok e.metadata := by
    rw [readMetadata, Fields.get, h.metadata]
    cases e.metadata <;> rfl
  have hcode : readKeyCode fields = .ok e.keyCode := by
    rw [readKeyCode, h.keyCode]
    cases e.keyCode <;> rfl
  rw [Interaction.ofFields, hkind, h.time, hmetadata, readPosition_of_get h.cursor,
    readPosition_of_get h.selectionStart, readPosition_of_get h.selectionEnd, hcode, h.target,
    h.keyChar, h.textBefore, h.textAfter]
  simp only [bind, Except.bind, ofWire_iso hrange, pure, Except.pure]

end Interaction

/-! ## Rows -/

/-- A stored event with times in range, in a session and a project that are named by texts. -/
structure StoredEvent.Readable (e : StoredEvent) : Prop where
  time : e.time.InRange
  accepted : ∀ t, e.accepted = some t → t.InRange
  session : ∃ s, e.session = .text s
  project : ∃ s, e.project = .text s

def Row.Readable : Row → Prop
  | plain e => e.time.InRange
  | stored e => e.Readable

/-- The fields of a stored event that make up its identity. -/
def StoredEvent.identityFields (e : StoredEvent) : Fields :=
  [("id", .text e.id), ("sessionId", e.session), ("projectId", e.project)] ++
    match e.accepted with
    | none => []
    | some t => [("createdAt", .text t.iso)]

theorem StoredEvent.toFields_eq (e : StoredEvent) :
    e.toFields = e.interaction.toFields ++ e.identityFields :=
  List.append_assoc e.interaction.toFields _ _

theorem StoredEvent.isIn_toFields (e : StoredEvent) : e.interaction.IsIn e.toFields := by
  rw [toFields_eq]
  refine e.interaction.isIn_toFields_append ?_
  simp only [Interaction.fieldNames, List.forall_mem_cons, List.not_mem_nil, identityFields,
    Fields.get?_append]
  cases e.accepted <;> simp [Fields.get?]

theorem ofWireIfAny_iso {t : Stamp} (h : t.InRange) :
    Stamp.ofWireIfAny (.text t.iso) = .ok (some t) := by
  have htruthy : (Value.text t.iso).truthy := by
    have hne : t.iso ≠ "" := by
      intro hempty
      have hlist := toList_iso t
      rw [hempty] at hlist
      exact List.append_ne_nil_of_right_ne_nil _ (List.cons_ne_nil _ _) hlist.symm
    simp [Value.truthy, hne]
  rw [Stamp.ofWireIfAny, if_pos htruthy, Interaction.ofWire_iso h]
  rfl

theorem StoredEvent.get?_toFields (e : StoredEvent) {name : String}
    (h : name ∉ Interaction.fieldNames) :
    e.toFields.get? name = e.identityFields.get? name := by
  rw [toFields_eq, Fields.get?_append, e.interaction.get?_toFields_eq_none h, Option.none_or]

namespace Row

theorem ofFields_toFields {r : Row} (h : r.Readable) : ofFields r.toFields = .ok r := by
  cases r with
  | plain e =>
    have hnone : carriesIdentity e.toFields = false := by
      simp [carriesIdentity, Fields.has, e.get?_toFields_eq_none, Interaction.fieldNames]
    rw [toFields, ofFields, e.isIn_toFields.ofFields h]
    simp [hnone, bind, Except.bind, pure, Except.pure]
  | stored e =>
    obtain ⟨s, hs⟩ := h.session
    obtain ⟨p, hp⟩ := h.project
    have hid : Fields.get? "id" e.toFields = some (.text e.id) := e.get?_toFields (by decide)
    have hsession : Fields.get? "sessionId" e.toFields = some (.text s) :=
      hs ▸ e.get?_toFields (by decide)
    have hproject : Fields.get? "projectId" e.toFields = some (.text p) :=
      hp ▸ e.get?_toFields (by decide)
    have haccepted : Stamp.ofWireIfAny (Fields.get "createdAt" e.toFields) = .ok e.accepted := by
      rw [Fields.get, e.get?_toFields (by decide), StoredEvent.identityFields]
      cases haccepted : e.accepted with
      | none => rfl
      | some t => exact ofWireIfAny_iso (h.accepted t haccepted)
    have hcarries : carriesIdentity e.toFields = true := by
      rw [carriesIdentity, Fields.has, hid]
      rfl
    rw [toFields, ofFields, e.isIn_toFields.ofFields h.time]
    simp only [bind, Except.bind, pure, Except.pure, hcarries, if_true, haccepted, identityPart,
      hid, hsession, hproject, Option.getD_some, Value.write_text]
    rw [← hs, ← hp]

end Row

/-! ## What is read -/

namespace Value

mutual

/-- Whether a value is one of JSON. -/
def isJson : Value → Bool
  | .null | .bool _ | .int _ | .float _ | .text _ => true
  | .list items => areJson items
  | .object fields => haveJson fields
  | .fraction _ | .scalar _ | .kind _ | .moment _ => false

def areJson : List Value → Bool
  | [] => true
  | v :: rest => isJson v && areJson rest

def haveJson : List (String × Value) → Bool
  | [] => true
  | (_, v) :: rest => isJson v && haveJson rest

end

end Value

theorem Value.haveJson_eq (fields : Fields) :
    haveJson fields = fields.all fun field => field.2.isJson := by
  induction fields with
  | nil => rfl
  | cons field fields ih => rw [haveJson, List.all_cons, ih]

theorem Fields.isJson_of_get? {fields : Fields} (h : Value.haveJson fields) {key : String}
    {v : Value} (hv : fields.get? key = some v) : v.isJson := by
  rw [Value.haveJson_eq] at h
  exact List.all_eq_true.1 h _ (mem_of_get? hv)

theorem Fields.isJson_get {fields : Fields} (h : Value.haveJson fields) (key : String) :
    (fields.get key).isJson :=
  get_of_forall (p := fun v => v.isJson) rfl fun _ => isJson_of_get? h

theorem inRange_of_ofWire {v : Value} (hv : v.isJson) {t : Stamp} (h : Stamp.ofWire v = .ok t) :
    t.InRange := by
  unfold Stamp.ofWire at h
  cases hread : Stamp.ofValue? v with
  | none => simp [hread] at h
  | some u =>
    rw [hread] at h
    obtain rfl := Except.ok.inj h
    refine Stamp.inRange_of_ofValue? ?_ hread
    rintro m rfl
    cases hv

theorem inRange_of_ofWireIfAny {v : Value} (hv : v.isJson) {accepted : Option Stamp}
    (h : Stamp.ofWireIfAny v = .ok accepted) {t : Stamp} (ht : accepted = some t) :
    t.InRange := by
  unfold Stamp.ofWireIfAny at h
  split_ifs at h
  · cases hread : Stamp.ofWire v with
    | error f => simp [hread, Except.map] at h
    | ok u =>
      obtain rfl : some u = accepted := by simpa [hread, Except.map] using h
      obtain rfl := Option.some.inj ht
      exact inRange_of_ofWire hv hread
  · obtain rfl := Except.ok.inj h
    cases ht

/-- The time of an interaction is the one that was sent with it. -/
theorem Interaction.exists_sent {fields : Fields} {e : Interaction} (h : ofFields fields = .ok e) :
    ∃ v, fields.get? "timestamp" = some v ∧ Stamp.ofWire v = .ok e.time := by
  unfold ofFields at h
  obtain ⟨kind, -, h⟩ := exists_of_bind_ok h
  cases hsent : fields.get? "timestamp" with
  | none =>
    simp only [hsent] at h
    cases h
  | some v =>
    simp only [hsent] at h
    obtain ⟨_, hv, h⟩ := exists_of_bind_ok h
    obtain rfl := Except.ok.inj hv
    obtain ⟨_, -, h⟩ := exists_of_bind_ok h
    obtain ⟨_, -, h⟩ := exists_of_bind_ok h
    obtain ⟨time, htime, h⟩ := exists_of_bind_ok h
    obtain ⟨_, -, h⟩ := exists_of_bind_ok h
    obtain ⟨_, -, h⟩ := exists_of_bind_ok h
    obtain ⟨_, -, h⟩ := exists_of_bind_ok h
    obtain rfl := Except.ok.inj h
    exact ⟨v, rfl, htime⟩

/-- An interaction that is read from JSON has a time in range. -/
theorem Interaction.inRange_of_ofFields {fields : Fields} (hfields : Value.haveJson fields)
    {e : Interaction} (h : ofFields fields = .ok e) : e.time.InRange := by
  obtain ⟨v, hsent, htime⟩ := exists_sent h
  exact inRange_of_ofWire (Fields.isJson_of_get? hfields hsent) htime

theorem Row.readable_of_ofFields {fields : Fields} (hfields : Value.haveJson fields) {r : Row}
    (h : ofFields fields = .ok r) : r.Readable := by
  unfold ofFields at h
  obtain ⟨interaction, hread, h⟩ := exists_of_bind_ok h
  have htime := Interaction.inRange_of_ofFields hfields hread
  split_ifs at h
  · obtain ⟨_, -, h⟩ := exists_of_bind_ok h
    obtain ⟨_, -, h⟩ := exists_of_bind_ok h
    obtain ⟨_, -, h⟩ := exists_of_bind_ok h
    obtain ⟨accepted, haccepted, h⟩ := exists_of_bind_ok h
    obtain rfl := Except.ok.inj h
    exact ⟨htime, fun t => inRange_of_ofWireIfAny (Fields.isJson_get hfields _) haccepted,
      ⟨_, rfl⟩, ⟨_, rfl⟩⟩
  · obtain rfl := Except.ok.inj h
    exact htime

/-- **Round trip.** A row that is read from JSON is written such that it reads back as itself, with
the fields that it was written with. -/
theorem Row.ofWire_toWire {v : Value} (hv : v.isJson) {r : Row} (h : ofWire v = .ok r) :
    ofWire r.toWire = .ok r ∧ (ofWire r.toWire).map toWire = .ok r.toWire := by
  cases v with
  | object fields =>
    have hread : ofWire r.toWire = .ok r := ofFields_toFields (readable_of_ofFields hv h)
    exact ⟨hread, by rw [hread]; rfl⟩
  | _ => cases h

/-- A row of the first millennium with an offset of less than two seconds, a key code and an id that
are numbers, metadata and a time of acceptance that count as false, and no session. -/
def oddRow : Fields := [
  ("eventType", .text "keydown"), ("timestamp", .text "0999-12-31T23:59:59.5-00:00:01.25"),
  ("keyCode", .int 65), ("keyChar", .bool false), ("metadata", .list []), ("id", .int 7),
  ("createdAt", .text "")]

theorem Row.ofWire_toWire_oddRow :
    (Value.object oddRow).isJson ∧ ∃ r, ofWire (.object oddRow) = .ok r ∧
      ofWire r.toWire = .ok r ∧ (ofWire r.toWire).map toWire = .ok r.toWire := by
  have hjson : (Value.object oddRow).isJson := by decide
  have hvalid : Fields.areEvent oddRow = true := by decide +kernel
  have hchecked := checked_ofFields oddRow
  rw [hvalid] at hchecked
  obtain ⟨e, he⟩ := hchecked.exists_ok
  have hrow : ofWire (.object oddRow) = .ok (.stored ⟨e, "7", .text "", .text "", none⟩) := by
    rw [ofWire, ofFields, he]
    rfl
  exact ⟨hjson, _, hrow, ofWire_toWire hjson hrow⟩

end TypingTrace
