import TypingTrace.Proofs.Json.Texts

/-!
# One value, one line

**Theorem (`prints_print`).** In the style of logs a value has a JSON text exactly if it can be
written, and the text is without line breaks.

Texts are the only part of a value that can hold a line break, and between quotes it is escaped. The
rest of a text are the digits and marks of numbers, names, and what stands between items.
-/

namespace TypingTrace

open Text

/-! ## Numbers -/

theorem isUnbroken_of_isDigit {s : List Char} (h : ∀ c ∈ s, c.isDigit) : isUnbroken s := by
  rw [isUnbroken_iff]
  intro c hc
  have hdigit := h c hc
  constructor <;> rintro rfl <;> cases hdigit

theorem isUnbroken_natChars (n : Nat) : isUnbroken (natChars n) :=
  isUnbroken_of_isDigit fun _ => isDigit_of_mem_natChars

theorem isUnbroken_replicate (n : Nat) : isUnbroken (List.replicate n '0') := by
  apply isUnbroken_of_isDigit
  intro c hc
  rw [List.eq_of_mem_replicate hc]
  rfl

theorem isUnbroken_paddedChars (width n : Nat) : isUnbroken (paddedChars width n) := by
  rw [paddedChars, isUnbroken_append, isUnbroken_replicate, isUnbroken_natChars]
  rfl

theorem isUnbroken_intText (n : Int) : isUnbroken (intText n).toList := by
  unfold intText natText
  split_ifs <;> simp [isUnbroken_cons, isUnbroken_natChars]

theorem isUnbroken_layOut (positional : Bool) {digits : List Char} (h : isUnbroken digits)
    (point : Int) : isUnbroken (layOut positional digits point) := by
  have htake (n : Nat) : isUnbroken (digits.take n) := isUnbroken_of_subset h (List.take_subset n _)
  have hdrop (n : Nat) : isUnbroken (digits.drop n) := isUnbroken_of_subset h (List.drop_subset n _)
  unfold layOut
  dsimp only
  split_ifs
  · simp [isUnbroken_cons, isUnbroken_append, isUnbroken_replicate, h]
  · rw [isUnbroken_append, isUnbroken_append, h, isUnbroken_replicate]
    decide
  · simp [isUnbroken_cons, isUnbroken_append, htake, hdrop]
  all_goals
    -- With a power of ten one digit at most stands before the point.
    rw [isUnbroken_append, isUnbroken_cons, isUnbroken_cons, isUnbroken_paddedChars]
    match digits, h with
    | [], _ => decide
    | [d], h => simp [h]
    | d :: next :: rest, h =>
      rw [isUnbroken_cons] at h
      simp_all [isUnbroken_cons]

theorem isUnbroken_magnitudeText (format : BinaryFormat) (most : Int) (m : Nat) (k : Int) :
    isUnbroken (magnitudeText format most m k).toList := by
  unfold magnitudeText
  split_ifs
  · decide
  · rw [String.toList_ofList]
    apply isUnbroken_layOut
    apply isUnbroken_of_subset (isUnbroken_natChars _)
    intro c hc
    exact List.mem_reverse.1 (List.dropWhile_subset _ (List.mem_reverse.1 hc))

theorem isUnbroken_floatText (x : Float) : isUnbroken (floatText x).toList := by
  have hsigned (sign : String) (h : isUnbroken sign.toList) (m : Nat) (k : Int) :
      isUnbroken (sign ++ magnitudeText binary64 16 m k).toList := by
    rw [String.toList_append, isUnbroken_append, h, isUnbroken_magnitudeText]
    rfl
  unfold floatText
  dsimp only
  split_ifs
  any_goals decide
  all_goals exact hsigned _ (by decide) _ _

namespace Json

theorem isUnbroken_floatJson (x : Float) : isUnbroken (floatJson x).toList := by
  unfold floatJson
  split_ifs
  · decide
  · decide
  · decide
  · exact isUnbroken_floatText x

/-! ## Texts -/

theorem isUnbroken_stringText (s : String) : isUnbroken (stringText false s).toList := by
  have hchars : isUnbroken (s.toList.flatMap (charText false)) := by
    rw [isUnbroken, List.all_flatMap]
    exact List.all_eq_true.2 fun c _ => isUnbroken_charText c
  rw [toList_stringText, isUnbroken_cons, isUnbroken_append, hchars]
  decide

/-! ## Values -/

/-- What stands on one line between brackets has the characters of the brackets, of the items and of
what divides items. -/
theorem all_enclose {p : Char → Bool} (hcomma : p ',') (hblank : p ' ') (depth : Nat)
    (opening closing : String) (items : List String) :
    (enclose .line depth opening closing items).toList.all p =
      (opening.toList.all p && (items.all fun item => item.toList.all p) &&
        closing.toList.all p) := by
  have hseparator : ", ".toList.all p := by simp [hcomma, hblank]
  unfold enclose
  split_ifs with hempty hindented
  · rw [List.isEmpty_iff.1 hempty, String.toList_append, List.all_append, List.all_nil,
      Bool.and_true]
  · cases hindented
  · rw [String.toList_append, String.toList_append, List.all_append, List.all_append,
      all_intercalate hseparator]

theorem isUnbroken_enclose {opening closing : String} (hopening : isUnbroken opening.toList)
    (hclosing : isUnbroken closing.toList) (depth : Nat) {items : List String}
    (h : ∀ item ∈ items, isUnbroken item.toList) :
    isUnbroken (enclose .line depth opening closing items).toList := by
  have hitems : (items.all fun item => isUnbroken item.toList) = true := List.all_eq_true.2 h
  unfold isUnbroken at *
  rw [all_enclose rfl rfl, hopening, hitems, hclosing]
  rfl

/-- What is printed of something that can be written, or of something that cannot because an
integer in it has too many digits. -/
def Prints {α : Type} (writable : Bool) (p : α → Prop) : Except Fault α → Prop
  | .ok a => writable ∧ p a
  | .error f => writable = false ∧ f = .longInteger

namespace Prints

variable {α β : Type} {p : α → Prop} {q : β → Prop} {a b : Bool}

theorem map {x : Except Fault α} (h : Prints a p x) {f : α → β} (hf : ∀ v, p v → q (f v)) :
    Prints a q (x.map f) := by
  cases x with
  | ok v => exact ⟨h.1, hf v h.2⟩
  | error fault => exact h

theorem map₂ {γ : Type} {r : γ → Prop} {x : Except Fault α} {y : Except Fault β}
    (hx : Prints a p x) (hy : Prints b q y) {f : α → β → γ} (hf : ∀ v w, p v → q w → r (f v w)) :
    Prints (a && b) r (x.bind fun v => y.bind fun w => .ok (f v w)) := by
  cases x with
  | error fault =>
    obtain ⟨ha, hfault⟩ := hx
    exact ⟨by rw [ha, Bool.false_and], hfault⟩
  | ok v =>
    obtain ⟨ha, hv⟩ := hx
    cases y with
    | error fault =>
      obtain ⟨hb, hfault⟩ := hy
      exact ⟨by rw [hb, Bool.and_false], hfault⟩
    | ok w =>
      obtain ⟨hb, hw⟩ := hy
      exact ⟨by rw [ha, hb, Bool.and_true], hf v w hv hw⟩

end Prints

/-- A text is without line breaks. -/
abbrev OneLine (text : String) : Prop := isUnbroken text.toList

theorem prints_writeInt (n : Int) : Prints (fitsDigits n) OneLine (writeInt n) := by
  unfold writeInt
  split_ifs with h
  · exact ⟨h, isUnbroken_intText n⟩
  · exact ⟨Bool.not_eq_true _ ▸ h, rfl⟩

/-- A value that JSON does not know. -/
theorem prints_foreignText (v : Value) : Prints v.isWritable OneLine (foreignText .line v) := by
  have hwrite : Prints v.isWritable (fun _ => True) v.write := by
    unfold Value.write
    split_ifs with h
    · exact ⟨h, trivial⟩
    · exact ⟨Bool.not_eq_true _ ▸ h, rfl⟩
  exact hwrite.map fun s _ => isUnbroken_stringText s

mutual

theorem prints_printAt (depth : Nat) : (v : Value) →
    Prints v.isWritable OneLine (printAt .line depth v)
  | .null => ⟨rfl, by decide⟩
  | .bool b => ⟨rfl, by cases b <;> decide⟩
  | .int n => prints_writeInt n
  | .float x => ⟨rfl, isUnbroken_floatJson x⟩
  | .text s => ⟨rfl, isUnbroken_stringText s⟩
  | .list items => by
    rw [printAt, Value.isWritable]
    refine (prints_printItems (depth + 1) items).map fun texts htexts => ?_
    exact isUnbroken_enclose (by decide) (by decide) depth htexts
  | .object fields => by
    rw [printAt, Value.isWritable]
    refine (prints_printFields (depth + 1) fields).map fun texts htexts => ?_
    exact isUnbroken_enclose (by decide) (by decide) depth htexts
  | .kind k => ⟨rfl, isUnbroken_stringText k.name⟩
  | .scalar (.float64 x) => ⟨rfl, isUnbroken_floatJson x⟩
  | .fraction q => prints_foreignText (.fraction q)
  | .moment m => prints_foreignText (.moment m)
  | .scalar (.float32 x) => prints_foreignText (.scalar (.float32 x))
  | .scalar (.int64 n) => prints_foreignText (.scalar (.int64 n))
  | .scalar (.uint8 n) => prints_foreignText (.scalar (.uint8 n))
  | .scalar (.bool b) => prints_foreignText (.scalar (.bool b))

theorem prints_printItems (depth : Nat) : (items : List Value) →
    Prints (Value.areWritable items) (fun texts => ∀ text ∈ texts, OneLine text)
      (printItems .line depth items)
  | [] => ⟨rfl, by simp⟩
  | v :: rest => by
    rw [printItems, Value.areWritable]
    refine (prints_printAt depth v).map₂ (prints_printItems depth rest)
      fun text texts htext hrest =>
      ?_
    exact List.forall_mem_cons.2 ⟨htext, hrest⟩

theorem prints_printFields (depth : Nat) : (fields : List (String × Value)) →
    Prints (Value.haveWritable fields) (fun texts => ∀ text ∈ texts, OneLine text)
      (printFields .line depth fields)
  | [] => ⟨rfl, by simp⟩
  | (k, v) :: rest => by
    rw [printFields, Value.haveWritable]
    refine (prints_printAt depth v).map₂ (prints_printFields depth rest)
      fun text texts htext hrest =>
      ?_
    refine List.forall_mem_cons.2 ⟨?_, hrest⟩
    have hname : isUnbroken (stringText Style.line.ascii k).toList := isUnbroken_stringText k
    rw [OneLine, String.toList_append, String.toList_append, isUnbroken_append, isUnbroken_append,
      hname, htext]
    decide

end

/-- **One line.** -/
theorem prints_print (v : Value) : Prints v.isWritable OneLine (print .line v) :=
  prints_printAt 0 v

/-! ## More fields -/

theorem printFields_append {depth : Nat} {fields more : List (String × Value)}
    {texts others : List String} (h : printFields .line depth fields = .ok texts)
    (hmore : printFields .line depth more = .ok others) :
    printFields .line depth (fields ++ more) = .ok (texts ++ others) := by
  induction fields generalizing texts with
  | nil =>
    obtain rfl := Except.ok.inj h
    exact hmore
  | cons field fields ih =>
    obtain ⟨k, v⟩ := field
    rw [printFields] at h
    obtain ⟨text, htext, h⟩ := exists_of_bind_ok h
    obtain ⟨rest, hrest, h⟩ := exists_of_bind_ok h
    obtain rfl := Except.ok.inj h
    rw [List.cons_append, printFields, htext, ih hrest]
    rfl

/-- An object has the characters of two objects that its fields are divided among. -/
theorem exists_print_append {fields more : Fields} {text other : String}
    (h : print .line (.object fields) = .ok text)
    (hmore : print .line (.object more) = .ok other) :
    ∃ whole, print .line (.object (fields ++ more)) = .ok whole ∧
      ∀ p : Char → Bool, p ',' → p ' ' →
        whole.toList.all p = (text.toList.all p && other.toList.all p) := by
  rw [print, printAt] at h hmore
  obtain ⟨texts, htexts, h⟩ := exists_of_bind_ok h
  obtain ⟨others, hothers, hmore⟩ := exists_of_bind_ok hmore
  obtain rfl := Except.ok.inj h
  obtain rfl := Except.ok.inj hmore
  refine ⟨enclose .line 0 "\x7b" "\x7d" (texts ++ others), ?_, ?_⟩
  · rw [print, printAt, printFields_append htexts hothers]
    rfl
  · intro p hcomma hblank
    rw [all_enclose hcomma hblank, all_enclose hcomma hblank, all_enclose hcomma hblank,
      List.all_append]
    cases "\x7b".toList.all p <;> cases "\x7d".toList.all p <;> simp

end Json

end TypingTrace
