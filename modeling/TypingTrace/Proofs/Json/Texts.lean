import Mathlib.Data.List.Induction
import TypingTrace.Json.Printer
import TypingTrace.Json.Reader
import TypingTrace.Proofs.Text.Ascii
import TypingTrace.Proofs.Text.Lines

/-!
# Texts in JSON

**Theorem (`readText_stringText`).** A text that is written as a string of a log reads back as
itself, whatever characters it has. Each character is written on its own, so one lemma about a
character is enough: quotes, backslashes and five control characters have an escape of their own,
other control characters are escaped by their code, and all others are written as they are.

**Theorem (`exists_restores`).** So an object that has texts in all its fields is restored from its
line (`Restores`), if no name stands for two fields and no text has half of a surrogate pair.
-/

namespace TypingTrace

open Text

namespace Json

/-- A text that JSON writes for a value, that can be stored on one line, and that reads as the
value. -/
structure Restores (text : String) (v : Value) : Prop where
  printed : print .line v = .ok text
  read : readJson text = .ok v
  isLine : Text.isLine text.toList

/-! ## Characters -/

/-- Four hexadecimal digits are read back. -/
theorem codeUnit?_hexChars : ∀ n < 0x20,
    ∃ a b c d, hexChars 4 n = [a, b, c, d] ∧ codeUnit? a b c d = some n := by
  intro n hn
  have hdigits : hexChars 4 n =
      ['0', '0', (hexChars 2 n)[0]?.getD '0', (hexChars 2 n)[1]?.getD '0'] := by
    revert n
    decide
  refine ⟨_, _, _, _, hdigits, ?_⟩
  revert n
  decide

theorem codeText_control {c : Char} (h : c.toNat < 0x20) :
    codeText (codePoint c) = unitText c.toNat := by
  rw [codePoint, half?_of_ascii (by omega), Option.getD_none, codeText, if_pos (by omega)]

/-- An escape of four digits that is no first half of a pair. -/
theorem readText_unit {s after : List Char} {u : Nat} (h : readUnit s = some (u, after))
    (hu : isHighHalf u = false) (opening : Nat) (read : List Char) :
    readText opening read ('\\' :: 'u' :: s) = readText opening (ofUnit u :: read) after := by
  have hpoint : readPoint s = .ok (ofUnit u, after) := by simp only [readPoint, h, hu]
  rw [readText]
  split
  · rename_i herror
    rw [hpoint] at herror
    cases herror
  · rename_i c rest hok
    obtain ⟨rfl, rfl⟩ := Prod.mk.inj (Except.ok.inj (hpoint.symm.trans hok))
    rfl

/-- What is written for a character is read as that character. The string has to go on after it,
as the digits of an escape are not the end of a text. -/
theorem readText_charText (c : Char) (opening : Nat) (read : List Char) {rest : List Char}
    (h : rest ≠ []) :
    readText opening read (charText false c ++ rest) = readText opening (c :: read) rest := by
  unfold charText
  split_ifs with hquote hslash hfeed hreturn htab hback hform hcontrol
  · subst hquote; simp [readText, unescape]
  · subst hslash; simp [readText, unescape]
  · subst hfeed; simp [readText, unescape]
  · subst hreturn; simp [readText, unescape]
  · subst htab; simp [readText, unescape]
  · subst hback; simp [readText, unescape]
  · subst hform; simp [readText, unescape]
  · have hlt : c.toNat < 0x20 := by simpa using hcontrol
    obtain ⟨a, b, c', d, hdigits, hunit⟩ := codeUnit?_hexChars c.toNat hlt
    have hhigh : isHighHalf c.toNat = false := by simp [isHighHalf]; omega
    have hlow : isLowHalf c.toNat = false := by simp [isLowHalf]; omega
    obtain ⟨next, more, rfl⟩ := List.exists_cons_of_ne_nil h
    have hread : readUnit (a :: b :: c' :: d :: next :: more) = some (c.toNat, next :: more) := by
      rw [readUnit, hunit]
      rfl
    rw [codeText_control hlt, unitText, hdigits]
    refine (readText_unit hread hhigh opening read).trans ?_
    simp [ofUnit, hhigh, hlow]
  · have hge : ¬ c.toNat < 0x20 := fun hlt => hcontrol (.inl hlt)
    simp [readText, hslash, hge]

/-- An escape is made of characters that stay on their line; any other character is written as it
is. -/
theorem charText_cases (c : Char) :
    isLine (charText false c) ∨ charText false c = [c] ∧ isUnbroken [c] := by
  unfold charText
  split_ifs with hquote hslash hfeed hreturn htab hback hform hcontrol
  any_goals
    left
    decide
  · left
    have hlt : c.toNat < 0x20 := by simpa using hcontrol
    rw [codeText_control hlt]
    generalize c.toNat = n at hlt
    revert n
    decide
  · exact .inr ⟨rfl, by simp [isUnbroken, hfeed, hreturn]⟩

theorem isUnbroken_charText (c : Char) : isUnbroken (charText false c) := by
  rcases charText_cases c with hescape | ⟨hself, hc⟩
  · exact isUnbroken_of_isLine hescape
  · rw [hself, hc]

theorem isLine_charText {c : Char} (h : half? c = none) : isLine (charText false c) := by
  rcases charText_cases c with hescape | ⟨hself, hc⟩
  · exact hescape
  · rw [hself]
    exact isLine_of_isUnbroken hc (by simp [isStorable, h])

/-! ## Strings -/

theorem toList_stringText (s : String) :
    (stringText false s).toList = '"' :: (s.toList.flatMap (charText false) ++ ['"']) := by
  simp [stringText]

theorem readText_flatMap (opening : Nat) (s read rest : List Char) :
    readText opening read (s.flatMap (charText false) ++ '"' :: rest) =
      .ok (read.reverse ++ s, rest) := by
  induction s generalizing read with
  | nil => rw [List.flatMap_nil, List.nil_append, readText, List.append_nil]
  | cons c s ih =>
    rw [List.flatMap_cons, List.append_assoc, readText_charText c opening read (by simp), ih,
      List.reverse_cons, List.append_assoc, List.singleton_append]

/-- **Texts.** What is written between quotes reads back as the text. -/
theorem readText_stringText (opening : Nat) (s : String) (rest : List Char) :
    readText opening [] ((stringText false s).toList.tail ++ rest) = .ok (s.toList, rest) := by
  rw [toList_stringText, List.tail_cons, List.append_assoc, List.singleton_append,
    readText_flatMap]
  rfl

theorem readValue_stringText (s : String) (room fuel : Nat) (rest : List Char) :
    readValue room (fuel + 1) ((stringText false s).toList ++ rest) = .ok (.text s, rest) := by
  have htext (opening : Nat) := readText_stringText opening s rest
  simp only [toList_stringText, List.tail_cons] at htext
  rw [toList_stringText, List.cons_append, readValue, htext]
  show Except.ok (Value.text (String.ofList s.toList), rest) = _
  rw [String.ofList_toList]

/-! ## Objects of texts -/

/-- Fields that hold texts. -/
def textFields (pairs : List (String × String)) : Fields := pairs.map fun (k, s) => (k, .text s)

def fieldText (pair : String × String) : String :=
  stringText false pair.1 ++ ": " ++ stringText false pair.2

theorem printFields_textFields (depth : Nat) (pairs : List (String × String)) :
    printFields .line depth (textFields pairs) = .ok (pairs.map fieldText) := by
  induction pairs with
  | nil => rfl
  | cons pair pairs ih =>
    rw [textFields, List.map_cons] at *
    rw [printFields, ih]
    rfl

theorem readFields_fieldText (pair : String × String) (room fuel : Nat) (rest : List Char) :
    readFields room (fuel + 2) ((fieldText pair).toList ++ rest) =
      match skipSpace rest with
      | '\x7d' :: rest => .ok ([(pair.1, .text pair.2)], rest)
      | ',' :: rest => (readFields room (fuel + 1) (skipSpace rest)).map fun (fields, rest) =>
        ((pair.1, .text pair.2) :: fields, rest)
      | rest => reject "Expecting ',' delimiter" rest := by
  obtain ⟨k, s⟩ := pair
  have hchars : (fieldText (k, s)).toList ++ rest =
      '"' :: ((stringText false k).toList.tail ++
        ':' :: ' ' :: ((stringText false s).toList ++ rest)) := by
    simp [fieldText, toList_stringText]
  have hcolon (l : List Char) : skipSpace (':' :: l) = ':' :: l := rfl
  have hspace : skipSpace (' ' :: ((stringText false s).toList ++ rest)) =
      (stringText false s).toList ++ rest := by
    rw [toList_stringText]
    rfl
  rw [hchars, readFields, readText_stringText]
  simp only [bind, Except.bind, hcolon, hspace, readValue_stringText, String.ofList_toList]
  rfl

theorem toList_intercalate_cons (pair next : String × String) (pairs : List (String × String)) :
    (String.intercalate ", " ((pair :: next :: pairs).map fieldText)).toList =
      (fieldText pair).toList ++ ',' :: ' ' ::
        (String.intercalate ", " ((next :: pairs).map fieldText)).toList := by
  simp [String.intercalate_cons_cons]

theorem exists_toList_intercalate (pair : String × String) (pairs : List (String × String)) :
    ∃ more, (String.intercalate ", " ((pair :: pairs).map fieldText)).toList = '"' :: more := by
  cases pairs <;> simp [String.intercalate_cons_cons, fieldText, toList_stringText]

theorem readFields_textFields (pair : String × String) (pairs : List (String × String)) (room : Nat)
    {fuel : Nat} (hfuel : pairs.length + 2 ≤ fuel) (rest : List Char) :
    readFields room fuel
        ((String.intercalate ", " ((pair :: pairs).map fieldText)).toList ++ '\x7d' :: rest) =
      .ok (textFields (pair :: pairs), rest) := by
  induction pairs generalizing pair fuel with
  | nil =>
    obtain ⟨fuel, rfl⟩ := Nat.exists_eq_add_of_le' (Nat.le_trans (Nat.le_add_left 2 _) hfuel)
    rw [List.map_singleton, String.intercalate_singleton, readFields_fieldText]
    rfl
  | cons next pairs ih =>
    obtain ⟨fuel, rfl⟩ := Nat.exists_eq_add_of_le' (Nat.le_trans (Nat.le_add_left 2 _) hfuel)
    rw [List.length_cons] at hfuel
    rw [toList_intercalate_cons, List.append_assoc, readFields_fieldText]
    have hread := ih next (show pairs.length + 2 ≤ fuel + 1 by omega)
    obtain ⟨more, hmore⟩ := exists_toList_intercalate next pairs
    rw [hmore] at hread ⊢
    show (readFields room (fuel + 1) ('"' :: more ++ '\x7d' :: rest)).map _ = _
    rw [hread]
    rfl

end Json

/-! ### Distinct names -/

namespace Fields

theorem set_of_not_mem {key : String} {fields : Fields} (h : key ∉ names fields) (v : Value) :
    set key v fields = fields ++ [(key, v)] := by
  induction fields with
  | nil => rfl
  | cons f rest ih =>
    obtain ⟨k, w⟩ := f
    rw [names, List.map_cons, List.mem_cons, not_or] at h
    rw [set, if_neg (Ne.symm h.1), ih h.2, List.cons_append]

/-- Fields with distinct names are read as they stand. -/
theorem ofList_of_nodup {fields : Fields} (h : (names fields).Nodup) : ofList fields = fields := by
  induction fields using List.reverseRecOn with
  | nil => rfl
  | append_singleton rest f ih =>
    obtain ⟨k, v⟩ := f
    rw [names, List.map_append, List.nodup_append] at h
    obtain ⟨hrest, -, hne⟩ := h
    have hnew : k ∉ names rest := fun hmem => hne k hmem k List.mem_cons_self rfl
    rw [ofList, List.foldl_append]
    show set k v (ofList rest) = _
    rw [ih hrest, set_of_not_mem hnew]

end Fields

namespace Json

/-- The text of an object of texts. -/
def objectText (pairs : List (String × String)) : String :=
  "\x7b" ++ String.intercalate ", " (pairs.map fieldText) ++ "\x7d"

theorem print_textFields (pairs : List (String × String)) :
    print .line (.object (textFields pairs)) = .ok (objectText pairs) := by
  rw [print, printAt, printFields_textFields]
  cases pairs <;> rfl

theorem length_le_intercalate (pairs : List (String × String)) :
    pairs.length ≤ (String.intercalate ", " (pairs.map fieldText)).toList.length := by
  induction pairs with
  | nil => exact Nat.zero_le _
  | cons pair pairs ih =>
    cases pairs with
    | nil => simp [fieldText, toList_stringText]
    | cons next pairs =>
      rw [toList_intercalate_cons]
      simp only [List.length_append, List.length_cons] at ih ⊢
      omega

theorem readJson_textFields {pairs : List (String × String)} (hnames : (pairs.map (·.1)).Nodup) :
    readJson (objectText pairs) = .ok (.object (textFields pairs)) := by
  cases pairs with
  | nil => rfl
  | cons pair pairs =>
    have hchars : (objectText (pair :: pairs)).toList = '\x7b' ::
        ((String.intercalate ", " ((pair :: pairs).map fieldText)).toList ++ ['\x7d']) := by
      simp [objectText]
    have hnodup : (Fields.names (textFields (pair :: pairs))).Nodup := by
      rw [Fields.names, textFields, List.map_map]
      exact hnames
    have hlength := length_le_intercalate (pair :: pairs)
    have hread (fuel : Nat) (h : pairs.length + 2 ≤ fuel) :=
      readFields_textFields pair pairs (depthLimit - 1) h []
    obtain ⟨more, hmore⟩ := exists_toList_intercalate pair pairs
    rw [hmore] at hread hlength hchars
    have hvalue (fuel : Nat) (h : pairs.length + 2 ≤ fuel) : readValue depthLimit (fuel + 1)
        ('\x7b' :: '"' :: (more ++ ['\x7d'])) = .ok (.object (textFields (pair :: pairs)), []) := by
      rw [readValue]
      show (readFields (depthLimit - 1) fuel ('"' :: more ++ ['\x7d']) >>= _) = _
      rw [hread fuel h]
      show Except.ok (Value.object (Fields.ofList (textFields (pair :: pairs))), []) = _
      rw [Fields.ofList_of_nodup hnodup]
    rw [readJson, hchars]
    show (readValue depthLimit _ ('\x7b' :: '"' :: (more ++ ['\x7d'])) >>= _) = _
    rw [hvalue _ (by simp only [List.length_cons, List.length_append] at hlength ⊢; omega)]
    rfl

/-! ### Lines -/

theorem isLine_stringText {s : String} (h : isStorable s.toList) :
    isLine (stringText false s).toList := by
  have hchars : isLine (s.toList.flatMap (charText false)) := by
    rw [isLine, List.all_flatMap]
    refine List.all_eq_true.2 fun c hc => isLine_charText ?_
    exact Option.isNone_iff_eq_none.1 (List.all_eq_true.1 h c hc)
  rw [toList_stringText, ← List.singleton_append, isLine_append, isLine_append, hchars]
  decide

theorem isLine_fieldText {pair : String × String} (hname : isStorable pair.1.toList)
    (htext : isStorable pair.2.toList) : isLine (fieldText pair).toList := by
  rw [fieldText, String.toList_append, String.toList_append, isLine_append, isLine_append,
    isLine_stringText hname, isLine_stringText htext]
  decide

theorem isLine_intercalate {pairs : List (String × String)}
    (h : ∀ pair ∈ pairs, isStorable pair.1.toList ∧ isStorable pair.2.toList) :
    isLine (String.intercalate ", " (pairs.map fieldText)).toList := by
  have hitems : ∀ item ∈ pairs.map fieldText, isLine item.toList := by
    intro item hitem
    obtain ⟨pair, hpair, rfl⟩ := List.mem_map.1 hitem
    obtain ⟨hname, htext⟩ := h pair hpair
    exact isLine_fieldText hname htext
  exact (all_intercalate (by decide) _).trans (List.all_eq_true.2 hitems)

/-- **Objects of texts.** -/
theorem exists_restores {pairs : List (String × String)} (hnames : (pairs.map (·.1)).Nodup)
    (h : ∀ pair ∈ pairs, isStorable pair.1.toList ∧ isStorable pair.2.toList) :
    ∃ text, Restores text (.object (textFields pairs)) := by
  refine ⟨objectText pairs, print_textFields pairs, readJson_textFields hnames, ?_⟩
  rw [objectText, String.toList_append, String.toList_append, isLine_append, isLine_append,
    isLine_intercalate h]
  decide

end Json

end TypingTrace
