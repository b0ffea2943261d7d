import TypingTrace.Log.Writer
import TypingTrace.Proofs.Json.Lines
import TypingTrace.Proofs.Time.Iso

/-!
# Lines of entries

An entry is written as its JSON text on a line of its own. Its line can be stored (`Storable`) if
there is such a text and it has no half of a surrogate pair, with or without the time at which the
entry is logged. Entries whose lines can be stored are written one after the other, and the lines of
what is written are their texts (`exists_lines_linesOf`).
-/

namespace TypingTrace.Log

open Text Time

/-- An entry has a line, and it can be stored. -/
def Storable (entry : Fields) : Prop := (entryLine entry).isOk

instance (entry : Fields) : Decidable (Storable entry) :=
  inferInstanceAs (Decidable ((entryLine entry).isOk = true))

theorem storingFault?_line {text : String} :
    storingFault? (text ++ "\n") = none ↔ isStorable text.toList := by
  rw [storingFault?, Option.map_eq_none_iff, halves?_eq_none_iff, String.toList_append, isStorable,
    List.all_append, Bool.and_eq_true]
  exact and_iff_left (by decide)

section

variable {entry : Fields} {text : String}

theorem entryLine_of_print (h : Json.print .line (.object entry) = .ok text) :
    entryLine entry =
      (storingFault? (text ++ "\n")).elim (Except.ok (text ++ "\n")) Except.error := by
  rw [entryLine, h]
  rfl

theorem entryLine_of_isStorable (h : Json.print .line (.object entry) = .ok text)
    (hstorable : isStorable text.toList) : entryLine entry = .ok (text ++ "\n") := by
  rw [entryLine_of_print h, storingFault?_line.2 hstorable]
  rfl

theorem storable_iff (h : Json.print .line (.object entry) = .ok text) :
    Storable entry ↔ isStorable text.toList := by
  rw [Storable, entryLine_of_print h, ← storingFault?_line]
  cases storingFault? (text ++ "\n") with
  | none => exact iff_of_true rfl rfl
  | some f => exact iff_of_false Bool.false_ne_true (Option.some_ne_none f)

end

theorem Storable.exists_print {entry : Fields} (h : Storable entry) :
    ∃ text, Json.print .line (.object entry) = .ok text := by
  cases htext : Json.print .line (.object entry) with
  | ok text => exact ⟨text, rfl⟩
  | error f =>
    rw [Storable, entryLine, htext] at h
    cases h

theorem exists_of_not_storable {entry : Fields} (h : ¬ Storable entry) :
    ∃ f, entryLine entry = .error f := by
  unfold Storable at h
  cases hline : entryLine entry with
  | error f => exact ⟨f, rfl⟩
  | ok line =>
    rw [hline] at h
    exact absurd rfl h

/-- The fault of a line does not lie in the file. -/
theorem isOfFile_of_entryLine {entry : Fields} {f : Fault} (h : entryLine entry = .error f) :
    Buffered.isOfFile f = false := by
  have hprints := Json.prints_print (.object entry)
  cases htext : Json.print .line (.object entry) with
  | error fault =>
    rw [htext] at hprints
    rw [entryLine, htext] at h
    obtain rfl := Except.error.inj h
    rw [hprints.2]
    rfl
  | ok text =>
    rw [entryLine_of_print htext] at h
    cases hfault : storingFault? (text ++ "\n") with
    | none =>
      rw [hfault] at h
      cases h
    | some fault =>
      rw [hfault] at h
      obtain rfl := Except.error.inj h
      obtain ⟨halves, -, rfl⟩ := Option.map_eq_some_iff.1 hfault
      rfl

/-! ## Completed entries -/

theorem storable_stamp (now : Clock) : Storable [("logged_at", .text now.stamp.iso)] := by
  have hascii : isStorable now.stamp.iso.toList :=
    isStorable_of_ascii fun c hc => (ascii_iso _ hc).1
  have hrestores : ∃ text, Json.Restores text
      (.object (Json.textFields [("logged_at", now.stamp.iso)])) :=
    Json.exists_restores (by simp) (by simpa using ⟨by decide, hascii⟩)
  obtain ⟨text, htext⟩ := hrestores
  exact (storable_iff htext.printed).2 (isStorable_of_isLine htext.isLine)

/-- The time at which an entry is logged is no obstacle. -/
theorem Storable.complete {entry : Fields} (h : Storable entry) (now : Clock) :
    Storable (complete now entry) := by
  unfold Log.complete
  by_cases hlogged : entry.has "logged_at"
  · rw [if_pos hlogged]
    exact h
  · -- The stamp is a last field of the object, whose text has no other characters than both parts.
    obtain ⟨text, htext⟩ := h.exists_print
    obtain ⟨stamp, hstamp⟩ := (storable_stamp now).exists_print
    obtain ⟨whole, hwhole, hall⟩ := Json.exists_print_append htext hstamp
    have hentry := (storable_iff htext).1 h
    have hlast := (storable_iff hstamp).1 (storable_stamp now)
    rw [if_neg hlogged, storable_iff hwhole, isStorable, hall _ (by decide) (by decide)]
    exact Bool.and_eq_true_iff.2 ⟨hentry, hlast⟩

/-! ## Several entries -/

/-- The line of an entry; nothing if it has none. -/
def lineOf (entry : Fields) : String := (entryLine entry).toOption.getD ""

theorem entryLine_eq_lineOf {entry : Fields} (h : Storable entry) :
    entryLine entry = .ok (lineOf entry) := by
  unfold Storable at h
  unfold lineOf
  cases hline : entryLine entry with
  | ok line => rfl
  | error f =>
    rw [hline] at h
    cases h

/-- The lines of entries. -/
def linesOf (entries : List Fields) : String := String.join (entries.map lineOf)

theorem linesOf_append (entries more : List Fields) :
    linesOf (entries ++ more) = linesOf entries ++ linesOf more := by
  simp [linesOf]

/-- Lines are written one after the other as long as they can be stored. -/
theorem entryLines_append {entries : List Fields} (h : ∀ entry ∈ entries, Storable entry)
    (more : List Fields) :
    entryLines (entries ++ more) =
      (linesOf entries ++ (entryLines more).1, (entryLines more).2) := by
  induction entries with
  | nil => simp [linesOf]
  | cons entry entries ih =>
    obtain ⟨hentry, hentries⟩ := List.forall_mem_cons.1 h
    simp [entryLines, entryLine_eq_lineOf hentry, ih hentries, linesOf, String.append_assoc]

theorem entryLines_of_storable {entries : List Fields} (h : ∀ entry ∈ entries, Storable entry) :
    entryLines entries = (linesOf entries, .ok ()) := by
  have happend := entryLines_append h []
  simpa [entryLines] using happend

/-- Each entry has a line of its own, which is its JSON text. -/
theorem exists_lines_linesOf {entries : List Fields} (h : ∀ entry ∈ entries, Storable entry) :
    ∃ texts, texts.map .ok = entries.map (fun entry => Json.print .line (.object entry)) ∧
      linesOf entries = String.join (texts.map (· ++ "\n")) ∧ lines (linesOf entries) = texts := by
  induction entries with
  | nil => exact ⟨[], rfl, rfl, rfl⟩
  | cons entry entries ih =>
    obtain ⟨hentry, hrest⟩ := List.forall_mem_cons.1 h
    obtain ⟨texts, hprinted, hjoin, hread⟩ := ih hrest
    obtain ⟨text, htext⟩ := hentry.exists_print
    have hstorable : isStorable text.toList := (storable_iff htext).1 hentry
    have hprints := Json.prints_print (.object entry)
    rw [htext] at hprints
    have hline : isLine text.toList := isLine_of_isUnbroken hprints.2 hstorable
    have hlines : linesOf (entry :: entries) = text ++ "\n" ++ linesOf entries := by
      rw [linesOf, List.map_cons, String.join_cons, lineOf, entryLine_of_isStorable htext hstorable,
        linesOf]
      rfl
    refine ⟨text :: texts, by simp [hprinted, htext], ?_, ?_⟩
    · rw [hlines, hjoin, List.map_cons, String.join_cons]
    · rw [hlines, lines_append hline, hread]

end TypingTrace.Log
