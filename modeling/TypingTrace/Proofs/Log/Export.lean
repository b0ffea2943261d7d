import TypingTrace.Log.Reader
import TypingTrace.Proofs.Event.RoundTrip
import TypingTrace.Proofs.Log.Lines
import TypingTrace.Proofs.StableSort

/-!
# Exports that are read back

**Theorem (`readEvents_entryLines`).** Rows that are written to a log, one line each, are read back
without a warning, in the order of their times.

Of JSON it is assumed that the text of each row stays on one line, can be stored and reads back as
what was written (`Json.Restores`). The rest is up to the log: that every line is found again where
it was written, that nothing is taken away from it when blanks are stripped, since the text of an
object stands between braces, and that the fields of a row are read as that row.

**Theorem (`filter_inOrder`).** Sorting all rows and then taking those of one kind gives what was
written of that kind, if that was in order: sorting is stable, also for what is left of it.
-/

namespace TypingTrace

open Text

namespace Log

/-! ## Lines -/

/-- An object is written between braces. -/
theorem exists_toList_print {fields : Fields} {text : String}
    (h : Json.print .line (.object fields) = .ok text) :
    ∃ inner, text.toList = '\x7b' :: (inner ++ ['\x7d']) := by
  rw [Json.print, Json.printAt] at h
  obtain ⟨items, -, h⟩ := exists_of_bind_ok h
  obtain rfl := Except.ok.inj h
  unfold Json.enclose
  split_ifs with hempty hindented
  · exact ⟨[], rfl⟩
  · cases hindented
  · exact ⟨(String.intercalate ", " items).toList, by simp⟩

theorem strip_print {fields : Fields} {text : String}
    (h : Json.print .line (.object fields) = .ok text) : strip text = text := by
  obtain ⟨inner, hinner⟩ := exists_toList_print h
  exact strip_eq_self hinner rfl rfl

theorem print_ne_empty {fields : Fields} {text : String}
    (h : Json.print .line (.object fields) = .ok text) : text ≠ "" := by
  rintro rfl
  obtain ⟨inner, hinner⟩ := exists_toList_print h
  cases hinner

variable {entry : Fields} {text : String}

theorem entryLines_cons (h : Json.Restores text (.object entry)) (rest : List Fields) :
    entryLines (entry :: rest) =
      (text ++ "\n" ++ (entryLines rest).1, (entryLines rest).2) := by
  have hstorable : Storable entry := (storable_iff h.printed).2 (isStorable_of_isLine h.isLine)
  have happend := entryLines_append (List.forall_mem_singleton.2 hstorable) rest
  simpa [linesOf, lineOf, entryLine_of_isStorable h.printed (isStorable_of_isLine h.isLine),
    Except.toOption] using happend

theorem readLines_cons (h : Json.Restores text (.object entry)) (name : String) (n : Nat)
    {rest : List (String × Nat)} {values : List Value} {warnings : List String}
    (hrest : readLines name rest = .ok (values, warnings)) :
    readLines name ((text, n) :: rest) = .ok (.object entry :: values, warnings) := by
  rw [readLines, strip_print h.printed, if_neg (print_ne_empty h.printed), h.read, hrest]
  rfl

/-- What is written is stored, and its values are read back. -/
theorem readLines_entryLines {entries : List Fields}
    (h : ∀ entry ∈ entries, ∃ text, Json.Restores text (.object entry)) (name : String) (n : Nat) :
    (entryLines entries).2 = .ok () ∧
      readLines name ((lines (entryLines entries).1).zipIdx n) =
        .ok (entries.map .object, []) := by
  induction entries generalizing n with
  | nil => exact ⟨rfl, rfl⟩
  | cons entry rest ih =>
    obtain ⟨text, htext⟩ := h entry List.mem_cons_self
    obtain ⟨hstored, hread⟩ := ih (fun e he => h e (List.mem_cons_of_mem entry he)) (n + 1)
    rw [entryLines_cons htext]
    refine ⟨hstored, ?_⟩
    rw [lines_append htext.isLine, List.zipIdx_cons]
    exact readLines_cons htext name n hread

/-! ## Rows -/

theorem readRows_toWire {rows : List Row} (h : ∀ r ∈ rows, r.Readable) (name : String) (n : Nat) :
    readRows name ((rows.map Row.toWire).zipIdx n) = (rows, []) := by
  induction rows generalizing n with
  | nil => rfl
  | cons r rest ih =>
    have hread : Row.ofWire r.toWire = .ok r := Row.ofFields_toFields (h r List.mem_cons_self)
    rw [List.map_cons, List.zipIdx_cons, readRows,
      ih (fun r' hr' => h r' (List.mem_cons_of_mem r hr')) (n + 1), hread]

/-- **Exports.** Readable rows that JSON restores are read back from what is written of them. -/
theorem readEvents_entryLines {rows : List Row} (h : ∀ r ∈ rows, r.Readable)
    (hjson : ∀ r ∈ rows, ∃ text, Json.Restores text r.toWire) (name : String) :
    (entryLines (rows.map Row.toFields)).2 = .ok () ∧
      readEvents name (entryLines (rows.map Row.toFields)).1 = .ok (Row.inOrder rows, []) := by
  have hentries : ∀ entry ∈ rows.map Row.toFields, ∃ text, Json.Restores text (.object entry) := by
    intro entry hentry
    obtain ⟨r, hr, rfl⟩ := List.mem_map.1 hentry
    exact hjson r hr
  obtain ⟨hstored, hread⟩ := readLines_entryLines hentries name 1
  refine ⟨hstored, ?_⟩
  have hvalues : (rows.map Row.toFields).map Value.object = rows.map Row.toWire := by
    rw [List.map_map]
    rfl
  rw [readEvents, readLog, hread, hvalues]
  show Except.ok (Row.inOrder (readRows name ((rows.map Row.toWire).zipIdx 1)).1,
    [] ++ (readRows name ((rows.map Row.toWire).zipIdx 1)).2) = _
  rw [readRows_toWire h name 1]
  rfl

/-! ## Files -/

theorem obstacle?_write (path text : String) (d : Disk) :
    (d.write path text).obstacle? path = d.obstacle? path := rfl

/-- Entries that can be stored make up the text of a file that was empty. -/
theorem exists_appendEntries {path : String} {d : Disk} (hpath : d.obstacle? path = none)
    (hempty : (d.stored? path).getD "" = "") {entries : List Fields}
    (h : (entryLines entries).2 = .ok ()) :
    ∃ d', appendEntries path entries d = (.ok (), d') ∧
      (d'.read? path).getD "" = (entryLines entries).1 := by
  cases entries with
  | nil =>
    refine ⟨d, rfl, ?_⟩
    rw [Disk.read?, hpath]
    exact hempty
  | cons entry rest =>
    have happend : d.append path (entryLines (entry :: rest)).1 =
        .ok (d.write path (entryLines (entry :: rest)).1) := by
      rw [Disk.append, hpath, hempty, String.empty_append]
    refine ⟨d.write path (entryLines (entry :: rest)).1, ?_, ?_⟩
    · rw [appendEntries, if_neg (by simp)]
      dsimp only
      rw [happend, h]
    · rw [Disk.read?, obstacle?_write, hpath, Disk.stored?_write]
      rfl

end Log

/-! ## Order -/

theorem ofKey_filter {α : Type*} {key : α → Int} (k : Int) (p : α → Bool) (l : List α) :
    ofKey key k (l.filter p) = (ofKey key k l).filter p := List.filter_comm ..

/-- What is left of a stable sort is the stable sort of what is left. -/
theorem StableSort.filter {α : Type*} {key : α → Int} {l sorted : List α}
    (h : StableSort key l sorted) (p : α → Bool) :
    StableSort key (l.filter p) (sorted.filter p) where
  perm := h.perm.filter p
  ordered := h.ordered.filter p
  stable k := by rw [ofKey_filter, ofKey_filter, h.stable]

namespace Row

def instant (r : Row) : Int := r.time.instant

theorem stableSort_inOrder (rows : List Row) : StableSort instant rows (inOrder rows) :=
  stableSort_mergeSort rows

/-- **Order.** Rows of a kind that are in order are left in their order when all rows are sorted. -/
theorem filter_inOrder {rows kept : List Row} {p : Row → Bool} (hkept : rows.filter p = kept)
    (h : kept.Pairwise fun a b => a.instant ≤ b.instant) : (inOrder rows).filter p = kept := by
  have hsort := (stableSort_inOrder rows).filter p
  rw [hkept] at hsort
  exact hsort.unique (.self h)

end Row

/-! ## One session -/

theorem Filter.admits_session {id : Value} (hid : id.isNull = false) (owner : Value) (r : Row) :
    Filter.admits { session := id } owner r = r.session.equals id := by
  have hnull : Value.null.isNull = true := rfl
  simp [admits, meets, within, hid, hnull]

/-- The rows of one session that are read from an export. -/
theorem Log.readFiltered_session {rows : List Row} (h : ∀ r ∈ rows, r.Readable)
    (hjson : ∀ r ∈ rows, ∃ text, Json.Restores text r.toWire) (name : String) {id : Value}
    (hid : id.isNull = false) {kept : List Row}
    (hkept : rows.filter (fun r => r.session.equals id) = kept)
    (hordered : kept.Pairwise fun a b => a.instant ≤ b.instant) :
    readFiltered name (entryLines (rows.map Row.toFields)).1 { session := id } =
      .ok (kept, []) := by
  rw [readFiltered, (readEvents_entryLines h hjson name).2]
  simp only [bind, Except.bind]
  rw [Filter.apply, funext (Filter.admits_session hid .null), Row.filter_inOrder hkept hordered]
  rfl

end TypingTrace
