import TypingTrace.Proofs.Log.Lines

/-!
# Entries on their way to a file

A buffered writer takes entries, keeps them for a while and writes them when it can. What is in the
file and what is in the buffer together are the entries that the writer was given, in their order,
each with the time at which it was given (`Conserves`).

**Theorem (`Writing.after_spec`).** So it is after any number of entries and flushes at any times,
whatever directories come and go in the place of the file. An entry that cannot be written yet
waits, and one that is written waits no longer. No operation fails (`Writing.respond_spec`).

The lines of all entries have to be such as can be stored (`Storable`). Otherwise this is false: a
line that cannot be stored stops the writing after the lines before it, whose entries are kept all
the same, and each flush writes these lines once more (`Writing.after_flushes`).
-/

namespace TypingTrace.Log

open Text Time

/-! ## Files -/

/-- The text of a log, empty if there is no file. -/
def Disk.textOf (path : String) (d : Disk) : String := (d.stored? path).getD ""

@[simp] theorem Disk.textOf_write (path text : String) (d : Disk) :
    (d.write path text).textOf path = text := by
  simp [textOf]

theorem Disk.append_of_obstacle?_eq_none {path : String} {d : Disk}
    (h : d.obstacle? path = none) (text : String) :
    d.append path text = .ok (d.write path (d.textOf path ++ text)) := by
  simp [append, h, textOf]

/-- What stands in the way of a file is a fault of the file. -/
theorem isOfFile_of_obstacle? {path : String} (hpath : '\x00' ∉ path.toList) {d : Disk} {f : Fault}
    (h : d.obstacle? path = some f) : Buffered.isOfFile f := by
  unfold Disk.obstacle? at h
  split_ifs at h with hnull hlong hdirectory
  · exact absurd (by simpa using hnull) hpath
  · obtain rfl := Option.some.inj h
    rfl
  · obtain rfl := Option.some.inj h
    rfl

section

variable {path : String} {d : Disk} {entries : List Fields}

theorem appendEntries_of_open {text : String} {result : Except Fault Unit}
    (hentries : ¬ entries.isEmpty) (hlines : entryLines entries = (text, result))
    (hopen : d.obstacle? path = none) :
    appendEntries path entries d = (result, d.write path (d.textOf path ++ text)) := by
  rw [appendEntries, if_neg hentries, hlines]
  dsimp only
  rw [Disk.append_of_obstacle?_eq_none hopen]

theorem appendEntries_of_obstacle {f : Fault} (hentries : ¬ entries.isEmpty)
    (h : d.obstacle? path = some f) : appendEntries path entries d = (.error f, d) := by
  have happend (text : String) : d.append path text = .error f := by
    rw [Disk.append, h]
  rw [appendEntries, if_neg hentries]
  dsimp only
  rw [happend]

end

/-! ## One operation -/

/-- What a writer and its file make of entries that are given to it: those at the front are written
at the end of the file, and the others wait. -/
structure Conserves (w : Buffered) (d : Disk) (given : List Fields) (w' : Buffered) (d' : Disk) :
    Prop where
  path : w'.path = w.path
  batchSize : w'.batchSize = w.batchSize
  flushInterval : w'.flushInterval = w.flushInterval
  flow : ∃ written, w.buffer ++ given = written ++ w'.buffer ∧
    d'.textOf w.path = d.textOf w.path ++ linesOf written

namespace Conserves

variable {w w' w'' : Buffered} {d d' d'' : Disk} {given more : List Fields}

theorem of_textOf (h : d'.textOf w.path = d.textOf w.path) : Conserves w d [] w d' :=
  ⟨rfl, rfl, rfl, [], by simp, by simp [h, linesOf]⟩

theorem refl (w : Buffered) (d : Disk) : Conserves w d [] w d := of_textOf rfl

theorem trans (h : Conserves w d given w' d') (h' : Conserves w' d' more w'' d'') :
    Conserves w d (given ++ more) w'' d'' := by
  obtain ⟨written, hbuffer, htext⟩ := h.flow
  obtain ⟨later, hbuffer', htext'⟩ := h'.flow
  rw [h.path] at htext'
  refine ⟨h'.path.trans h.path, h'.batchSize.trans h.batchSize,
    h'.flushInterval.trans h.flushInterval, written ++ later, ?_, ?_⟩
  · rw [← List.append_assoc, hbuffer, List.append_assoc, hbuffer', List.append_assoc]
  · rw [htext', htext, linesOf_append, String.append_assoc]

end Conserves

namespace Buffered

/-- A writer that can be asked whether its buffer is to be written, and can write it if nothing
stands in the way. -/
structure Sound (b : Int) (w : Buffered) : Prop where
  path : '\x00' ∉ w.path.toList
  batchSize : w.batchSize = .int b
  flushInterval : w.flushInterval.number?.isSome
  buffer : ∀ entry ∈ w.buffer, Storable entry

variable {b : Int} {w w' : Buffered} {d d' : Disk} {given : List Fields}

theorem Sound.of_conserves (hw : w.Sound b) (h : Conserves w d given w' d')
    (hgiven : ∀ entry ∈ given, Storable entry) : w'.Sound b := by
  obtain ⟨written, hbuffer, -⟩ := h.flow
  refine ⟨h.path ▸ hw.path, h.batchSize ▸ hw.batchSize, h.flushInterval ▸ hw.flushInterval, ?_⟩
  intro entry hentry
  have hmem : entry ∈ w.buffer ++ given := hbuffer ▸ List.mem_append_right written hentry
  rcases List.mem_append.1 hmem with hold | hnew
  · exact hw.buffer entry hold
  · exact hgiven entry hnew

/-- A new writer has nothing to write, and can be asked whether it has. -/
theorem sound_of_start {path : String} {interval : Value} {now : Clock}
    (hstart : start path (.int b) interval now = .ok w)
    (hpath : '\x00' ∉ w.path.toList) (hinterval : interval.number?.isSome) :
    w.Sound b ∧ w.buffer = [] := by
  obtain ⟨normal, -, hw⟩ := exists_of_bind_ok hstart
  obtain rfl := Except.ok.inj hw
  exact ⟨⟨hpath, rfl, hinterval, by simp⟩, rfl⟩

/-- A flush warns, or the buffer is empty after it. -/
theorem flush_spec (hw : w.Sound b) (now : Clock) (d : Disk) :
    ∃ w' d' warnings, w.flush now d = (.ok (), w', d', warnings) ∧ Conserves w d [] w' d' ∧
      (warnings = [] → w'.buffer = []) := by
  by_cases hempty : w.buffer.isEmpty
  · refine ⟨w, d, [], ?_, .refl w d, fun _ => List.isEmpty_iff.1 hempty⟩
    rw [flush, if_pos hempty]
  · cases hobstacle : d.obstacle? w.path with
    | none =>
      have happend :=
        appendEntries_of_open hempty (entryLines_of_storable hw.buffer) hobstacle
      refine ⟨{ w with buffer := [], lastFlush := now },
        d.write w.path (d.textOf w.path ++ linesOf w.buffer), [], ?_, ?_, fun _ => rfl⟩
      · rw [flush, if_neg hempty, happend]
      · exact ⟨rfl, rfl, rfl, w.buffer, rfl, Disk.textOf_write _ _ _⟩
    | some f =>
      have hfile : isOfFile f := isOfFile_of_obstacle? hw.path hobstacle
      refine ⟨w, d, ["Warning: Failed to flush batch to " ++ w.path ++ ": " ++ f.text], ?_,
        .refl w d, ?_⟩
      · rw [flush, if_neg hempty, appendEntries_of_obstacle hempty hobstacle]
        simp only [hfile, if_true]
      · intro h
        cases h

/-- Whether the last writing is long enough ago can be told. -/
theorem exists_isOverdue (hw : w.Sound b) (now : Clock) :
    ∃ overdue, w.isOverdue now = .ok overdue := by
  obtain ⟨interval, hinterval⟩ := Option.isSome_iff_exists.1 hw.flushInterval
  have hpassed : (Value.float (now.since w.lastFlush)).compare .gt w.flushInterval =
      .ok (Comparison.gt.numbers (.float (now.since w.lastFlush)) interval) :=
    Value.compare_numbers rfl hinterval .gt
  have hpositive : w.flushInterval.compare .gt (.int 0) =
      .ok (Comparison.gt.numbers interval (.int 0)) := Value.compare_numbers hinterval rfl .gt
  unfold isOverdue
  rw [hpositive, hpassed]
  cases Comparison.gt.numbers interval (.int 0) with
  | true => exact ⟨_, rfl⟩
  | false => exact ⟨false, rfl⟩

/-- Whether the buffer is to be written can be told. If not, it is short. -/
theorem exists_isDue (hw : w.Sound b) (now : Clock) :
    ∃ due, w.isDue now = .ok due ∧ (due = false → (w.buffer.length : Int) < b) := by
  have hsize : (Value.int w.buffer.length).compare .ge w.batchSize =
      .ok (decide (b ≤ w.buffer.length)) := by
    rw [hw.batchSize, Value.compare_numbers rfl rfl, Comparison.numbers, Number.le_int]
  unfold isDue
  rw [hsize]
  by_cases hfull : b ≤ w.buffer.length
  · refine ⟨true, ?_, by simp⟩
    rw [decide_eq_true hfull]
    rfl
  · obtain ⟨overdue, hoverdue⟩ := exists_isOverdue hw now
    refine ⟨overdue, ?_, fun _ => Int.not_le.1 hfull⟩
    rw [decide_eq_false hfull]
    exact hoverdue

/-- An entry is added, and unless there is a warning fewer are left than are written together. -/
theorem append_spec (hw : w.Sound b) {entry : Fields} (hentry : Storable entry) (now : Clock)
    (d : Disk) :
    ∃ w' d' warnings, w.append now entry d = (.ok (), w', d', warnings) ∧
      Conserves w d [complete now entry] w' d' ∧
      (warnings = [] → (w'.buffer.length : Int) < max b 1) := by
  have hadd : Conserves w d [complete now entry]
      { w with buffer := w.buffer ++ [complete now entry] } d :=
    ⟨rfl, rfl, rfl, [], rfl, by simp [linesOf]⟩
  -- The entry is in the buffer before it is known whether that is to be written.
  have hsound := hw.of_conserves hadd (by simpa using hentry.complete now)
  obtain ⟨due, hdue, hshort⟩ := exists_isDue hsound now
  unfold append
  dsimp only
  rw [hdue]
  cases due with
  | false =>
    refine ⟨_, d, [], rfl, hadd, ?_⟩
    intro _
    have hlength := hshort rfl
    omega
  | true =>
    obtain ⟨w', d', warnings, hflush, hconserves, hempty⟩ := flush_spec hsound now d
    refine ⟨w', d', warnings, hflush, hadd.trans hconserves, ?_⟩
    intro hnone
    rw [hempty hnone, List.length_nil]
    omega

/-- The writer with other entries that wait. -/
def withBuffer (w : Buffered) (buffer : List Fields) : Buffered := { w with buffer }

theorem append_of_isDue {entry : Fields} {now : Clock} {due : Bool}
    (h : (w.withBuffer (w.buffer ++ [complete now entry])).isDue now = .ok due) (d : Disk) :
    w.append now entry d =
      if due then (w.withBuffer (w.buffer ++ [complete now entry])).flush now d
      else (.ok (), w.withBuffer (w.buffer ++ [complete now entry]), d, []) := by
  unfold withBuffer at h ⊢
  unfold append
  dsimp only
  rw [h]
  cases due <;> rfl

/-- A line that cannot be stored stops the writing. The lines before it are written, and their
entries are kept. -/
theorem flush_of_not_storable {before after : List Fields} {entry : Fields} {f : Fault}
    (hbuffer : w.buffer = before ++ entry :: after) (hbefore : ∀ e ∈ before, Storable e)
    (hentry : entryLine entry = .error f) (hopen : d.obstacle? w.path = none)
    (now : Clock) :
    w.flush now d =
      (.error f, w, d.write w.path (d.textOf w.path ++ linesOf before), []) := by
  have hnonempty : ¬ w.buffer.isEmpty := by simp [hbuffer]
  have hlines : entryLines w.buffer = (linesOf before, .error f) := by
    rw [hbuffer, entryLines_append hbefore]
    simp [entryLines, hentry]
  have hline : isOfFile f = false := isOfFile_of_entryLine hentry
  rw [flush, if_neg hnonempty, appendEntries_of_open hnonempty hlines hopen]
  simp only [hline, Bool.false_eq_true, if_false]

end Buffered

/-! ## Any number of operations -/

/-- A buffered writer, the files, and what the clock shows. -/
structure Writing where
  writer : Buffered
  disk : Disk
  now : Clock

/-- What can happen: the writer is given an entry or told to write, time passes, or a directory
comes or goes in the place of a file. -/
inductive Act where
  | append (entry : Fields)
  | flush
  | pass (now : Clock)
  | block (path : String)
  | unblock (path : String)

namespace Act

/-- The line of an entry that is given can be stored. -/
def Storable : Act → Prop
  | append entry => Log.Storable entry
  | _ => True

instance : (act : Act) → Decidable act.Storable
  | append entry => inferInstanceAs (Decidable (Log.Storable entry))
  | flush | pass _ | block _ | unblock _ => isTrue trivial

/-- What the clock shows after an operation. -/
def clock (now : Clock) : Act → Clock
  | pass now => now
  | _ => now

/-- The entry that is given, with the time at which it is given. -/
def given (now : Clock) : Act → List Fields
  | append entry => [complete now entry]
  | _ => []

/-- The entries that are given one after the other. -/
def allGiven (now : Clock) : List Act → List Fields
  | [] => []
  | act :: rest => act.given now ++ allGiven (act.clock now) rest

end Act

namespace Writing

/-- The answer to an operation, what it leaves behind, and its warnings. -/
def respond (s : Writing) : Act → Except Fault Unit × Writing × List String
  | .append entry =>
    let (answer, w, d, warnings) := s.writer.append s.now entry s.disk
    (answer, ⟨w, d, s.now⟩, warnings)
  | .flush =>
    let (answer, w, d, warnings) := s.writer.flush s.now s.disk
    (answer, ⟨w, d, s.now⟩, warnings)
  | .pass now => (.ok (), { s with now }, [])
  | .block path => (.ok (), { s with disk := s.disk.block path }, [])
  | .unblock path => (.ok (), { s with disk := s.disk.unblock path }, [])

def after (s : Writing) (acts : List Act) : Writing :=
  acts.foldl (fun s act => (s.respond act).2.1) s

variable {s : Writing} {b : Int}

/-- No operation fails, and each conserves what the writer was given. -/
theorem respond_spec (hs : s.writer.Sound b) {act : Act} (hact : act.Storable) :
    ∃ s' warnings, s.respond act = (.ok (), s', warnings) ∧ s'.now = act.clock s.now ∧
      Conserves s.writer s.disk (act.given s.now) s'.writer s'.disk := by
  cases act with
  | append entry =>
    obtain ⟨w, d, warnings, happend, hconserves, -⟩ :=
      Buffered.append_spec hs hact s.now s.disk
    exact ⟨⟨w, d, s.now⟩, warnings, by rw [respond, happend], rfl, hconserves⟩
  | flush =>
    obtain ⟨w, d, warnings, hflush, hconserves, -⟩ := Buffered.flush_spec hs s.now s.disk
    exact ⟨⟨w, d, s.now⟩, warnings, by rw [respond, hflush], rfl, hconserves⟩
  | pass now => exact ⟨_, [], rfl, rfl, .refl s.writer s.disk⟩
  | block path => exact ⟨_, [], rfl, rfl, .of_textOf rfl⟩
  | unblock path => exact ⟨_, [], rfl, rfl, .of_textOf rfl⟩

theorem storable_of_mem_given {act : Act} (hact : act.Storable) (now : Clock) :
    ∀ entry ∈ act.given now, Storable entry := by
  intro entry hentry
  cases act with
  | append e =>
    obtain rfl := List.mem_singleton.1 hentry
    exact hact.complete now
  | _ => cases hentry

theorem storable_of_mem_allGiven {acts : List Act} (hacts : ∀ act ∈ acts, act.Storable)
    (now : Clock) : ∀ entry ∈ Act.allGiven now acts, Storable entry := by
  induction acts generalizing now with
  | nil => simp [Act.allGiven]
  | cons act acts ih =>
    obtain ⟨hact, hrest⟩ := List.forall_mem_cons.1 hacts
    intro entry hentry
    rcases List.mem_append.1 hentry with hfirst | hlater
    · exact storable_of_mem_given hact now entry hfirst
    · exact ih hrest _ entry hlater

theorem after_spec (hs : s.writer.Sound b) {acts : List Act} (hacts : ∀ act ∈ acts, act.Storable) :
    (s.after acts).writer.Sound b ∧
      Conserves s.writer s.disk (Act.allGiven s.now acts) (s.after acts).writer
        (s.after acts).disk := by
  induction acts generalizing s with
  | nil => exact ⟨hs, .refl s.writer s.disk⟩
  | cons act acts ih =>
    obtain ⟨hact, hrest⟩ := List.forall_mem_cons.1 hacts
    obtain ⟨s', warnings, hrespond, hclock, hconserves⟩ := respond_spec hs hact
    have hafter : s.after (act :: acts) = s'.after acts := by
      rw [after, List.foldl_cons, hrespond, after]
    obtain ⟨hsound, hmore⟩ :=
      ih (hs.of_conserves hconserves (storable_of_mem_given hact s.now)) hrest
    rw [hafter, Act.allGiven, ← hclock]
    exact ⟨hsound, hconserves.trans hmore⟩

/-- Flushes that meet a line that cannot be stored write the lines before it again and again, and no
entry leaves the buffer. -/
theorem after_flushes {before rest : List Fields} {entry : Fields} {f : Fault}
    (hbuffer : s.writer.buffer = before ++ entry :: rest) (hbefore : ∀ e ∈ before, Storable e)
    (hentry : entryLine entry = .error f)
    (hopen : s.disk.obstacle? s.writer.path = none) (n : Nat) :
    (s.after (List.replicate n .flush)).writer = s.writer ∧
      (s.after (List.replicate n .flush)).disk.textOf s.writer.path =
        s.disk.textOf s.writer.path ++ String.join (List.replicate n (linesOf before)) := by
  induction n generalizing s with
  | zero => simp [after]
  | succ n ih =>
    -- A flush changes the text of the file only, so the next one meets the same buffer.
    have hflush := Buffered.flush_of_not_storable hbuffer hbefore hentry hopen s.now
    have hafter : s.after (List.replicate (n + 1) .flush) =
        after ⟨s.writer, s.disk.write s.writer.path
          (s.disk.textOf s.writer.path ++ linesOf before), s.now⟩ (List.replicate n .flush) := by
      rw [List.replicate_succ, after, List.foldl_cons, respond, hflush, after]
    obtain ⟨hwriter, htext⟩ :=
      ih (s := ⟨s.writer, s.disk.write s.writer.path
        (s.disk.textOf s.writer.path ++ linesOf before), s.now⟩) hbuffer hopen
    rw [hafter, List.replicate_succ, String.join_cons, ← String.append_assoc]
    refine ⟨hwriter, htext.trans ?_⟩
    rw [Disk.textOf_write]

theorem step_append {t : Writing} {entry : Fields} {answer : Except Fault Unit} {w : Buffered}
    {d : Disk} {warnings : List String}
    (h : t.writer.append t.now entry t.disk = (answer, w, d, warnings)) :
    (t.respond (.append entry)).2.1 = ⟨w, d, t.now⟩ := by
  rw [respond, h]

/-- An entry that can be stored, one that cannot and makes the buffer due, and a flush: the line of
the first entry is written twice, and both entries wait. -/
theorem after_append_append_flush {w : Buffered} {now : Clock} {d : Disk} {first second : Fields}
    {f : Fault} (hempty : w.buffer = []) (hfirst : Storable (complete now first))
    (hsecond : entryLine (complete now second) = .error f)
    (hwait : (w.withBuffer [complete now first]).isDue now = .ok false)
    (hdue : (w.withBuffer [complete now first, complete now second]).isDue now = .ok true)
    (hopen : d.obstacle? w.path = none) :
    let t := after ⟨w, d, now⟩ [.append first, .append second, .flush]
    t.writer.buffer = [complete now first, complete now second] ∧ t.disk.textOf w.path =
      d.textOf w.path ++ linesOf [complete now first, complete now first] := by
  have hone : w.append now first d = (.ok (), w.withBuffer [complete now first], d, []) := by
    rw [Buffered.append_of_isDue (by rw [hempty]; exact hwait), hempty]
    rfl
  have hbuffer : (w.withBuffer [complete now first, complete now second]).buffer =
      [complete now first] ++ complete now second :: [] := rfl
  have hbefore : ∀ e ∈ [complete now first], Storable e := List.forall_mem_singleton.2 hfirst
  have htwo : (w.withBuffer [complete now first]).append now second d =
      (.error f, w.withBuffer [complete now first, complete now second],
        d.write w.path (d.textOf w.path ++ linesOf [complete now first]), []) := by
    rw [Buffered.append_of_isDue (by exact hdue), if_pos rfl]
    exact Buffered.flush_of_not_storable hbuffer hbefore hsecond hopen now
  have hfilled : after ⟨w, d, now⟩ [.append first, .append second, .flush] =
      after ⟨w.withBuffer [complete now first, complete now second],
        d.write w.path (d.textOf w.path ++ linesOf [complete now first]), now⟩
        (List.replicate 1 .flush) := by
    rw [after, List.foldl_cons, step_append hone, List.foldl_cons, step_append htwo]
    rfl
  obtain ⟨hwriter, htext⟩ := after_flushes (s := ⟨w.withBuffer
    [complete now first, complete now second],
    d.write w.path (d.textOf w.path ++ linesOf [complete now first]), now⟩) hbuffer hbefore hsecond
    hopen 1
  rw [hfilled]
  refine ⟨congrArg Buffered.buffer hwriter, htext.trans ?_⟩
  have htwice : linesOf [complete now first, complete now first] =
      linesOf [complete now first] ++ linesOf [complete now first] :=
    linesOf_append [complete now first] [complete now first]
  rw [htwice, ← String.append_assoc]
  show Disk.textOf w.path (Disk.write w.path _ d) ++ _ = _
  rw [Disk.textOf_write]
  rfl

/-- **Buffered writing.** Whatever happens to a new writer, its file has the text that was there and
then, each on a line of its own, the JSON texts of entries that it was given; the rest of what it
was given, in the same order, waits in its buffer. No operation fails, and after an entry was added
without a warning fewer entries wait than are written together. -/
theorem written_or_waiting {path : String} {b : Int} {interval : Value} {seconds : Number}
    {now : Clock} {w : Buffered} (hstart : Buffered.start path (.int b) interval now = .ok w)
    (hpath : '\x00' ∉ w.path.toList) (hinterval : interval.number? = some seconds) (d : Disk)
    {acts : List Act} (hacts : ∀ act ∈ acts, act.Storable) :
    let s := after ⟨w, d, now⟩ acts
    (∃ written texts, Act.allGiven now acts = written ++ s.writer.buffer ∧
      texts.map .ok = written.map (fun entry => Json.print .line (.object entry)) ∧
      s.disk.textOf w.path = d.textOf w.path ++ String.join (texts.map (· ++ "\n")) ∧
      (EndsLine (d.textOf w.path) →
        lines (s.disk.textOf w.path) = lines (d.textOf w.path) ++ texts)) ∧
    (∀ act : Act, act.Storable → (s.respond act).1 = .ok ()) ∧
    ∀ entry, Storable entry → (s.respond (.append entry)).2.2 = [] →
      ((s.respond (.append entry)).2.1.writer.buffer.length : Int) < max b 1 := by
  intro s
  obtain ⟨normal, -, hw⟩ := exists_of_bind_ok hstart
  obtain rfl := Except.ok.inj hw
  have hnew : Buffered.Sound b
      { path := normal, batchSize := .int b, flushInterval := interval, lastFlush := now } :=
    ⟨hpath, rfl, Option.isSome_iff_exists.2 ⟨seconds, hinterval⟩, by simp⟩
  obtain ⟨hsound, hconserves⟩ := after_spec (s := ⟨_, d, now⟩) hnew hacts
  refine ⟨?_, ?_, ?_⟩
  · obtain ⟨written, hgiven, htext⟩ := hconserves.flow
    have hstored : ∀ entry ∈ written, Storable entry := by
      intro entry hentry
      apply storable_of_mem_allGiven hacts now
      rw [List.nil_append] at hgiven
      rw [hgiven]
      exact List.mem_append_left _ hentry
    obtain ⟨texts, hprinted, hjoin, hlines⟩ := exists_lines_linesOf hstored
    refine ⟨written, texts, hgiven, hprinted, by rw [htext, hjoin], ?_⟩
    intro hends
    rw [htext, lines_append_of_endsLine hends, hlines]
  · intro act hact
    obtain ⟨s', warnings, hrespond, -⟩ := respond_spec hsound hact
    rw [hrespond]
  · intro entry hentry
    obtain ⟨w', d', warnings, happend, -, hshort⟩ :=
      Buffered.append_spec hsound hentry s.now s.disk
    rw [respond, happend]
    exact hshort

/-- An entry whose writing fails while a directory is in the place of the file. -/
def outage : List Act := [.append [("n", .int 1)], .block "log.jsonl", .append [("n", .int 2)],
  .unblock "log.jsonl", .pass ⟨1⟩, .flush]

/-- The new writer of a log that writes two entries together. -/
def inPairs : Buffered :=
  { path := "log.jsonl", batchSize := .int 2, flushInterval := .int 0, lastFlush := ⟨0⟩ }

theorem written_or_waiting_outage :
    Buffered.start "log.jsonl" (.int 2) (.int 0) ⟨0⟩ = .ok inPairs ∧
      (∀ act ∈ outage, act.Storable) ∧
      ((after ⟨inPairs, {}, ⟨0⟩⟩ outage).respond .flush).1 = .ok () := by
  have hstart : Buffered.start "log.jsonl" (.int 2) (.int 0) ⟨0⟩ = .ok inPairs := rfl
  have hpath : '\x00' ∉ inPairs.path.toList := by decide
  have hacts : ∀ act ∈ outage, act.Storable := by decide +kernel
  obtain ⟨-, hanswers, -⟩ := written_or_waiting hstart hpath rfl {} hacts
  exact ⟨hstart, hacts, hanswers .flush trivial⟩

/-- Two entries that are written together; the second has half of a surrogate pair. -/
def halved : List Act := [.append [("n", .int 1), ("logged_at", .text "t")],
  .append [("n", .text (String.singleton (ofHalf 0xd800))), ("logged_at", .text "t")]]

theorem repeats_halved :
    (∃ f : Fault, (respond (after ⟨inPairs, {}, ⟨0⟩⟩ halved) .flush).1 = .error f ∧
      f.kind = "UnicodeEncodeError") ∧
    lines ((after ⟨inPairs, {}, ⟨0⟩⟩ (halved ++ [.flush])).disk.textOf "log.jsonl") =
      ["\x7b\"n\": 1, \"logged_at\": \"t\"\x7d", "\x7b\"n\": 1, \"logged_at\": \"t\"\x7d"] ∧
    (after ⟨inPairs, {}, ⟨0⟩⟩ (halved ++ [.flush])).writer.buffer.length = 2 := by
  refine ⟨⟨_, rfl, rfl⟩, ?_, ?_⟩
  · decide +kernel
  · decide +kernel

end Writing

end TypingTrace.Log
