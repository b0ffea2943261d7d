import TypingTrace.Proofs.Engine.Failures
import TypingTrace.Proofs.Log.Buffer

/-!
# Failures and their log

**Theorem (`failures_logged`).** An engine without a deadline gives the same runs with any failure
log: none, one that writes, one that cannot, or one that refuses every entry. With a buffered writer
on a fresh file, what is in the file and then what is in the buffer is one entry for each failure of
all runs so far, in their order.

The first part holds because a run is known from its metrics one by one (`runs_eq`). For the second
part the writer is looked at on its own: an engine at work does to it what some operations of a
writer do (`mirrors_after`), and of these it is known what they conserve.

As there, the lines of the entries have to be such as can be stored. A message with half of a
surrogate pair stops the writing, and each flush writes the lines before it once more
(`repeats_halved_failure`).
-/

namespace TypingTrace

open Time Log Text

/-! ## Entries of failures -/

namespace Failure

/-- The entry of a failure as it is logged. -/
def logged (f : Failure) : Fields := [
  ("event_type", .text "calculator_failure"), ("metric_id", f.metric),
  ("error_type", .text f.kind), ("message", .text f.message), ("timestamp", .text f.time.iso),
  ("logged_at", .text f.time.iso)]

theorem complete_entry {f : Failure} {now : Clock} (h : f.time = now.stamp) :
    complete now f.entry = f.logged := by
  have hlogged : Fields.has "logged_at" f.entry = false := rfl
  rw [complete, hlogged, ← h]
  rfl

/-- A failure of a metric that is known by a text has a line that can be stored, if no text that it
has is one of half a surrogate pair. -/
theorem storable_entry {f : Failure} {id : String} (hid : f.metric = .text id)
    (h : isStorable id.toList) (hkind : isStorable f.kind.toList)
    (hmessage : isStorable f.message.toList) : Storable f.entry := by
  have htime : isStorable f.time.iso.toList := isStorable_of_ascii fun c hc => (ascii_iso _ hc).1
  have hentry : f.entry = Json.textFields [("event_type", "calculator_failure"), ("metric_id", id),
      ("error_type", f.kind), ("message", f.message), ("timestamp", f.time.iso)] := by
    rw [entry, toFields, hid]
    rfl
  have hrestores : ∃ text, Json.Restores text (.object f.entry) := by
    rw [hentry]
    refine Json.exists_restores (by simp) ?_
    simp only [List.forall_mem_cons, h, hkind, hmessage, htime]
    decide
  obtain ⟨text, htext⟩ := hrestores
  exact (storable_iff htext.printed).2 (isStorable_of_isLine htext.isLine)

end Failure

/-- The entries that a log has taken and not written yet. -/
def FailureLog.waiting : FailureLog → List Fields
  | writing w => w.buffer
  | _ => []

namespace Engine

theorem time_of_mem_failuresOn {now : Clock} {events : List Entry} {r : Registry} {f : Failure}
    (h : f ∈ failuresOn now events r) : f.time = now.stamp := by
  obtain ⟨d, -, fault, -, rfl⟩ := exists_of_mem_failuresOn h
  rfl

/-! ## Engines at work -/

/-- The engine with another failure log. -/
def withLog (e : Engine) (log : FailureLog) : Engine := { e with log }

/-- An engine, the files, and what the clock shows. -/
structure Working where
  engine : Engine
  disk : Disk
  now : Clock

/-- What can happen: the engine runs, is told to write its failures or is closed, time passes, or a
directory comes or goes in the place of a file. -/
inductive Operation where
  | run (events : List Entry) (override : Option Registry)
  | flush
  | close
  | pass (now : Clock)
  | block (path : String)
  | unblock (path : String)

inductive Answer where
  | ran (result : Run)
  | done (result : Except Fault Unit)

namespace Working

/-- The answer to an operation, and what it leaves behind. -/
def respond (s : Working) : Operation → Answer × Working
  | .run events override =>
    let (result, engine, disk, _) := s.engine.run s.now events override s.disk
    (.ran result, ⟨engine, disk, s.now⟩)
  | .flush =>
    let (result, engine, disk, _) := s.engine.flush s.now s.disk
    (.done result, ⟨engine, disk, s.now⟩)
  | .close =>
    let (result, engine, disk, _) := s.engine.close s.now s.disk
    (.done result, ⟨engine, disk, s.now⟩)
  | .pass now => (.done (.ok ()), { s with now })
  | .block path => (.done (.ok ()), { s with disk := s.disk.block path })
  | .unblock path => (.done (.ok ()), { s with disk := s.disk.unblock path })

def after (s : Working) (operations : List Operation) : Working :=
  operations.foldl (fun s o => (s.respond o).2) s

/-- The runs among the answers to operations. -/
def runs (s : Working) : List Operation → List Run
  | [] => []
  | o :: rest => match (s.respond o).1 with
    | .ran result => result :: (s.respond o).2.runs rest
    | .done _ => (s.respond o).2.runs rest

end Working

/-- The runs of an engine without a deadline, whatever becomes of their failures. -/
def runsOn (e : Engine) (now : Clock) : List Operation → List Run
  | [] => []
  | .run events override :: rest =>
    ⟨e.valuesOn events (override.getD e.registry),
      failuresOn now events (override.getD e.registry)⟩ :: runsOn e now rest
  | .pass now :: rest => runsOn e now rest
  | _ :: rest => runsOn e now rest

variable {e : Engine} {s : Working}

/-- Closing is writing, but for the pool. -/
theorem exists_close_eq (e : Engine) (now : Clock) (d : Disk) : ∃ pool, e.close now d =
    ((e.flush now d).1, { (e.flush now d).2.1 with pool }, (e.flush now d).2.2) := by
  unfold close
  rcases e.flush now d with ⟨_ | _, engine, rest⟩
  · exact ⟨engine.pool, rfl⟩
  · exact ⟨none, rfl⟩

theorem sameSettings_respond (s : Working) (o : Operation) :
    SameSettings s.engine (s.respond o).2.engine := by
  cases o with
  | close =>
    obtain ⟨pool, hclose⟩ := s.engine.exists_close_eq s.now s.disk
    rw [Working.respond, hclose]
    exact ⟨rfl, rfl, rfl, rfl⟩
  | _ => exact ⟨rfl, rfl, rfl, rfl⟩

/-- **Runs and logs.** The runs of an engine at work are those of its settings. -/
theorem runs_eq (he : SameSettings e s.engine) (hdeadline : e.timeout.truthy = false)
    (operations : List Operation) : s.runs operations = e.runsOn s.now operations := by
  induction operations generalizing s with
  | nil => rfl
  | cons o rest ih =>
    have hrest := ih (he.trans (sameSettings_respond s o))
    cases o with
    | run events override =>
      have hrun : (s.engine.run s.now events override s.disk).1 =
          ⟨e.valuesOn events (override.getD e.registry),
            failuresOn s.now events (override.getD e.registry)⟩ := by
        rw [run_eq (he.timeout ▸ hdeadline), he.registry, he.valuesOn]
      exact congrArg₂ List.cons hrun hrest
    | _ => exact hrest

/-! ## The writer of a log -/

/-- What an operation of an engine does to the writer of its log. -/
def Operation.acts (e : Engine) (now : Clock) : Operation → List Act
  | run events override =>
    (failuresOn now events (override.getD e.registry)).map fun f => .append f.entry
  | flush => [.flush]
  | close => [.flush]
  | pass now => [.pass now]
  | block path => [.block path]
  | unblock path => [.unblock path]

/-- The clock after an operation. -/
def Operation.clock (now : Clock) : Operation → Clock
  | pass now => now
  | _ => now

/-- What operations of an engine do to the writer of its log. -/
def actsOf (e : Engine) (now : Clock) : List Operation → List Act
  | [] => []
  | o :: rest => o.acts e now ++ actsOf e (o.clock now) rest

/-- An engine at work whose log is a writer at work. -/
structure Mirrors (s : Working) (t : Writing) : Prop where
  log : s.engine.log = .writing t.writer
  disk : s.disk = t.disk
  now : s.now = t.now

/-- To record failures is to append their entries, whether or not they are accepted. -/
theorem recordAll_writing (now : Clock) (failures : List Failure) (w : Buffered) (d : Disk) :
    let recorded := FailureLog.recordAll now failures (.writing w) d
    let t := Writing.after ⟨w, d, now⟩ (failures.map fun f => .append f.entry)
    recorded.1 = .writing t.writer ∧ recorded.2.1 = t.disk ∧ now = t.now := by
  induction failures generalizing w d with
  | nil => exact ⟨rfl, rfl, rfl⟩
  | cons f rest ih => exact ih (w.append now f.entry d).2.1 (w.append now f.entry d).2.2.1

theorem flush_writing {w : Buffered} (h : e.log = .writing w) (now : Clock) (d : Disk) :
    (e.flush now d).2.1.log = .writing (w.flush now d).2.1 ∧
      (e.flush now d).2.2.1 = (w.flush now d).2.2.1 := by
  rw [flush, h]
  exact ⟨rfl, rfl⟩

theorem mirrors_respond {t : Writing} (h : Mirrors s t) (he : SameSettings e s.engine)
    (hdeadline : e.timeout.truthy = false) (o : Operation) :
    Mirrors (s.respond o).2 (t.after (o.acts e t.now)) := by
  obtain ⟨hlog, hdisk, hnow⟩ := h
  cases o with
  | run events override =>
    obtain ⟨hrecorded, hstored, hclock⟩ := recordAll_writing t.now
      (failuresOn t.now events (override.getD e.registry)) t.writer t.disk
    have hcompute := compute_eq (he.timeout ▸ hdeadline) t.now events
      (override.getD s.engine.registry)
    refine ⟨?_, ?_, hnow.trans hclock⟩
    · rw [Working.respond, run, hnow, hcompute, hlog, hdisk, he.registry]
      exact hrecorded
    · rw [Working.respond, run, hnow, hcompute, hlog, hdisk, he.registry]
      exact hstored
  | flush =>
    obtain ⟨hflushed, hstored⟩ := flush_writing hlog t.now t.disk
    refine ⟨?_, ?_, hnow⟩
    · rw [Working.respond, hnow, hdisk]
      exact hflushed
    · rw [Working.respond, hnow, hdisk]
      exact hstored
  | close =>
    obtain ⟨hflushed, hstored⟩ := flush_writing hlog t.now t.disk
    obtain ⟨pool, hclose⟩ := s.engine.exists_close_eq t.now t.disk
    refine ⟨?_, ?_, hnow⟩
    · rw [Working.respond, hnow, hdisk, hclose]
      exact hflushed
    · rw [Working.respond, hnow, hdisk, hclose]
      exact hstored
  | pass now => exact ⟨hlog, hdisk, rfl⟩
  | block path => exact ⟨hlog, congrArg (Disk.block path) hdisk, hnow⟩
  | unblock path => exact ⟨hlog, congrArg (Disk.unblock path) hdisk, hnow⟩

theorem now_respond (s : Working) (o : Operation) : (s.respond o).2.now = o.clock s.now := by
  cases o <;> rfl

theorem mirrors_after {t : Writing} (h : Mirrors s t) (he : SameSettings e s.engine)
    (hdeadline : e.timeout.truthy = false) (operations : List Operation) :
    Mirrors (s.after operations) (t.after (actsOf e t.now operations)) := by
  induction operations generalizing s t with
  | nil => exact h
  | cons o rest ih =>
    have hnext := mirrors_respond h he hdeadline o
    have hclock : (t.after (o.acts e t.now)).now = o.clock t.now := by
      rw [← hnext.now, now_respond, h.now]
    have hrest := ih hnext (he.trans (sameSettings_respond s o))
    rw [hclock] at hrest
    rw [actsOf, Writing.after, List.foldl_append]
    exact hrest

/-! ## What the writer is given -/

theorem allGiven_failures {now : Clock} {failures : List Failure}
    (h : ∀ f ∈ failures, f.time = now.stamp) (rest : List Act) :
    Act.allGiven now ((failures.map fun f => Act.append f.entry) ++ rest) =
      failures.map Failure.logged ++ Act.allGiven now rest := by
  induction failures with
  | nil => rfl
  | cons f failures ih =>
    obtain ⟨hf, hrest⟩ := List.forall_mem_cons.1 h
    have hgiven : (Act.append f.entry).given now = [f.logged] :=
      congrArg (fun entry => [entry]) (Failure.complete_entry hf)
    rw [List.map_cons, List.cons_append, Act.allGiven, hgiven]
    exact congrArg (f.logged :: ·) (ih hrest)

/-- The writer is given an entry for each failure. -/
theorem allGiven_actsOf (e : Engine) (now : Clock) (operations : List Operation) :
    Act.allGiven now (actsOf e now operations) =
      (e.runsOn now operations).flatMap fun r => r.failures.map Failure.logged := by
  induction operations generalizing now with
  | nil => rfl
  | cons o rest ih =>
    cases o with
    | run events override =>
      rw [actsOf, Operation.acts, allGiven_failures fun f hf => time_of_mem_failuresOn hf]
      exact congrArg _ (ih now)
    | _ => exact ih _

theorem storable_actsOf {now : Clock} {operations : List Operation}
    (h : ∀ r ∈ e.runsOn now operations, ∀ f ∈ r.failures, Storable f.entry) :
    ∀ act ∈ actsOf e now operations, act.Storable := by
  induction operations generalizing now with
  | nil => simp [actsOf]
  | cons o rest ih =>
    intro act hact
    rcases List.mem_append.1 hact with hfirst | hlater
    · cases o with
      | run events override =>
        obtain ⟨f, hf, rfl⟩ := List.mem_map.1 hfirst
        exact h _ List.mem_cons_self f hf
      | _ =>
        obtain rfl := List.mem_singleton.1 hfirst
        trivial
    · refine ih (fun r hr => h r ?_) act hlater
      cases o with
      | run events override => exact List.mem_cons_of_mem _ hr
      | _ => exact hr

/-- **Failure logs.** The runs of an engine without a deadline are the same with any failure log and
whatever becomes of the files. With a buffered writer on an empty file, the file has the JSON texts
of entries, one a line, the buffer has the rest, and together these are the entries of the failures
of all runs so far, each once and in their order. -/
theorem failures_logged {e : Engine} (hdeadline : e.timeout.truthy = false) (now : Clock)
    (operations : List Operation) :
    (∀ log log' d d', Working.runs ⟨e.withLog log, d, now⟩ operations =
      Working.runs ⟨e.withLog log', d', now⟩ operations) ∧
    ∀ (path : String) (b : Int) (interval : Value) (w : Buffered) (d : Disk),
      Buffered.start path (.int b) interval now = .ok w → '\x00' ∉ w.path.toList →
      interval.number?.isSome → d.textOf w.path = "" →
      let s : Working := ⟨e.withLog (.writing w), d, now⟩
      let s' := s.after operations
      (∀ r ∈ s.runs operations, ∀ f ∈ r.failures, Storable f.entry) →
      ∃ written texts, ((s.runs operations).flatMap fun r => r.failures.map Failure.logged) =
          written ++ s'.engine.log.waiting ∧
        texts.map .ok = written.map (fun entry => Json.print .line (.object entry)) ∧
        s'.disk.textOf w.path = String.join (texts.map (· ++ "\n")) ∧
        lines (s'.disk.textOf w.path) = texts := by
  have hruns (log : FailureLog) (d : Disk) :
      Working.runs ⟨e.withLog log, d, now⟩ operations = e.runsOn now operations :=
    runs_eq (e := e) ⟨rfl, rfl, rfl, rfl⟩ hdeadline operations
  refine ⟨fun log log' d d' => (hruns log d).trans (hruns log' d').symm, ?_⟩
  intro path b interval w d hstart hpath hinterval hfresh s s' hstorable
  rw [hruns] at hstorable ⊢
  have hmirrors : Mirrors s ⟨w, d, now⟩ := ⟨rfl, rfl, rfl⟩
  have hafter := mirrors_after (e := e) hmirrors ⟨rfl, rfl, rfl, rfl⟩ hdeadline operations
  obtain ⟨hsound, hempty⟩ := Buffered.sound_of_start hstart hpath hinterval
  have hacts := storable_actsOf hstorable
  obtain ⟨-, hconserves⟩ := Writing.after_spec (s := ⟨w, d, now⟩) hsound hacts
  obtain ⟨written, hgiven, htext⟩ := hconserves.flow
  rw [hempty, List.nil_append] at hgiven
  rw [hfresh, String.empty_append] at htext
  have hwritten : ∀ entry ∈ written, Storable entry := by
    intro entry hentry
    apply Writing.storable_of_mem_allGiven hacts now
    rw [hgiven]
    exact List.mem_append_left _ hentry
  obtain ⟨texts, hprinted, hjoin, hlines⟩ := exists_lines_linesOf hwritten
  refine ⟨written, texts, ?_, hprinted, ?_, ?_⟩
  · rw [← allGiven_actsOf, hafter.log]
    exact hgiven
  · rw [hafter.disk, htext, hjoin]
  · rw [hafter.disk, htext, hlines]

/-! ### Two metrics that fail -/

/-- What the first of two metrics raises. -/
def refusal : Fault := .raised "ValueError" (some "x")

/-- An engine with two metrics that fail, the second with a given fault. -/
def failing (f : Fault) : Engine where
  registry := { definitions := [
    { id := .text "a", calculator := ⟨fun _ => .error refusal, false⟩ },
    { id := .text "b", calculator := ⟨fun _ => .error f, false⟩ }] }
  defaultValue := .int 0
  timeout := .null
  workers := .int 4
  log := .absent

/-- One run over one event. -/
def once : Operation := .run [.loose ⟨none, none, none, none, none⟩] none

/-- Two runs, the first while a directory is in the place of the log. -/
def outage : List Operation :=
  [.block "log.jsonl", once, .unblock "log.jsonl", .pass ⟨1⟩, once, .close]

theorem storable_failing {fault : Fault} (hkind : isStorable fault.kind.toList)
    (hreport : isStorable fault.report.toList) :
    ∀ r ∈ (failing fault).runsOn ⟨0⟩ outage, ∀ f ∈ r.failures, Storable f.entry := by
  intro r hr f hf
  have hmem : f ∈ ((failing fault).runsOn ⟨0⟩ outage).flatMap Run.failures :=
    List.mem_flatMap.2 ⟨r, hr, hf⟩
  have hfailures : ((failing fault).runsOn ⟨0⟩ outage).flatMap Run.failures =
      [.ofFault (.text "a") refusal (⟨0⟩ : Clock).stamp,
        .ofFault (.text "b") fault (⟨0⟩ : Clock).stamp,
        .ofFault (.text "a") refusal (⟨1⟩ : Clock).stamp,
        .ofFault (.text "b") fault (⟨1⟩ : Clock).stamp] := rfl
  rw [hfailures] at hmem
  simp only [List.mem_cons, List.not_mem_nil, or_false] at hmem
  rcases hmem with rfl | rfl | rfl | rfl
  · exact Failure.storable_entry rfl (by decide) (by decide) (by decide)
  · exact Failure.storable_entry rfl (by decide) hkind hreport
  · exact Failure.storable_entry rfl (by decide) (by decide) (by decide)
  · exact Failure.storable_entry rfl (by decide) hkind hreport

/-- The engine at work that fails so, with a log that writes two entries together. -/
def pairing (f : Fault) : Working := ⟨(failing f).withLog (.writing Writing.inPairs), {}, ⟨0⟩⟩

theorem failures_logged_outage :
    (pairing refusal).runs outage =
      Working.runs ⟨(failing refusal).withLog (.refusing .datesReversed), {}, ⟨0⟩⟩ outage ∧
    ∃ written, (((pairing refusal).runs outage).flatMap fun r => r.failures.map Failure.logged) =
        written ++ ((pairing refusal).after outage).engine.log.waiting ∧
      (lines (((pairing refusal).after outage).disk.textOf Writing.inPairs.path)).length =
        written.length := by
  obtain ⟨hruns, hlogged⟩ := failures_logged (e := failing refusal) rfl ⟨0⟩ outage
  have hstart : Buffered.start "log.jsonl" (.int 2) (.int 0) ⟨0⟩ = .ok Writing.inPairs := rfl
  have hpath : '\x00' ∉ Writing.inPairs.path.toList := by decide
  have hfresh : Disk.textOf Writing.inPairs.path {} = "" := rfl
  have hstorable : ∀ r ∈ (pairing refusal).runs outage, ∀ f ∈ r.failures, Storable f.entry := by
    rw [runs_eq (e := failing refusal) ⟨rfl, rfl, rfl, rfl⟩ rfl]
    exact storable_failing (by decide) (by decide)
  obtain ⟨written, texts, hgiven, hprinted, -, hlines⟩ :=
    hlogged "log.jsonl" 2 (.int 0) Writing.inPairs {} hstart hpath rfl hfresh hstorable
  have hlength : texts.length = written.length := by
    simpa using congrArg List.length hprinted
  unfold pairing
  exact ⟨hruns _ _ _ _, written, hgiven, (congrArg List.length hlines).trans hlength⟩

/-- A fault whose text is half of a surrogate pair. -/
def halved : Fault := .raised "ValueError" (some (String.singleton (ofHalf 0xd800)))

theorem exists_entryLine_halved : ∃ f, entryLine
    (complete ⟨0⟩ (Failure.ofFault (.text "b") halved (⟨0⟩ : Clock).stamp).entry) = .error f :=
  exists_of_not_storable (by decide +kernel)

/-- One run and a flush write the line of the first failure twice, and both failures wait. -/
theorem repeats_halved_failure :
    ((pairing halved).runs [once, .flush]).map (fun r => r.failures.length) = [2] ∧
    (∃ line, lines (((pairing halved).after [once, .flush]).disk.textOf Writing.inPairs.path) =
      [line, line]) ∧
    ((pairing halved).after [once, .flush]).engine.log.waiting.length = 2 := by
  let first := Failure.ofFault (.text "a") refusal (⟨0⟩ : Clock).stamp
  let second := Failure.ofFault (.text "b") halved (⟨0⟩ : Clock).stamp
  have hfirst : Storable (complete ⟨0⟩ first.entry) :=
    (Failure.storable_entry rfl (by decide) (by decide) (by decide)).complete ⟨0⟩
  obtain ⟨f, hsecond⟩ := exists_entryLine_halved
  have hopen : Disk.obstacle? Writing.inPairs.path {} = none := by decide +kernel
  obtain ⟨hwaiting, htext⟩ :=
    Writing.after_append_append_flush (w := Writing.inPairs) rfl hfirst hsecond rfl rfl hopen
  have hfresh : Disk.textOf Writing.inPairs.path {} = "" := rfl
  rw [hfresh, String.empty_append] at htext
  have hmirrors := mirrors_after (e := failing halved) (s := pairing halved)
    (t := ⟨Writing.inPairs, {}, ⟨0⟩⟩) ⟨rfl, rfl, rfl⟩ ⟨rfl, rfl, rfl, rfl⟩ rfl [once, .flush]
  have hacts : actsOf (failing halved) ⟨0⟩ [once, .flush] =
      [.append first.entry, .append second.entry, .flush] := rfl
  rw [hacts] at hmirrors
  refine ⟨?_, ?_, ?_⟩
  · rw [runs_eq (e := failing halved) ⟨rfl, rfl, rfl, rfl⟩ rfl]
    rfl
  · obtain ⟨texts, hprinted, -, hlines⟩ := exists_lines_linesOf
      (List.forall_mem_cons.2 ⟨hfirst, List.forall_mem_singleton.2 hfirst⟩)
    obtain ⟨line, hline⟩ := hfirst.exists_print
    have htexts : texts.map Except.ok = [line, line].map (.ok : String → Except Fault String) := by
      rw [hprinted]
      simp [hline]
    rw [List.map_injective_iff.2 (fun _ _ => Except.ok.inj) htexts] at hlines
    rw [hmirrors.disk, htext]
    exact ⟨line, hlines⟩
  · rw [hmirrors.log, FailureLog.waiting, hwaiting]
    rfl

end Engine

end TypingTrace
