import Mathlib.Data.List.Forall2
import TypingTrace.Proofs.Event.Wire
import TypingTrace.Proofs.Json.Trees
import TypingTrace.Proofs.Log.Export

/-!
# What becomes of every line of an export

**Theorem (`readFiltered_accounts`).** Whatever text an export has, reading it gives an answer, and
every line that is not blank is accounted for: it is no JSON and gives a warning with its number in
the file and with what is wrong in it, or its value is no row and gives a warning with its number
among the values, or it contributes one row. The rows are the stable sort by time of those that were
contributed, in so far as the filter admits them.

The two numberings run side by side. An `Account` says what became of one line, with the number
that it has on either side; the accounts of a text are in the order of its lines, and the warnings
and rows are read off them.

Of the decoder of JSON it is assumed that it meets no limit.
-/

namespace TypingTrace

open Text

namespace Log

/-! ## Accounts -/

/-- What becomes of a line: it is no JSON, or its value is the one of a given number, and is no row
or is one. -/
inductive Account where
  | malformed (line : Nat) (complaint : String)
  | skipped (place : Nat) (v : Value) (f : Fault)
  | event (place : Nat) (v : Value) (r : Row)

namespace Account

/-- The account is that of a line with a given number. -/
def IsOf (line : String × Nat) : Account → Prop
  | malformed n complaint => n = line.2 ∧ ∃ wrong left,
    Json.readJson (strip line.1) = .error (.malformed wrong left) ∧
      complaint = (Json.Rejection.malformed wrong left).text (strip line.1)
  | skipped _ v f => Json.readJson (strip line.1) = .ok v ∧ v.isRow = false ∧
    Row.ofWire v = .error f ∧ f.kind = "MalformedEvent"
  | event _ v r => Json.readJson (strip line.1) = .ok v ∧ v.isRow ∧ Row.ofWire v = .ok r

/-- The place among the values. -/
def place? : Account → Option Nat
  | malformed _ _ => none
  | skipped i _ _ => some i
  | event i _ _ => some i

/-- The row that the line contributes. -/
def row? : Account → Option Row
  | event _ _ r => some r
  | _ => none

/-- The warning about a line that is no JSON. -/
def lineWarning? (name : String) : Account → Option String
  | malformed n complaint => some (malformedWarning name n complaint)
  | _ => none

/-- The warning about a value that is no row. -/
def valueWarning? (name : String) : Account → Option String
  | skipped i _ f => some ("Warning: Skipping malformed event #" ++ natText i ++ " in " ++ name ++
    ": " ++ f.text)
  | _ => none

end Account

/-- The lines that are not blank, with their numbers in the file. -/
def contentLines (text : String) : List (String × Nat) :=
  ((lines text).zipIdx 1).filter fun line => strip line.1 ≠ ""

/-- Whether the decoder of JSON meets no limit on a line. -/
def isWithinLimits (line : String) : Bool :=
  match Json.readJson (strip line) with
  | .error (.beyondLimit _) => false
  | _ => true

theorem readLines_value {name : String} {line : String × Nat} {rest : List (String × Nat)}
    {values : List Value} {warnings : List String} {v : Value}
    (h : readLines name rest = .ok (values, warnings)) (hblank : strip line.1 ≠ "")
    (hjson : Json.readJson (strip line.1) = .ok v) :
    readLines name (line :: rest) = .ok (v :: values, warnings) := by
  rw [readLines, if_neg hblank, hjson]
  dsimp only
  rw [h]
  rfl

/-- Accounts of numbered lines whose values are numbered from a given place on. -/
structure Accounted (name : String) (numbered : List (String × Nat)) (place : Nat)
    (accounts : List Account) (values : List Value) : Prop where
  lines : readLines name numbered =
    .ok (values, accounts.filterMap (Account.lineWarning? name))
  rows : readRows name (values.zipIdx place) =
    (accounts.filterMap Account.row?, accounts.filterMap (Account.valueWarning? name))
  each : (numbered.filter fun line => strip line.1 ≠ "").Forall₂ (fun line a => a.IsOf line)
    accounts
  places : accounts.filterMap Account.place? = List.range' place values.length

namespace Accounted

variable {name : String} {line : String × Nat} {rest : List (String × Nat)} {place : Nat}
  {accounts : List Account} {values : List Value} {v : Value}

theorem blank (h : Accounted name rest place accounts values) (hblank : strip line.1 = "") :
    Accounted name (line :: rest) place accounts values where
  lines := by rw [readLines, if_pos hblank, h.lines]
  rows := h.rows
  each := by
    rw [List.filter_cons_of_neg (by simpa using hblank)]
    exact h.each
  places := h.places

theorem malformed (h : Accounted name rest place accounts values) (hblank : strip line.1 ≠ "")
    {wrong : String} {left : Nat}
    (hjson : Json.readJson (strip line.1) = .error (.malformed wrong left)) :
    Accounted name (line :: rest) place
      (.malformed line.2 ((Json.Rejection.malformed wrong left).text (strip line.1)) :: accounts)
      values where
  lines := by
    rw [readLines, if_neg hblank, hjson]
    dsimp only
    rw [h.lines]
    rfl
  rows := h.rows
  each := by
    rw [List.filter_cons_of_pos (by simpa using hblank)]
    exact .cons ⟨rfl, wrong, left, hjson, rfl⟩ h.each
  places := h.places

theorem skipped (h : Accounted name rest (place + 1) accounts values) (hblank : strip line.1 ≠ "")
    (hjson : Json.readJson (strip line.1) = .ok v) {f : Fault} (hrow : Row.ofWire v = .error f) :
    Accounted name (line :: rest) place (.skipped place v f :: accounts) (v :: values) where
  lines := readLines_value h.lines hblank hjson
  rows := by
    rw [List.zipIdx_cons, readRows, h.rows, hrow]
    rfl
  each := by
    -- What is read can be written, so the fault is that of a row.
    obtain ⟨hnone, hkind⟩ := (hrow ▸ checked_row v).of_error
    have hmalformed := hkind.resolve_right fun h => by
      rw [Json.isWritable_of_readJson hjson] at h
      cases h.1
    rw [List.filter_cons_of_pos (by simpa using hblank)]
    exact .cons ⟨hjson, hnone, hrow, hmalformed⟩ h.each
  places := congrArg (place :: ·) h.places

theorem event (h : Accounted name rest (place + 1) accounts values) (hblank : strip line.1 ≠ "")
    (hjson : Json.readJson (strip line.1) = .ok v) {r : Row} (hrow : Row.ofWire v = .ok r) :
    Accounted name (line :: rest) place (.event place v r :: accounts) (v :: values) where
  lines := readLines_value h.lines hblank hjson
  rows := by
    rw [List.zipIdx_cons, readRows, h.rows, hrow]
    rfl
  each := by
    rw [List.filter_cons_of_pos (by simpa using hblank)]
    exact .cons ⟨hjson, (hrow ▸ checked_row v).of_ok, hrow⟩ h.each
  places := congrArg (place :: ·) h.places

end Accounted

/-- Numbered lines are read with an account of each one that is not blank. -/
theorem exists_accounts (name : String) {numbered : List (String × Nat)}
    (h : ∀ line ∈ numbered, isWithinLimits line.1) (place : Nat) :
    ∃ accounts values, Accounted name numbered place accounts values := by
  induction numbered generalizing place with
  | nil => exact ⟨[], [], rfl, rfl, .nil, rfl⟩
  | cons line rest ih =>
    obtain ⟨hline, hrest⟩ := List.forall_mem_cons.1 h
    by_cases hblank : strip line.1 = ""
    · obtain ⟨accounts, values, haccounted⟩ := ih hrest place
      exact ⟨_, _, haccounted.blank hblank⟩
    · cases hjson : Json.readJson (strip line.1) with
      | error rejection =>
        cases rejection with
        | beyondLimit f => simp [isWithinLimits, hjson] at hline
        | malformed wrong left =>
          obtain ⟨accounts, values, haccounted⟩ := ih hrest place
          exact ⟨_, _, haccounted.malformed hblank hjson⟩
      | ok v =>
        -- A value takes up a place, whether or not it is a row.
        obtain ⟨accounts, values, haccounted⟩ := ih hrest (place + 1)
        cases hrow : Row.ofWire v with
        | ok r => exact ⟨_, _, haccounted.event hblank hjson hrow⟩
        | error f => exact ⟨_, _, haccounted.skipped hblank hjson hrow⟩

/-! ## Pages -/

/-- The page of a filter is the one that was asked for. -/
theorem page_of_check {project session owner : Value} {start stop : Option Time.Stamp}
    {kinds limit offset : Value} {f : Filter}
    (h : Filter.check project session owner start stop kinds limit offset = .ok f) :
    f.limit = limit ∧ f.offset = offset := by
  unfold Filter.check at h
  split_ifs at h with hreversed
  · cases h
  · obtain ⟨-, -, h⟩ := exists_of_bind_ok h
    obtain ⟨-, -, h⟩ := exists_of_bind_ok h
    obtain ⟨named, -, h⟩ := exists_of_bind_ok h
    obtain rfl := Except.ok.inj h
    exact ⟨rfl, rfl⟩

theorem truthy_of_isNull {v : Value} (h : v.isNull) : v.truthy = false := by
  cases v with
  | null => rfl
  | _ => cases h

/-- A page whose limit and offset are absent or whole numbers can be told. -/
theorem exists_page {α : Type} {f : Filter}
    (hlimit : f.limit.isNull ∨ (Filter.bound? f.limit).isSome)
    (hoffset : f.offset.isNull ∨ (Filter.bound? f.offset).isSome) (l : List α) :
    ∃ page, f.page l = .ok page := by
  have hstart : ∃ n, (if f.offset.truthy then Filter.bound? f.offset else some 0) = some n := by
    by_cases htruthy : f.offset.truthy
    · rw [if_pos htruthy]
      rcases hoffset with hnull | hbound
      · rw [truthy_of_isNull hnull] at htruthy
        cases htruthy
      · exact Option.isSome_iff_exists.1 hbound
    · exact ⟨0, if_neg htruthy⟩
  obtain ⟨n, hn⟩ := hstart
  rw [Filter.page, hn]
  by_cases hnull : f.limit.isNull
  · exact ⟨l.drop n, if_pos hnull⟩
  · obtain ⟨m, hm⟩ := Option.isSome_iff_exists.1 (hlimit.resolve_left hnull)
    dsimp only
    rw [if_neg hnull, hm]
    exact ⟨_, rfl⟩

/-! ## Exports -/

/-- **Reading exports.** Where the decoder of JSON meets no limit, every text is read, with any
filter of absent or whole bounds. Each line that is not blank has one account, in the order of the
lines, and the values among them are numbered from one on. The accounts give the warnings, first of
the lines and then of the values; the rows that they give are sorted by their times, rows of one
time in the order of the lines, and the filter is applied to that. -/
theorem readFiltered_accounts (name : String) {text : String}
    (htext : ∀ line ∈ lines text, isWithinLimits line) {project session owner : Value}
    {start stop : Option Time.Stamp} {kinds limit offset : Value} {f : Filter}
    (hf : Filter.check project session owner start stop kinds limit offset = .ok f)
    (hlimit : limit.isNull ∨ (Filter.bound? limit).isSome)
    (hoffset : offset.isNull ∨ (Filter.bound? offset).isSome) :
    ∃ accounts count sorted selected,
      (contentLines text).Forall₂ (fun line a => a.IsOf line) accounts ∧
      accounts.filterMap Account.place? = List.range' 1 count ∧
      StableSort Row.instant (accounts.filterMap Account.row?) sorted ∧
      f.apply (fun _ => .null) sorted = .ok selected ∧
      let warnings := accounts.filterMap (Account.lineWarning? name) ++
        accounts.filterMap (Account.valueWarning? name)
      readEvents name text = .ok (sorted, warnings) ∧
      readFiltered name text f = .ok (selected, warnings) := by
  have hnumbered : ∀ line ∈ (lines text).zipIdx 1, isWithinLimits line.1 :=
    fun line hline => htext line.1 (List.fst_mem_of_mem_zipIdx hline)
  obtain ⟨accounts, values, haccounted⟩ := exists_accounts name hnumbered 1
  have hevents : readEvents name text = .ok (Row.inOrder (accounts.filterMap Account.row?),
      accounts.filterMap (Account.lineWarning? name) ++
        accounts.filterMap (Account.valueWarning? name)) := by
    rw [readEvents, readLog, haccounted.lines]
    show Except.ok (Row.inOrder (readRows name (values.zipIdx 1)).1,
      _ ++ (readRows name (values.zipIdx 1)).2) = _
    rw [haccounted.rows]
  obtain ⟨rfl, rfl⟩ := page_of_check hf
  obtain ⟨selected, hselected⟩ := exists_page hlimit hoffset
    ((Row.inOrder (accounts.filterMap Account.row?)).filter fun r => f.admits .null r)
  refine ⟨accounts, values.length, _, selected, haccounted.each, haccounted.places,
    Row.stableSort_inOrder _, hselected, hevents, ?_⟩
  rw [readFiltered, hevents]
  show (f.apply (fun _ => .null) (Row.inOrder _) >>= _) = _
  rw [Filter.apply, hselected]
  rfl

/-- An export with a line of each kind, blank ones among them. -/
def mixedText : String :=
  "x\n\n\x7b\x7d\n[1,\n\x7b\"eventType\":\"keydown\",\"timestamp\":0\x7d\n3"

theorem readFiltered_accounts_mixedText :
    (∀ line ∈ lines mixedText, isWithinLimits line) ∧
    ∃ (f : Filter) (accounts : List Account) (selected : List Row),
      Filter.check .null .null .null none none .null (.int 1) (.int 0) = .ok f ∧
      accounts.length = 5 ∧ (contentLines mixedText).map Prod.snd = [1, 3, 4, 5, 6] ∧
      readFiltered "log" mixedText f = .ok (selected,
        accounts.filterMap (Account.lineWarning? "log") ++
          accounts.filterMap (Account.valueWarning? "log")) := by
  have htext : ∀ line ∈ lines mixedText, isWithinLimits line := by decide +kernel
  have hcheck : Filter.check .null .null .null none none .null (.int 1) (.int 0) =
      .ok { limit := .int 1, offset := .int 0 } := rfl
  have hlines : (contentLines mixedText).map Prod.snd = [1, 3, 4, 5, 6] := by decide +kernel
  obtain ⟨accounts, count, sorted, selected, hof, -, -, -, -, hread⟩ :=
    readFiltered_accounts "log" htext hcheck (.inr rfl) (.inr rfl)
  refine ⟨htext, _, accounts, selected, hcheck, ?_, hlines, hread⟩
  have hlength : ((contentLines mixedText).map Prod.snd).length = 5 := by rw [hlines]; rfl
  rw [← hof.length_eq, ← hlength, List.length_map]

end Log

end TypingTrace
