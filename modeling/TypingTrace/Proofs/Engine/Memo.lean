import TypingTrace.Engine.Memo

/-!
# When a memo runs the engine

**Theorem (`asked_again`).** Whatever a memo was used for before, a computation gives the very
object that the last one gave, and nothing is run, if and only if there was one since the last
`invalidate` and the most recent one was for the same sequence with an equal token. Otherwise the
engine is run once and the object is a new one. `needs` says in advance which of the two it will be.

What a memo keeps is the token of the last *run*, and a computation that runs nothing leaves it
there, so the tokens that are compared need not be those of two computations in a row. They are
equal to these, which is enough: equality of tokens is transitive (`Value.equals_congr_right`).

To tell objects apart and to count runs apart from the memo, the engine is made to number its
results (`numbered`). A history is a list of uses, the latest first.
-/

namespace TypingTrace

/-- Equal values are equal to the same values. -/
theorem Value.equals_congr_right {b c : Value} (h : b.equals c) (a : Value) :
    a.equals b = a.equals c := by
  rw [equals, Bool.and_eq_true] at h
  rw [equals, equals, same_congr_right h.1]

namespace Memo

variable {κ ρ σ : Type}

/-! ## Uses -/

/-- A result as an object of its own: which run made it, and what it says. -/
structure Made (ρ : Type) where
  number : Nat
  result : ρ

/-- An engine that numbers its results. -/
def numbered (run : StateM σ ρ) : StateM (Nat × σ) (Made ρ) := fun (count, world) =>
  let (result, world) := run world
  (⟨count + 1, result⟩, count + 1, world)

/-- What a memo is used for. -/
inductive Use (κ σ : Type) where
  | compute (key : κ) (given : Option Value)
  | needs (key : κ) (given : Option Value)
  | reset
  | invalidate
  /-- Not a use: what the engine works on is changed from outside, events for instance. -/
  | meanwhile (change : σ → σ)

namespace Use

def isComputation : Use κ σ → Bool
  | compute .. => true
  | _ => false

end Use

/-- A memo, how many results the engine has made for it, and what the engine works on. -/
structure Serving (κ ρ σ : Type) where
  memo : Memo κ (Made ρ) := {}
  made : Nat := 0
  world : σ

inductive Answer (ρ : Type) where
  | result (made : Made ρ)
  | needed (run : Bool)
  | token (own : Nat)
  | done

/-- What a use of a memo answers, and what it leaves behind. -/
def Serving.respond [BEq κ] (engine : κ → StateM σ ρ) (s : Serving κ ρ σ) :
    Use κ σ → Answer ρ × Serving κ ρ σ
  | .compute key given =>
    let ((made, memo), count, world) :=
      s.memo.compute (numbered (engine key)) key given (s.made, s.world)
    (.result made, ⟨memo, count, world⟩)
  | .needs key given => (.needed (s.memo.needs key given), s)
  | .reset => (.token s.memo.reset.own, { s with memo := s.memo.reset })
  | .invalidate => (.done, { s with memo := s.memo.invalidate })
  | .meanwhile change => (.done, { s with world := change s.world })

/-! ## Histories -/

/-- How often the memo was reset. -/
def resets : List (Use κ σ) → Nat
  | [] => 0
  | .reset :: h => resets h + 1
  | _ :: h => resets h

/-- The token that counts after a history. -/
def tokenAfter (h : List (Use κ σ)) (given : Option Value) : Value := given.getD (.int (resets h))

/-- A computation: for which sequence, with which token, and which one was the memo's own then. -/
structure Asked (κ : Type) where
  key : κ
  given : Option Value
  own : Nat

def Asked.token (a : Asked κ) : Value := a.given.getD (.int a.own)

/-- The most recent computation, if there was one since the last `invalidate`. -/
def lastAsked : List (Use κ σ) → Option (Asked κ)
  | [] => none
  | .compute key given :: h => some ⟨key, given, resets h⟩
  | .invalidate :: _ => none
  | _ :: h => lastAsked h

/-- Whether the most recent computation was for a given sequence, with an equal token. -/
def recalled [BEq κ] (h : List (Use κ σ)) (key : κ) (given : Option Value) : Bool :=
  (lastAsked h).any fun a => a.key == key && (tokenAfter h given).equals a.token

section

variable [BEq κ] (engine : κ → StateM σ ρ) (world : σ)

/-- A new memo after a history. -/
def after : List (Use κ σ) → Serving κ ρ σ
  | [] => { world }
  | use :: h => ((after h).respond engine use).2

/-- The objects that the computations of a history gave, the latest first. -/
def results : List (Use κ σ) → List (Made ρ)
  | [] => []
  | use :: h => match ((after engine world h).respond engine use).1 with
    | .result made => made :: results h
    | _ => results h

end

/-! ## One use -/

section

variable [BEq κ] (engine : κ → StateM σ ρ) {s : Serving κ ρ σ} {key : κ} {given : Option Value}

theorem needs_eq (m : Memo κ ρ) (key : κ) (given : Option Value) :
    m.needs key given = (m.kept key given).isNone := by
  unfold needs kept
  cases m.last with
  | none => rfl
  | some last =>
    dsimp only
    cases hkey : last.1 == key <;> cases (m.token given).equals last.2.1 <;> simp [bne, hkey]

theorem respond_compute_of_kept {made : Made ρ} (h : s.memo.kept key given = some made) :
    s.respond engine (.compute key given) = (.result made, s) := by
  rw [Serving.respond, compute, h]
  rfl

theorem respond_compute_of_not_kept (h : s.memo.kept key given = none) :
    s.respond engine (.compute key given) =
      (.result ⟨s.made + 1, (engine key s.world).1⟩,
        ⟨s.memo.keep key given ⟨s.made + 1, (engine key s.world).1⟩, s.made + 1,
          (engine key s.world).2⟩) := by
  rw [Serving.respond, compute, h]
  rfl

end

/-! ## Any history -/

/-- A memo that agrees with a history: it keeps the object that the last computation gave, under its
sequence and a token that is as good as its own. -/
structure Remembers [BEq κ] (engine : κ → StateM σ ρ) (world : σ) (h : List (Use κ σ)) : Prop where
  own : (after engine world h).memo.own = resets h
  runs : (after engine world h).memo.runs = (after engine world h).made
  old : ∀ made ∈ results engine world h, made.number ≤ (after engine world h).made
  forgets : lastAsked h = none → (after engine world h).memo.last = none
  keeps : ∀ a, lastAsked h = some a → ∃ t made earlier,
    (after engine world h).memo.last = some (a.key, t, made) ∧
      (∀ v : Value, v.equals t = v.equals a.token) ∧
      results engine world h = made :: earlier

namespace Remembers

variable [BEq κ] {engine : κ → StateM σ ρ} {world : σ} {h : List (Use κ σ)}

theorem token (hr : Remembers engine world h) (given : Option Value) :
    (after engine world h).memo.token given = tokenAfter h given := by
  rw [Memo.token, tokenAfter, hr.own]

theorem kept_of_recalled (hr : Remembers engine world h) {key : κ} {given : Option Value}
    (hrecalled : recalled h key given) : ∃ made earlier,
      (after engine world h).memo.kept key given = some made ∧
        results engine world h = made :: earlier := by
  obtain ⟨a, hasked, hmatch⟩ := (Option.any_eq_true _ _).1 hrecalled
  rw [Bool.and_eq_true] at hmatch
  obtain ⟨t, made, earlier, hlast, hequals, hresults⟩ := hr.keeps a hasked
  refine ⟨made, earlier, ?_, hresults⟩
  rw [kept, hlast]
  dsimp only
  rw [hr.token, hequals, hmatch.1, hmatch.2]
  rfl

theorem not_kept (hr : Remembers engine world h) {key : κ} {given : Option Value}
    (hrecalled : recalled h key given = false) :
    (after engine world h).memo.kept key given = none := by
  rw [kept]
  cases hasked : lastAsked h with
  | none => rw [hr.forgets hasked]
  | some a =>
    obtain ⟨t, made, earlier, hlast, hequals, -⟩ := hr.keeps a hasked
    rw [recalled, hasked] at hrecalled
    rw [hlast]
    dsimp only
    rw [hr.token, hequals]
    rw [Option.any_some] at hrecalled
    rw [hrecalled]
    rfl

/-- A computation that is recalled gives the object of the last one and changes nothing. -/
theorem respond_of_recalled (hr : Remembers engine world h) {key : κ} {given : Option Value}
    (hrecalled : recalled h key given) : ∃ made earlier, results engine world h = made :: earlier ∧
      (after engine world h).respond engine (.compute key given) =
        (.result made, after engine world h) := by
  obtain ⟨made, earlier, hkept, hresults⟩ := hr.kept_of_recalled hrecalled
  exact ⟨made, earlier, hresults, respond_compute_of_kept engine hkept⟩

/-- A computation that is not recalled is one run, whose result is a new object. -/
theorem respond_of_not_recalled (hr : Remembers engine world h) {key : κ} {given : Option Value}
    (hrecalled : recalled h key given = false) : ∃ made s',
      (after engine world h).respond engine (.compute key given) = (.result made, s') ∧
      (made.result, s'.world) = engine key (after engine world h).world ∧
      s'.made = (after engine world h).made + 1 ∧
      ∀ old ∈ results engine world h, old.number ≠ made.number := by
  refine ⟨_, _, respond_compute_of_not_kept engine (hr.not_kept hrecalled), rfl, rfl, ?_⟩
  intro old hold heq
  exact absurd (hr.old old hold) (by rw [heq]; exact Nat.not_succ_le_self _)

theorem nil : Remembers engine world [] where
  own := rfl
  runs := rfl
  old made hmade := by cases hmade
  forgets _ := rfl
  keeps a ha := by cases ha

theorem compute_of_recalled [LawfulBEq κ] (hr : Remembers engine world h) {key : κ}
    {given : Option Value} (hrecalled : recalled h key given) :
    Remembers engine world (.compute key given :: h) := by
  obtain ⟨made, earlier, hresults, hrespond⟩ := hr.respond_of_recalled hrecalled
  have hafter : after engine world (.compute key given :: h) = after engine world h := by
    rw [after, hrespond]
  have hmore : results engine world (.compute key given :: h) = made :: results engine world h := by
    rw [results, hrespond]
  refine ⟨?own, ?runs, ?old, ?forgets, ?keeps⟩
  case own =>
    rw [hafter]
    exact hr.own
  case runs =>
    rw [hafter]
    exact hr.runs
  case old =>
    rw [hafter, hmore]
    intro old hold
    rcases List.mem_cons.1 hold with rfl | hold
    · exact hr.old _ (hresults ▸ List.mem_cons_self)
    · exact hr.old old hold
  case forgets => exact fun hnone => nomatch hnone
  case keeps =>
    rintro _ ⟨⟩
    obtain ⟨a, hasked, hmatch⟩ := (Option.any_eq_true _ _).1 hrecalled
    rw [Bool.and_eq_true, beq_iff_eq] at hmatch
    obtain ⟨t, made', earlier', hlast, hequals, hresults'⟩ := hr.keeps a hasked
    obtain ⟨rfl, -⟩ := List.cons.inj (hresults.symm.trans hresults')
    -- The memo still has the token of the last run, which was equal to the present one.
    refine ⟨t, made, _, ?_, ?_, hmore⟩
    · rw [hafter, hlast, hmatch.1]
    · intro v
      rw [hequals, ← Value.equals_congr_right hmatch.2]
      rfl

theorem compute_of_not_recalled (hr : Remembers engine world h) {key : κ}
    {given : Option Value} (hrecalled : recalled h key given = false) :
    Remembers engine world (.compute key given :: h) := by
  have hrespond := respond_compute_of_not_kept engine (hr.not_kept hrecalled)
  have hmore : results engine world (.compute key given :: h) =
      ⟨(after engine world h).made + 1, (engine key (after engine world h).world).1⟩ ::
        results engine world h := by
    rw [results, hrespond]
  refine ⟨?own, ?runs, ?old, ?forgets, ?keeps⟩
  case own =>
    rw [after, hrespond]
    exact hr.own
  case runs =>
    rw [after, hrespond]
    exact congrArg (· + 1) hr.runs
  case old =>
    rw [hmore, after, hrespond]
    intro old hold
    rcases List.mem_cons.1 hold with rfl | hold
    · exact Nat.le_refl _
    · exact Nat.le_succ_of_le (hr.old old hold)
  case forgets => exact fun hnone => nomatch hnone
  case keeps =>
    rintro _ ⟨⟩
    refine ⟨(after engine world h).memo.token given, _, _, ?_, ?_, hmore⟩
    · rw [after, hrespond]
      rfl
    · intro v
      rw [hr.token]
      rfl

theorem invalidate (hr : Remembers engine world h) : Remembers engine world (.invalidate :: h) where
  own := hr.own
  runs := hr.runs
  old := hr.old
  forgets _ := rfl
  keeps _ ha := nomatch ha

end Remembers

section

variable [BEq κ] [LawfulBEq κ] (engine : κ → StateM σ ρ) (world : σ) (h : List (Use κ σ))

/-- A new memo agrees with its history, whatever that is. -/
theorem remembers : Remembers engine world h := by
  induction h with
  | nil => exact .nil
  | cons use h ih =>
    cases use with
    | compute key given =>
      cases hrecalled : recalled h key given with
      | true => exact ih.compute_of_recalled hrecalled
      | false => exact ih.compute_of_not_recalled hrecalled
    | needs key given => exact ⟨ih.own, ih.runs, ih.old, ih.forgets, ih.keeps⟩
    | reset => exact ⟨congrArg (· + 1) ih.own, ih.runs, ih.old, ih.forgets, ih.keeps⟩
    | invalidate => exact ih.invalidate
    | meanwhile change => exact ⟨ih.own, ih.runs, ih.old, ih.forgets, ih.keeps⟩

/-- **Asking again.** After any history, the memo has counted the runs of the engine. A computation
that is recalled gives the object of the last one and leaves everything as it is; any other one is
one run of the engine, whose result is an object that was not given before. Whether a run is needed
is answered rightly, and the question changes nothing. -/
theorem asked_again :
    (after engine world h).memo.runs = (after engine world h).made ∧
    ∀ key given,
      let s := after engine world h
      (recalled h key given ↔ (s.respond engine (.compute key given)).2.made = s.made) ∧
      (recalled h key given → ∃ made earlier, results engine world h = made :: earlier ∧
        s.respond engine (.compute key given) = (.result made, s)) ∧
      (recalled h key given = false → ∃ made s',
        s.respond engine (.compute key given) = (.result made, s') ∧
        (made.result, s'.world) = engine key s.world ∧ s'.made = s.made + 1 ∧
        ∀ old ∈ results engine world h, old.number ≠ made.number) ∧
      s.respond engine (.needs key given) = (.needed (!recalled h key given), s) := by
  have hr := remembers engine world h
  refine ⟨hr.runs, ?_⟩
  intro key given s
  cases hrecalled : recalled h key given with
  | true =>
    obtain ⟨made, earlier, hresults, hrespond⟩ := hr.respond_of_recalled hrecalled
    refine ⟨by simp [s, hrespond], fun _ => ⟨made, earlier, hresults, hrespond⟩, nofun, ?_⟩
    obtain ⟨kept, -, hkept, -⟩ := hr.kept_of_recalled hrecalled
    rw [Serving.respond, needs_eq, hkept]
    rfl
  | false =>
    obtain ⟨made, s', hrespond, hrun, hmade, hnew⟩ := hr.respond_of_not_recalled hrecalled
    refine ⟨by simp [s, hrespond, hmade], nofun,
      fun _ => ⟨made, s', hrespond, hrun, hmade, hnew⟩, ?_⟩
    rw [Serving.respond, needs_eq, hr.not_kept hrecalled]
    rfl

end

/-- An engine that adds what it finds to a sequence that is just a number. -/
def adding (key : Nat) : StateM Nat Nat := fun world => (key + world, world)

/-- Two computations with equal tokens, after a reset; then there is something else to find. -/
def mixedTokens : List (Use Nat Nat) :=
  [.meanwhile (· + 1), .compute 7 (some (.bool true)), .compute 7 (some (.int 1)), .reset]

theorem asked_again_mixedTokens :
    let s := after adding 5 mixedTokens
    s.memo.runs = s.made ∧ s.respond adding (.compute 7 none) = (.result ⟨1, 12⟩, s) ∧
      s.respond adding (.needs 8 none) = (.needed true, s) ∧
      (s.respond adding (.compute 8 none)).2.made = 2 := by
  intro s
  obtain ⟨hruns, huse⟩ := asked_again adding 5 mixedTokens
  obtain ⟨-, hsame, -, -⟩ := huse 7 none
  obtain ⟨-, -, hother, hneeds⟩ := huse 8 none
  have hrecalled : recalled mixedTokens 7 none := by decide +kernel
  have hnew : recalled mixedTokens 8 none = false := by decide +kernel
  have hresults : results adding 5 mixedTokens = [⟨1, 12⟩, ⟨1, 12⟩] := rfl
  obtain ⟨made, earlier, hfirst, hrespond⟩ := hsame hrecalled
  obtain ⟨rfl, -⟩ := List.cons.inj (hresults.symm.trans hfirst)
  obtain ⟨made', s', hrespond', -, hcount, -⟩ := hother hnew
  rw [hnew] at hneeds
  refine ⟨hruns, hrespond, hneeds, ?_⟩
  rw [hrespond', hcount]
  rfl

/-! ## Resets -/

section

variable {h quiet : List (Use κ σ)} {a : Asked κ}

theorem resets_append (quiet h : List (Use κ σ)) :
    resets (quiet ++ h) = resets quiet + resets h := by
  induction quiet with
  | nil => exact (Nat.zero_add _).symm
  | cons use quiet ih =>
    cases use with
    | reset => rw [List.cons_append, resets, resets, ih, Nat.add_right_comm]
    | _ => exact ih

theorem own_le (ha : lastAsked h = some a) : a.own ≤ resets h := by
  induction h with
  | nil => cases ha
  | cons use h ih =>
    cases use with
    | compute key given =>
      cases ha
      exact Nat.le_refl _
    | invalidate => cases ha
    | reset => exact Nat.le_succ_of_le (ih ha)
    | needs key given => exact ih ha
    | meanwhile change => exact ih ha

/-- Uses that are no computations add no computation. -/
theorem lastAsked_of_quiet (hquiet : ∀ use ∈ quiet, use.isComputation = false)
    (ha : lastAsked (quiet ++ h) = some a) : lastAsked h = some a := by
  induction quiet with
  | nil => exact ha
  | cons use quiet ih =>
    obtain ⟨huse, hrest⟩ := List.forall_mem_cons.1 hquiet
    cases use with
    | compute key given => cases huse
    | invalidate => cases ha
    | reset => exact ih hrest ha
    | needs key given => exact ih hrest ha
    | meanwhile change => exact ih hrest ha

/-- **Resets.** After a reset, a sequence is recalled without a token only if the most recent
computation was for it, with a token from outside that equals what the reset made the memo's own. -/
theorem recalled_reset [BEq κ] (hquiet : ∀ use ∈ quiet, use.isComputation = false) (key : κ) :
    recalled (quiet ++ .reset :: h) key none =
      (lastAsked (quiet ++ .reset :: h)).any fun a =>
        a.key == key && a.given.any (Value.int (resets (quiet ++ .reset :: h))).equals := by
  unfold recalled
  cases ha : lastAsked (quiet ++ .reset :: h) with
  | none => rfl
  | some a =>
    have hown : a.own < resets (quiet ++ .reset :: h) := by
      have hasked : lastAsked (.reset :: h) = some a := lastAsked_of_quiet hquiet ha
      have hle : a.own ≤ resets h := own_le hasked
      rw [resets_append, resets]
      omega
    rw [Option.any_some, Option.any_some, Asked.token, tokenAfter]
    cases a.given with
    | none =>
      have hne : ¬ (resets (quiet ++ .reset :: h) : Int) = a.own := by omega
      simp [hne]
    | some t => rfl

end

end Memo

end TypingTrace
