import Mathlib.Data.List.TakeWhile
import TypingTrace.Text.Lines
import TypingTrace.Text.Bytes

/-!
# Lines that are written one after the other

A text takes one line of a file if it is without line breaks and without halves of surrogate pairs
(`isLine`). With a line feed after it, it is the first line of whatever follows (`lines_append`),
and stripping takes nothing away from it if it begins and ends with no blank (`strip_eq_self`). What
is written after a line feed adds its own lines to those before (`lines_append_of_endsLine`).
-/

namespace TypingTrace.Text

/-- Whether a text can be stored on one line. -/
def isLine (s : List Char) : Bool := s.all fun c => c != '\n' && c != '\r' && (half? c).isNone

theorem isLine_iff {s : List Char} :
    isLine s ↔ ∀ c ∈ s, c ≠ '\n' ∧ c ≠ '\r' ∧ half? c = none := by
  simp [isLine, and_assoc]

theorem isLine_append (s t : List Char) : isLine (s ++ t) = (isLine s && isLine t) :=
  List.all_append

theorem isStorable_of_isLine {s : List Char} (h : isLine s) : isStorable s := by
  refine List.all_eq_true.2 fun c hc => ?_
  rw [(isLine_iff.1 h c hc).2.2]
  rfl

theorem halves?_eq_none_iff {s : List Char} : halves? s = none ↔ isStorable s := by
  have hdrop : isStorable s ↔ s.dropWhile (fun c => (half? c).isNone) = [] := by
    rw [List.dropWhile_eq_nil_iff, isStorable, List.all_eq_true]
  unfold halves?
  rw [hdrop]
  cases s.dropWhile fun c => (half? c).isNone <;> simp

/-! ## Line breaks -/

/-- Whether a text is without line breaks. -/
def isUnbroken (s : List Char) : Bool := s.all fun c => c != '\n' && c != '\r'

theorem isUnbroken_iff {s : List Char} : isUnbroken s ↔ ∀ c ∈ s, c ≠ '\n' ∧ c ≠ '\r' := by
  simp [isUnbroken]

theorem isUnbroken_append (s t : List Char) :
    isUnbroken (s ++ t) = (isUnbroken s && isUnbroken t) := List.all_append

theorem isUnbroken_cons (c : Char) (s : List Char) :
    isUnbroken (c :: s) = ((c != '\n' && c != '\r') && isUnbroken s) := List.all_cons

theorem isUnbroken_of_subset {s t : List Char} (h : isUnbroken t) (hsub : s ⊆ t) :
    isUnbroken s := by
  rw [isUnbroken_iff] at h ⊢
  exact fun c hc => h c (hsub hc)

theorem isLine_of_isUnbroken {s : List Char} (h : isUnbroken s) (hs : isStorable s) :
    isLine s := by
  rw [isLine_iff]
  intro c hc
  obtain ⟨hfeed, hreturn⟩ := isUnbroken_iff.1 h c hc
  exact ⟨hfeed, hreturn, Option.isNone_iff_eq_none.1 (List.all_eq_true.1 hs c hc)⟩

theorem isUnbroken_of_isLine {s : List Char} (h : isLine s) : isUnbroken s := by
  rw [isUnbroken_iff]
  intro c hc
  obtain ⟨hfeed, hreturn, -⟩ := isLine_iff.1 h c hc
  exact ⟨hfeed, hreturn⟩

/-- What holds of the characters of all items holds of those of the items with a separator between
them, if it holds of the separator. -/
theorem all_intercalate {p : Char → Bool} {separator : String} (h : separator.toList.all p)
    (items : List String) :
    (String.intercalate separator items).toList.all p =
      items.all fun item => item.toList.all p := by
  induction items with
  | nil => rfl
  | cons item rest ih =>
    cases rest with
    | nil => simp
    | cons next rest =>
      rw [String.intercalate_cons_cons, String.toList_append, String.toList_append,
        List.all_append, List.all_append, h, ih, Bool.and_true]
      rfl

/-! ## Lines -/

theorem linesFrom_append {line : List Char} (h : isLine line) (read rest : List Char) :
    linesFrom read (line ++ '\n' :: rest) = (read.reverse ++ line) :: linesFrom [] rest := by
  rw [isLine_iff] at h
  induction line generalizing read with
  | nil => rw [List.nil_append, linesFrom, List.append_nil]
  | cons c line ih =>
    obtain ⟨hfeed, hreturn, -⟩ := h c List.mem_cons_self
    have hstep : linesFrom read (c :: (line ++ '\n' :: rest)) =
        linesFrom (c :: read) (line ++ '\n' :: rest) := by
      simp [linesFrom, hreturn]
    rw [List.cons_append, hstep, ih fun c' hc' => h c' (List.mem_cons_of_mem c hc'),
      List.reverse_cons, List.append_assoc]
    rfl

theorem lines_append {s : String} (h : isLine s.toList) (rest : String) :
    lines (s ++ "\n" ++ rest) = s :: lines rest := by
  have hchars : (s ++ "\n" ++ rest).toList = s.toList ++ '\n' :: rest.toList := by simp
  rw [lines, hchars, linesFrom_append h, List.map_cons, List.reverse_nil, List.nil_append,
    String.ofList_toList, lines]

/-- A line feed ends a line for good, also after a carriage return. -/
theorem linesFrom_append_feed (read text rest : List Char) :
    linesFrom read (text ++ '\n' :: rest) =
      linesFrom read (text ++ ['\n']) ++ linesFrom [] rest := by
  fun_induction linesFrom read text with
  | case1 => simp [linesFrom]
  | case2 => simp [linesFrom]
  | case3 read text ih => simp [linesFrom, ih]
  | case4 read text hfeed ih =>
    -- The return ends a line of its own unless the text is at its end.
    cases text with
    | nil => simp [linesFrom]
    | cons c text =>
      have hc : c ≠ '\n' := fun h => hfeed text (by rw [h])
      have hstep : ∀ more, linesFrom read ('\r' :: c :: more) =
          read.reverse :: linesFrom [] (c :: more) := by
        intro more
        rw [linesFrom]
        rintro more' ⟨rfl, rfl⟩
        exact hc rfl
      simp only [List.cons_append] at ih
      rw [List.cons_append, List.cons_append, List.cons_append, List.cons_append, hstep, hstep, ih]
      rfl
  | case5 read text ih => simp [linesFrom, ih]
  | case6 read c text _ hreturn hfeed ih =>
    have hstep : ∀ more, linesFrom read (c :: more) = linesFrom (c :: read) more := by
      intro more
      rw [linesFrom]
      · exact fun _ h => absurd h hreturn
      · exact hreturn
      · exact hfeed
    rw [List.cons_append, List.cons_append, hstep, hstep, ih]

/-- The lines of a text that ends with a line feed do not depend on what follows. -/
theorem lines_append_of_feed (text rest : String) :
    lines (text ++ "\n" ++ rest) = lines (text ++ "\n") ++ lines rest := by
  have hchars : (text ++ "\n" ++ rest).toList = text.toList ++ '\n' :: rest.toList := by simp
  have hstart : (text ++ "\n").toList = text.toList ++ ['\n'] := by simp
  rw [lines, hchars, linesFrom_append_feed, List.map_append, lines, hstart, lines]

/-- Nothing can be added to the last line of a text. -/
def EndsLine (text : String) : Prop := text = "" ∨ ∃ start, text = start ++ "\n"

theorem lines_append_of_endsLine {text : String} (h : EndsLine text) (more : String) :
    lines (text ++ more) = lines text ++ lines more := by
  rcases h with rfl | ⟨start, rfl⟩
  · rw [String.empty_append]
    rfl
  · exact lines_append_of_feed start more

theorem strip_eq_self {s : String} {first last : Char} {inner : List Char}
    (hs : s.toList = first :: (inner ++ [last])) (hfirst : isBlank first = false)
    (hlast : isBlank last = false) : strip s = s := by
  have hleft : s.toList.dropWhile isBlank = s.toList := by
    rw [hs, List.dropWhile_cons_of_neg (by simp [hfirst])]
  have hright : s.toList.reverse.dropWhile isBlank = s.toList.reverse := by
    rw [hs, ← List.cons_append, List.reverse_append, List.reverse_singleton, List.singleton_append,
      List.dropWhile_cons_of_neg (by simp [hlast])]
  rw [strip, stripChars, trimChars, hleft, hright, List.reverse_reverse, String.ofList_toList]

end TypingTrace.Text
