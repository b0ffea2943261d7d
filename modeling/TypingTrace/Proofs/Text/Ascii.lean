import Mathlib.Algebra.Group.Nat.Defs
import Mathlib.Data.List.Induction
import TypingTrace.Number.Reading
import TypingTrace.Text.Bytes
import TypingTrace.Text.Digit

/-!
# ASCII texts

An ASCII text is its own sequence of bytes. A number written with a fixed number of digits, zeros in
front, consists of that many ASCII digits if it is small enough, and they spell the number again.
Conversely `n` digits spell a number below `10 ^ n`. Reading takes the digits of a number up to the
first other character (`takeDigits_append`).
-/

namespace TypingTrace.Text

/-! ## Bytes -/

theorem bytes_of_ascii {s : List Char} (h : ∀ c ∈ s, c.toNat < 128) : bytes s = s := by
  induction s with
  | nil => rfl
  | cons c s ih =>
    have hc := h c List.mem_cons_self
    have hbyte : (String.utf8EncodeChar c).map (fun b => Char.ofNat b.toNat) = [c] := by
      have hsize : c.utf8Size = 1 := by
        rw [Char.utf8Size_eq_one_iff]
        exact UInt32.le_iff_toNat_le.2 (Nat.le_of_lt_succ hc)
      rw [String.utf8EncodeChar_eq_singleton hsize, List.map_singleton, UInt32.toNat_toUInt8]
      show [Char.ofNat (c.toNat % 256)] = [c]
      rw [Nat.mod_eq_of_lt (by omega), Char.ofNat_toNat]
    rw [bytes, List.flatMap_cons, hbyte]
    exact congrArg (c :: ·) (ih fun c' hc' => h c' (List.mem_cons_of_mem c hc'))

theorem half?_of_ascii {c : Char} (h : c.toNat < 128) : half? c = none := by
  have hzero : c.toNat - 0x100000 = 0 := by omega
  unfold half?
  rw [hzero]
  rfl

theorem isStorable_of_ascii {s : List Char} (h : ∀ c ∈ s, c.toNat < 128) : isStorable s :=
  List.all_eq_true.2 fun c hc => by rw [half?_of_ascii (h c hc)]; rfl

/-! ## Digits -/

theorem isDigit_iff {c : Char} : c.isDigit ↔ 48 ≤ c.toNat ∧ c.toNat ≤ 57 := Char.isDigit_iff_toNat

/-! ## Spelling -/

theorem ofDigits_snoc (ds : List Nat) (d : Nat) : ofDigits (ds ++ [d]) = 10 * ofDigits ds + d := by
  simp only [ofDigits, List.foldl_append, List.foldl_cons, List.foldl_nil]

theorem ofDigits_lt {ds : List Nat} (h : ∀ d ∈ ds, d < 10) : ofDigits ds < 10 ^ ds.length := by
  induction ds using List.reverseRecOn with
  | nil => decide
  | append_singleton ds d ih =>
    have hrest := ih fun d' hd' => h d' (List.mem_append_left _ hd')
    have hlast := h d (List.mem_append_right _ List.mem_cons_self)
    rw [ofDigits_snoc, List.length_append, List.length_singleton, Nat.pow_succ]
    omega

/-- The number that ASCII digits spell is below the power of ten of their number. -/
theorem ofDigits_chars_lt {cs : List Char} (h : cs.all Char.isDigit) :
    ofDigits (cs.map (·.toNat - 48)) < 10 ^ cs.length := by
  rw [← List.length_map (f := fun c : Char => c.toNat - 48)]
  refine ofDigits_lt fun d hd => ?_
  obtain ⟨c, hc, rfl⟩ := List.mem_map.1 hd
  have hdigit := isDigit_iff.1 (List.all_eq_true.1 h c hc)
  omega

/-! ## Writing -/

theorem ofDigits_eq_ofDigitChars (cs : List Char) :
    ofDigits (cs.map (·.toNat - 48)) = Nat.ofDigitChars 10 cs 0 := by
  rw [ofDigits, List.foldl_map]
  rfl

/-- Zeros in front do not count. -/
theorem ofDigitChars_replicate (k : Nat) (cs : List Char) :
    Nat.ofDigitChars 10 (List.replicate k '0' ++ cs) 0 = Nat.ofDigitChars 10 cs 0 := by
  induction k with
  | zero => rfl
  | succ k ih => exact ih

theorem ofDigits_natChars (n : Nat) : ofDigits ((natChars n).map (·.toNat - 48)) = n := by
  rw [ofDigits_eq_ofDigitChars]
  exact Nat.ofDigitChars_toDigits (by decide) (by decide)

theorem isDigit_of_mem_natChars {n : Nat} {c : Char} (h : c ∈ natChars n) : c.isDigit :=
  Nat.isDigit_of_mem_toDigits (by decide) (by decide) h

theorem fitsDigits_iff {n : Int} : fitsDigits n ↔ n.natAbs < 10 ^ digitLimit :=
  decide_eq_true_iff.trans (Nat.length_toDigits_le_iff (by decide) (by decide))

theorem ofDigits_paddedChars (width n : Nat) :
    ofDigits ((paddedChars width n).map (·.toNat - 48)) = n := by
  rw [ofDigits_eq_ofDigitChars, paddedChars, ofDigitChars_replicate, ← ofDigits_eq_ofDigitChars,
    ofDigits_natChars]

theorem isDigit_of_mem_paddedChars {width n : Nat} {c : Char} (h : c ∈ paddedChars width n) :
    c.isDigit := by
  rcases List.mem_append.1 h with hzero | hdigit
  · rw [List.eq_of_mem_replicate hzero]
    rfl
  · exact isDigit_of_mem_natChars hdigit

theorem length_paddedChars {width n : Nat} (hwidth : 0 < width) (h : n < 10 ^ width) :
    (paddedChars width n).length = width := by
  have hdigits : (natChars n).length ≤ width :=
    (Nat.length_toDigits_le_iff (by decide) hwidth).2 h
  rw [paddedChars, List.length_append, List.length_replicate]
  omega

theorem paddedChars_ne_nil {width n : Nat} (hwidth : 0 < width) (h : n < 10 ^ width) :
    paddedChars width n ≠ [] := by
  rw [← List.length_pos_iff, length_paddedChars hwidth h]
  exact hwidth

/-! ## Reading -/

/-- ASCII digits are taken up to the first other character. -/
theorem takeDigits_append {digits rest : List Char} (hdigits : ∀ c ∈ digits, c.isDigit)
    (hrest : ∀ c ∈ rest.head?, c.isDigit = false) :
    takeDigits (digits ++ rest) = (digits.map (·.toNat - 48), rest) := by
  obtain ⟨htake, hdrop⟩ :
      rest.takeWhile Char.isDigit = [] ∧ rest.dropWhile Char.isDigit = rest := by
    cases rest with
    | nil => exact ⟨rfl, rfl⟩
    | cons c rest =>
      have hc : ¬ c.isDigit := by simp [hrest c rfl]
      exact ⟨List.takeWhile_cons_of_neg hc, List.dropWhile_cons_of_neg hc⟩
  rw [takeDigits, List.takeWhile_append_of_pos hdigits, List.dropWhile_append_of_pos hdigits,
    htake, hdrop, List.append_nil]

end TypingTrace.Text
