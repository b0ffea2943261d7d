import Mathlib.Data.List.Nodup
import Mathlib.Tactic.IntervalCases
import TypingTrace.Session.Basic

/-!
# Identities are distinct

The text of an identity can be read back as its number, so different numbers have different
identities (`identity_injective`). Whatever is numbered from one counter therefore stays distinct as
long as the counter only goes up, which is what `Issued` says of a list of identities.
-/

namespace TypingTrace

open Text

/-! ## Reading an identity back -/

/-- The value of a digit to base sixteen, in lower case. -/
def hexDigit (c : Char) : Nat := if c.toNat < 58 then c.toNat - 48 else c.toNat - 87

def readHex (cs : List Char) : Nat := cs.foldl (fun n c => 16 * n + hexDigit c) 0

theorem hexDigit_digitChar {d : Nat} (h : d < 16) : hexDigit (Nat.digitChar d) = d := by
  interval_cases d <;> decide

theorem readHex_snoc (cs : List Char) (c : Char) :
    readHex (cs ++ [c]) = 16 * readHex cs + hexDigit c := by
  simp only [readHex, List.foldl_append, List.foldl_cons, List.foldl_nil]

theorem readHex_toDigits (n : Nat) : readHex (Nat.toDigits 16 n) = n := by
  induction n using Nat.strongRecOn with
  | ind n ih =>
    by_cases h : n < 16
    · rw [Nat.toDigits_of_lt_base h]
      simp [readHex, hexDigit_digitChar h]
    · rw [Nat.toDigits_of_base_le (by decide) (by omega), readHex_snoc, ih _ (by omega),
        hexDigit_digitChar (Nat.mod_lt n (by decide))]
      omega

/-- Zeros in front do not count. -/
theorem readHex_padded (k : Nat) (cs : List Char) :
    readHex (List.replicate k '0' ++ cs) = readHex cs := by
  induction k with
  | zero => rfl
  | succ k ih =>
    rw [List.replicate_succ, List.cons_append, readHex, List.foldl_cons,
      show 16 * 0 + hexDigit '0' = 0 by decide]
    exact ih

theorem readHex_hexChars (width n : Nat) : readHex (hexChars width n) = n := by
  rw [hexChars, readHex_padded, readHex_toDigits]

/-- **Different numbers have different identities.** -/
theorem identity_injective : Function.Injective identity := by
  intro m n h
  have hchars : hexChars 12 m = hexChars 12 n :=
    String.ofList_injective ((String.append_right_inj _).1 h)
  calc
    m = readHex (hexChars 12 m) := (readHex_hexChars 12 m).symm
    _ = readHex (hexChars 12 n) := by rw [hchars]
    _ = n := readHex_hexChars 12 n

theorem ascii_toDigits (n : Nat) : ∀ c ∈ Nat.toDigits 16 n, c.toNat < 128 := by
  have hdigit : ∀ d < 16, (Nat.digitChar d).toNat < 128 := by decide
  induction n using Nat.strongRecOn with
  | ind n ih =>
    intro c hc
    by_cases h : n < 16
    · rw [Nat.toDigits_of_lt_base h, List.mem_singleton] at hc
      rw [hc]
      exact hdigit n h
    · rw [Nat.toDigits_of_base_le (by decide) (by omega)] at hc
      rcases List.mem_append.1 hc with hrest | hlast
      · exact ih _ (by omega) c hrest
      · rw [List.mem_singleton.1 hlast]
        exact hdigit _ (Nat.mod_lt n (by decide))

theorem ascii_identity {n : Nat} {c : Char} (h : c ∈ (identity n).toList) : c.toNat < 128 := by
  have hfixed : "00000000-0000-0000-0000-".toList.all fun c => c.toNat < 128 := by decide +kernel
  unfold identity at h
  generalize "00000000-0000-0000-0000-" = fixed at h hfixed
  rw [String.toList_append, String.toList_ofList, hexChars] at h
  rcases List.mem_append.1 h with hmem | hdigits
  · exact of_decide_eq_true (List.all_eq_true.1 hfixed c hmem)
  · rcases List.mem_append.1 hdigits with hzero | hdigit
    · rw [List.eq_of_mem_replicate hzero]
      decide
    · exact ascii_toDigits n c hdigit

/-! ## Identities from one counter -/

/-- The identities that are given out next, when `drawn` were given out before. -/
def identitiesAfter (drawn count : Nat) : List String :=
  (List.range count).map fun i => identity (drawn + i + 1)

/-- Distinct identities, each of them among the first `drawn` that were given out. -/
structure Issued (drawn : Nat) (ids : List String) : Prop where
  nodup : ids.Nodup
  among : ∀ id ∈ ids, ∃ n, n ≤ drawn ∧ id = identity n

namespace Issued

theorem nil (drawn : Nat) : Issued drawn [] := ⟨.nil, fun _ h => absurd h List.not_mem_nil⟩

theorem mono {m n : Nat} {ids : List String} (h : Issued m ids) (hmn : m ≤ n) : Issued n ids := by
  refine ⟨h.nodup, fun id hid => ?_⟩
  obtain ⟨k, hk, rfl⟩ := h.among id hid
  exact ⟨k, hk.trans hmn, rfl⟩

theorem perm {n : Nat} {ids ids' : List String} (h : Issued n ids) (hp : ids'.Perm ids) :
    Issued n ids' :=
  ⟨hp.nodup_iff.2 h.nodup, fun id hid => h.among id (hp.mem_iff.1 hid)⟩

/-- Identities that are given out next differ from all before. -/
theorem append {drawn : Nat} {ids : List String} (h : Issued drawn ids) (count : Nat) :
    Issued (drawn + count) (ids ++ identitiesAfter drawn count) where
  nodup := by
    refine List.nodup_append'.2 ⟨h.nodup, List.nodup_range.map fun i j hij => ?_, ?_⟩
    · have := identity_injective hij
      omega
    · intro id hid hid'
      obtain ⟨k, hk, rfl⟩ := h.among id hid
      obtain ⟨i, -, heq⟩ := List.mem_map.1 hid'
      have := identity_injective heq
      omega
  among id hid := by
    rcases List.mem_append.1 hid with hid | hid
    · exact (h.mono (Nat.le_add_right drawn count)).among id hid
    · obtain ⟨i, hi, rfl⟩ := List.mem_map.1 hid
      have := List.mem_range.1 hi
      exact ⟨drawn + i + 1, by omega, rfl⟩

end Issued

end TypingTrace
