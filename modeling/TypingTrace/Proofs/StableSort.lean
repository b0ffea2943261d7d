import Mathlib.Data.List.Basic

/-!
# Stable sorting

**Stable sort.** A list is a stable sort of another by a key if it holds the same items, in
ascending order of the key, and the items of any one key follow each other as before. There is only
one such list (`StableSort.unique`), so two ways of sorting agree as soon as both are stable.

Sorting two lists apart and merging the results sorts the two joined together
(`StableSort.merge`), provided that the merge takes the left list first where keys are equal. This
is what lets a sequence that grows by sorted batches be known from all batches at once.
-/

namespace TypingTrace

variable {α : Type*} {key : α → Int}

/-- The items of a list that have a given key. -/
def ofKey (key : α → Int) (k : Int) (l : List α) : List α := l.filter fun a => decide (key a = k)

structure StableSort (key : α → Int) (l sorted : List α) : Prop where
  perm : sorted.Perm l
  ordered : sorted.Pairwise fun a b => key a ≤ key b
  stable : ∀ k, ofKey key k sorted = ofKey key k l

/-- The comparison of keys, as sorting takes it. -/
abbrev leBy (key : α → Int) (a b : α) : Bool := decide (key a ≤ key b)

theorem leBy_trans (a b c : α) : leBy key a b → leBy key b c → leBy key a c := by
  simp only [decide_eq_true_eq]
  exact Int.le_trans

theorem leBy_total (a b : α) : leBy key a b || leBy key b a := by
  simp only [Bool.or_eq_true, decide_eq_true_eq]
  exact Int.le_total _ _

/-! ## Uniqueness -/

theorem ofKey_cons (k : Int) (a : α) (l : List α) :
    ofKey key k (a :: l) = if key a = k then a :: ofKey key k l else ofKey key k l := by
  simp only [ofKey, List.filter_cons, decide_eq_true_eq]

/-- Items of different keys may change places. -/
theorem ofKey_swap {a b : α} (h : key a ≠ key b) (l : List α) (k : Int) :
    ofKey key k (a :: b :: l) = ofKey key k (b :: a :: l) := by
  simp only [ofKey_cons]
  split_ifs with ha hb
  · exact absurd (ha.trans hb.symm) h
  all_goals rfl

theorem mem_ofKey {k : Int} {a : α} {l : List α} : a ∈ ofKey key k l ↔ a ∈ l ∧ key a = k := by
  simp [ofKey]

theorem mem_iff_of_ofKey_eq {l m : List α} (h : ∀ k, ofKey key k l = ofKey key k m) (a : α) :
    a ∈ l ↔ a ∈ m := by
  have ha : a ∈ ofKey key (key a) l ↔ a ∈ ofKey key (key a) m := by rw [h]
  simpa only [mem_ofKey, and_true] using ha

/-- In an ordered list that begins with `a`, nothing has a smaller key. -/
theorem head_le {a b : α} {l : List α} (h : (a :: l).Pairwise fun a b => key a ≤ key b)
    (hb : b ∈ a :: l) : key a ≤ key b := by
  rcases List.mem_cons.1 hb with rfl | hb
  · exact Int.le_refl _
  · exact List.rel_of_pairwise_cons h hb

/-- An ordered list is determined by what it holds of each key. -/
theorem eq_of_ofKey_eq {l m : List α} (hl : l.Pairwise fun a b => key a ≤ key b)
    (hm : m.Pairwise fun a b => key a ≤ key b) (h : ∀ k, ofKey key k l = ofKey key k m) :
    l = m := by
  induction l generalizing m with
  | nil =>
    cases m with
    | nil => rfl
    | cons b m => exact absurd ((mem_iff_of_ofKey_eq h b).2 List.mem_cons_self) List.not_mem_nil
  | cons a l ih =>
    cases m with
    | nil => exact absurd ((mem_iff_of_ofKey_eq h a).1 List.mem_cons_self) List.not_mem_nil
    | cons b m =>
      -- Both heads have the smallest key, so they are the first items of that key.
      have hkey : key a = key b := Int.le_antisymm
        (head_le hl ((mem_iff_of_ofKey_eq h b).2 List.mem_cons_self))
        (head_le hm ((mem_iff_of_ofKey_eq h a).1 List.mem_cons_self))
      have hfirst := h (key a)
      rw [ofKey_cons, ofKey_cons, if_pos rfl, if_pos hkey.symm] at hfirst
      obtain ⟨rfl, -⟩ := List.cons.inj hfirst
      have hrest : ∀ k, ofKey key k l = ofKey key k m := fun k => by
        have hk := h k
        rw [ofKey_cons, ofKey_cons] at hk
        split_ifs at hk
        · exact (List.cons.inj hk).2
        · exact hk
      rw [ih hl.of_cons hm.of_cons hrest]

/-- **Uniqueness.** A list has only one stable sort. -/
theorem StableSort.unique {l s t : List α} (hs : StableSort key l s) (ht : StableSort key l t) :
    s = t :=
  eq_of_ofKey_eq hs.ordered ht.ordered fun k => (hs.stable k).trans (ht.stable k).symm

/-- A stable sort is one by any other key that orders the same items in the same way. -/
theorem StableSort.of_key {key' : α → Int} {l sorted : List α} (h : StableSort key l sorted)
    (hkey : ∀ a ∈ l, ∀ b ∈ l, key a ≤ key b ↔ key' a ≤ key' b) : StableSort key' l sorted where
  perm := h.perm
  ordered := h.ordered.imp_of_mem fun ha hb =>
    (hkey _ (h.perm.mem_iff.1 ha) _ (h.perm.mem_iff.1 hb)).1
  stable k := by
    by_cases hk : ∃ a ∈ l, key' a = k
    · -- The items of the key `k` are those of one key by which the list was sorted.
      obtain ⟨a, ha, rfl⟩ := hk
      have hsame : ∀ m : List α, m ⊆ l → ofKey key' (key' a) m = ofKey key (key a) m := by
        intro m hm
        refine List.filter_congr fun b hb => ?_
        have hle := hkey b (hm hb) a ha
        have hge := hkey a ha b (hm hb)
        rw [decide_eq_decide]
        omega
      rw [hsame sorted h.perm.subset, hsame l (List.Subset.refl l), h.stable]
    · have hnone : ∀ m : List α, m ⊆ l → ofKey key' k m = [] := fun m hm =>
        List.filter_eq_nil_iff.2 fun b hb => by
          rw [decide_eq_true_eq]
          exact fun heq => hk ⟨b, hm hb, heq⟩
      rw [hnone sorted h.perm.subset, hnone l (List.Subset.refl l)]

/-! ## Merging -/

theorem ofKey_append (k : Int) (l m : List α) :
    ofKey key k (l ++ m) = ofKey key k l ++ ofKey key k m := List.filter_append ..

/-- A merge of ordered lists holds of each key what the left list holds, then what the right
does. -/
theorem ofKey_merge (k : Int) {l m : List α} (hl : l.Pairwise fun a b => key a ≤ key b) :
    ofKey key k (List.merge l m (leBy key)) = ofKey key k l ++ ofKey key k m := by
  induction l generalizing m with
  | nil => simp [ofKey]
  | cons a l ihl =>
    induction m with
    | nil => simp [ofKey]
    | cons b m ihm =>
      by_cases h : key a ≤ key b
      · rw [List.cons_merge_cons_pos _ _ _ (by simpa using h), ofKey_cons, ofKey_cons k a,
          ihl hl.of_cons]
        split_ifs <;> rfl
      · rw [List.cons_merge_cons_neg _ _ _ (by simpa using h), ofKey_cons, ofKey_cons k b, ihm]
        split_ifs with hb
        · -- Everything on the left comes after `b`, so it holds nothing of that key.
          have hnil : ofKey key k (a :: l) = [] := List.filter_eq_nil_iff.2 fun c hc => by
            have := head_le hl hc
            simp only [decide_eq_true_eq]
            omega
          rw [hnil]
          rfl
        · rfl

/-- **Merging.** Stable sorts of two lists merge to the stable sort of the lists joined. -/
theorem StableSort.merge {l m s t : List α} (hs : StableSort key l s) (ht : StableSort key m t) :
    StableSort key (l ++ m) (List.merge s t (leBy key)) where
  perm := (List.merge_perm_append _).trans (hs.perm.append ht.perm)
  ordered := by
    have hs' : s.Pairwise fun a b => leBy key a b := by simpa using hs.ordered
    have ht' : t.Pairwise fun a b => leBy key a b := by simpa using ht.ordered
    simpa using List.pairwise_merge leBy_trans leBy_total s t hs' ht'
  stable k := by rw [ofKey_merge k hs.ordered, ofKey_append, hs.stable, ht.stable]

/-- Whatever the comparison, a merge keeps the left list in its order. -/
theorem sublist_merge_left (le : α → α → Bool) (l m : List α) : l.Sublist (List.merge l m le) := by
  induction l generalizing m with
  | nil => exact List.nil_sublist _
  | cons a l ihl =>
    induction m with
    | nil => rw [List.merge_right]
    | cons b m ihm =>
      rw [List.cons_merge_cons]
      split_ifs
      · exact (ihl (b :: m)).cons_cons a
      · exact ihm.cons b

/-- Of two items with one key, a merge has that of the left list first. -/
theorem pair_sublist_merge {l m : List α} (hl : l.Pairwise fun a b => key a ≤ key b) {a b : α}
    (ha : a ∈ l) (hb : b ∈ m) (h : key a = key b) :
    [a, b].Sublist (List.merge l m (leBy key)) := by
  have hpair : [a, b].Sublist (ofKey key (key b) l ++ ofKey key (key b) m) :=
    (List.singleton_sublist.2 (mem_ofKey.2 ⟨ha, h⟩)).append
      (List.singleton_sublist.2 (mem_ofKey.2 ⟨hb, rfl⟩))
  rw [← ofKey_merge _ hl] at hpair
  exact hpair.trans List.filter_sublist

/-! ## Sorting -/

theorem StableSort.nil : StableSort key [] [] := ⟨.refl _, .nil, fun _ => rfl⟩

/-- An ordered list is its own stable sort. -/
theorem StableSort.self {l : List α} (h : l.Pairwise fun a b => key a ≤ key b) :
    StableSort key l l := ⟨.refl _, h, fun _ => rfl⟩

/-- Merge sort is stable. -/
theorem stableSort_mergeSort (l : List α) : StableSort key l (l.mergeSort (leBy key)) where
  perm := List.mergeSort_perm _ _
  ordered := by simpa using List.pairwise_mergeSort leBy_trans leBy_total l
  stable k := by
    -- The items of one key are in order as they are, so sorting keeps them as a sublist.
    have hordered : (ofKey key k l).Pairwise fun a b => leBy key a b := by
      refine List.pairwise_of_forall_mem_list fun a ha b hb => ?_
      rw [mem_ofKey] at ha hb
      simp only [decide_eq_true_eq]
      omega
    have hsub : (ofKey key k l).Sublist (ofKey key k (l.mergeSort (leBy key))) := by
      have h := List.sublist_mergeSort leBy_trans leBy_total hordered List.filter_sublist
      have h' := h.filter fun a => decide (key a = k)
      simpa only [ofKey, List.filter_filter, Bool.and_self] using h'
    refine (hsub.eq_of_length ?_).symm
    exact ((List.mergeSort_perm l _).filter _).length_eq.symm

theorem StableSort.eq_mergeSort {l s : List α} (h : StableSort key l s) :
    s = l.mergeSort (leBy key) := h.unique (stableSort_mergeSort l)

end TypingTrace
