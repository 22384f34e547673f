import Mathlib.Data.Finset.Card
import Mathlib.Data.Finset.Range
import Mathlib.Data.List.Nodup

/-! Lists in the order of a rank that no two elements share. -/

namespace PesitWizard.Library.Ranked

variable {α : Type} (rank : α → ℕ)

def ascending (l : List α) : List α := l.mergeSort fun a b => decide (rank a ≤ rank b)

def descending (l : List α) : List α := l.mergeSort fun a b => decide (rank b ≤ rank a)

variable {rank} {l m : List α}

lemma ascending_perm (l : List α) : (ascending rank l).Perm l := List.mergeSort_perm l _

lemma ascending_le (l : List α) : (ascending rank l).Pairwise fun a b => rank a ≤ rank b := by
  have htrans : ∀ a b c : α, decide (rank a ≤ rank b) → decide (rank b ≤ rank c) →
      decide (rank a ≤ rank c) := by
    intro a b c hab hbc
    simp only [decide_eq_true_eq] at hab hbc ⊢
    exact hab.trans hbc
  refine (List.pairwise_mergeSort htrans ?_ l).imp of_decide_eq_true
  intro a b
  simp only [Bool.or_eq_true, decide_eq_true_eq]
  exact Nat.le_total _ _

lemma descending_le (l : List α) : (descending rank l).Pairwise fun a b => rank b ≤ rank a := by
  have htrans : ∀ a b c : α, decide (rank b ≤ rank a) → decide (rank c ≤ rank b) →
      decide (rank c ≤ rank a) := by
    intro a b c hab hbc
    simp only [decide_eq_true_eq] at hab hbc ⊢
    exact hbc.trans hab
  refine (List.pairwise_mergeSort htrans ?_ l).imp of_decide_eq_true
  intro a b
  simp only [Bool.or_eq_true, decide_eq_true_eq]
  exact Nat.le_total _ _

lemma ascending_eq (hperm : m.Perm l) (hm : m.Pairwise fun a b => rank a < rank b) :
    ascending rank l = m := by
  have hnodup : (m.map rank).Nodup := List.pairwise_map.mpr (hm.imp Nat.ne_of_lt)
  refine List.Perm.eq_of_pairwise ?_ (ascending_le l) (hm.imp Nat.le_of_lt)
    ((ascending_perm l).trans hperm.symm)
  intro a b ha hb hab hba
  have ha' := hperm.mem_iff.mpr ((ascending_perm l).mem_iff.mp ha)
  exact List.inj_on_of_nodup_map hnodup ha' hb (Nat.le_antisymm hab hba)

lemma ascending_lt (h : (l.map rank).Nodup) :
    (ascending rank l).Pairwise fun a b => rank a < rank b := by
  have hnodup : ((ascending rank l).map rank).Nodup := ((ascending_perm l).map rank).nodup_iff.mpr h
  refine (ascending_le l).imp₂ (fun a b hle hne => Nat.lt_of_le_of_ne hle hne)
    (List.pairwise_map.mp hnodup)

lemma ascending_nodup (h : (l.map rank).Nodup) : ((ascending rank l).map rank).Nodup :=
  ((ascending_perm l).map rank).nodup_iff.mpr h

lemma descending_eq (h : (l.map rank).Nodup) : descending rank l = (ascending rank l).reverse := by
  have hasc := ascending_lt h
  refine List.Perm.eq_of_pairwise ?_ (descending_le l)
    (List.pairwise_reverse.mpr (hasc.imp Nat.le_of_lt)) ?_
  · intro a b ha hb hab hba
    have hb' := (ascending_perm l).mem_iff.mp (List.mem_reverse.mp hb)
    exact List.inj_on_of_nodup_map h (List.mem_mergeSort.mp ha) hb' (Nat.le_antisymm hba hab)
  · exact (List.mergeSort_perm l _).trans ((ascending_perm l).symm.trans (List.reverse_perm _).symm)

lemma ascending_filter (h : (l.map rank).Nodup) (p : α → Bool) :
    ascending rank (l.filter p) = (ascending rank l).filter p :=
  ascending_eq ((ascending_perm l).filter p) ((ascending_lt h).filter p)

lemma filter_rank_mem_drop (h : (l.map rank).Nodup) (k : ℕ) :
    (l.filter fun a => decide (rank a ∈ (l.drop k).map rank)) = l.drop k := by
  have hsplit : (l.take k ++ l.drop k).map rank = l.map rank := by rw [List.take_append_drop]
  rw [← hsplit, List.map_append, List.nodup_append] at h
  conv_lhs => rw [← List.take_append_drop k l, List.filter_append]
  have hfirst :
      ((l.take k).filter fun a => decide (rank a ∈ ((l.take k ++ l.drop k).drop k).map rank)) = [] := by
    rw [List.take_append_drop, List.filter_eq_nil_iff]
    intro a ha
    rw [decide_eq_true_eq]
    intro hmem
    exact h.2.2 _ (List.mem_map_of_mem ha) _ hmem rfl
  have hrest :
      ((l.drop k).filter fun a => decide (rank a ∈ ((l.take k ++ l.drop k).drop k).map rank)) =
      l.drop k := by
    rw [List.take_append_drop, List.filter_eq_self]
    intro a ha
    rw [decide_eq_true_eq]
    exact List.mem_map_of_mem ha
  rw [hfirst, hrest, List.nil_append]

lemma length_lt (h : (l.map rank).Nodup) {n : ℕ} (hpos : 0 < n) (hl : ∀ a ∈ l, 0 < rank a ∧ rank a < n) :
    l.length < n := by
  have hzero : (0 :: l.map rank).Nodup := by
    rw [List.nodup_cons]
    refine ⟨?_, h⟩
    intro hmem
    obtain ⟨a, ha, heq⟩ := List.mem_map.mp hmem
    have := (hl a ha).1
    omega
  have hsub : (0 :: l.map rank).toFinset ⊆ Finset.range n := by
    intro x hx
    rw [List.mem_toFinset, List.mem_cons] at hx
    rw [Finset.mem_range]
    rcases hx with rfl | hx
    · exact hpos
    · obtain ⟨a, ha, rfl⟩ := List.mem_map.mp hx
      exact (hl a ha).2
  have hcard := Finset.card_le_card hsub
  rw [List.toFinset_card_of_nodup hzero, Finset.card_range, List.length_cons, List.length_map] at hcard
  omega

end PesitWizard.Library.Ranked
