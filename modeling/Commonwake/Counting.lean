import Mathlib.Algebra.BigOperators.Group.Finset.Basic
import Mathlib.Algebra.Order.BigOperators.Group.Finset
import Mathlib.Data.List.Dedup
import Mathlib.Data.Set.Card
import Mathlib.Order.Interval.Finset.Nat

/-!
# Counting with lists

A list without duplicates which has the members of a set is as long as the set
is large, and no longer than the lists which have its members.  A count which
never falls and is bounded rises finitely often.
-/

namespace Counting

variable {α : Type} {items : List α} {s : Set α} {x : α}

theorem length_eq_ncard [DecidableEq α] (hnodup : items.Nodup)
    (hmem : ∀ x, x ∈ items ↔ x ∈ s) : items.length = s.ncard := by
  have hset : s = (items.toFinset : Set α) := by
    ext x
    rw [List.coe_toFinset, Set.mem_ofPred_eq, hmem]
  rw [hset, Set.ncard_coe_finset, List.toFinset_card_of_nodup hnodup]

theorem eq_singleton_iff (hnodup : items.Nodup) (hmem : ∀ y, y ∈ items ↔ y ∈ s) :
    items = [x] ↔ s = {x} := by
  constructor
  · rintro rfl
    ext y
    rw [← hmem, List.mem_singleton, Set.mem_singleton_iff]
  · rintro rfl
    refine List.perm_singleton.mp ?_
    rw [List.perm_ext_iff_of_nodup hnodup (List.nodup_singleton x)]
    intro y
    rw [hmem, Set.mem_singleton_iff, List.mem_singleton]

/-- Who has several choices is who has at least one and not exactly one. -/
theorem nontrivial_iff (hnodup : items.Nodup)
    (hmem : ∀ y, y ∈ items ↔ y ∈ s) : s.Nontrivial ↔ s.Nonempty ∧ items.length ≠ 1 := by
  constructor
  · intro hs
    refine ⟨hs.nonempty, ?_⟩
    intro hlength
    obtain ⟨x, hx⟩ := List.length_eq_one_iff.mp hlength
    rw [(eq_singleton_iff hnodup hmem).mp hx] at hs
    exact Set.not_nontrivial_singleton hs
  · rintro ⟨hs, hlength⟩
    rw [← Set.not_subsingleton_iff]
    intro hsub
    obtain ⟨x, rfl⟩ := hs.exists_eq_singleton_or_nontrivial.resolve_right
      (Set.not_nontrivial_iff.mpr hsub)
    rw [(eq_singleton_iff hnodup hmem).mpr rfl] at hlength
    exact hlength rfl

/-- A list without duplicates is no longer than lists which cover it. -/
theorem length_le_sum {ι : Type} {s : Finset ι} {cover : ι → List α} (hnodup : items.Nodup)
    (hcover : ∀ x ∈ items, ∃ i ∈ s, x ∈ cover i) :
    items.length ≤ ∑ i ∈ s, (cover i).length := by
  classical
  have hsubset : items.toFinset ⊆ s.biUnion fun i => (cover i).toFinset := by
    intro x hx
    obtain ⟨i, hi, hmem⟩ := hcover x (List.mem_toFinset.mp hx)
    exact Finset.mem_biUnion.mpr ⟨i, hi, List.mem_toFinset.mpr hmem⟩
  calc
    items.length = items.toFinset.card := (List.toFinset_card_of_nodup hnodup).symm
    _ ≤ (s.biUnion fun i => (cover i).toFinset).card := Finset.card_le_card hsubset
    _ ≤ ∑ i ∈ s, (cover i).toFinset.card := Finset.card_biUnion_le
    _ ≤ ∑ i ∈ s, (cover i).length := Finset.sum_le_sum fun i _ => List.toFinset_card_le (cover i)

/-- What is counted once is counted under one of the labels. -/
theorem countP_le_sum {ι : Type} {s : Finset ι} {test : α → Bool} {labelled : ι → α → Bool}
    (h : ∀ x ∈ items, test x = true → ∃ i ∈ s, labelled i x = true) :
    items.countP test ≤ ∑ i ∈ s, items.countP (labelled i) := by
  induction items with
  | nil => simp
  | cons x rest ih =>
      have hrest := ih fun y hy => h y (List.mem_cons_of_mem x hy)
      simp only [List.countP_cons, Finset.sum_add_distrib]
      by_cases htest : test x = true
      · obtain ⟨i, hi, hlabel⟩ := h x List.mem_cons_self htest
        have hone : 1 ≤ ∑ i ∈ s, if labelled i x = true then 1 else 0 := by
          have hsingle := Finset.single_le_sum
            (f := fun i => if labelled i x = true then 1 else 0)
            (fun _ _ => Nat.zero_le _) hi
          rwa [if_pos hlabel] at hsingle
        rw [if_pos htest]
        omega
      · rw [if_neg htest]
        omega

theorem finite_rises {count : ℕ → ℕ} {bound : ℕ} (hmono : ∀ n, count n ≤ count (n + 1))
    (hbound : ∀ n, count n ≤ bound) : {n | count n < count (n + 1)}.Finite := by
  have hle := monotone_nat_of_le_succ hmono
  apply Set.Finite.of_finite_image ((Set.finite_Iic bound).subset _)
  · intro n hn m hm hsame
    rcases lt_trichotomy n m with hless | heq | hless
    · have hbetween := hle (Nat.succ_le_of_lt hless)
      exact absurd hsame (lt_of_lt_of_le hn hbetween).ne
    · exact heq
    · have hbetween := hle (Nat.succ_le_of_lt hless)
      exact absurd hsame (lt_of_lt_of_le hm hbetween).ne'
  · rintro _ ⟨n, -, rfl⟩
    exact hbound n

end Counting
