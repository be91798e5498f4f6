import Mathlib

/-!
# Sorting

What the library functions that sort a list promise: a permutation in the order of the comparison, in which elements that
compare equal may stand in any order.

- `ListSort.sort_eq`: where no two elements compare equal, there is one such permutation.
-/

namespace Chhaya

/-- A sorting function for one comparison. -/
structure ListSort {α : Type} (le : α → α → Prop) where
  sort : List α → List α
  perm : ∀ l, (sort l).Perm l
  sorted : ∀ l, (sort l).Pairwise le

namespace ListSort

variable {α : Type} {le : α → α → Prop}

@[simp] theorem length_sort (S : ListSort le) (l : List α) : (S.sort l).length = l.length := (S.perm l).length_eq

@[simp] theorem mem_sort (S : ListSort le) {l : List α} {a : α} : a ∈ S.sort l ↔ a ∈ l := (S.perm l).mem_iff

/-- A sorted list whose elements differ in the order is what its permutations are sorted to. -/
theorem sort_eq (S : ListSort le) {l l' : List α} (hp : l.Perm l') (hs : l'.Pairwise le)
    (hanti : ∀ a b, a ∈ l' → b ∈ l' → le a b → le b a → a = b) : S.sort l = l' := by
  have hperm : (S.sort l).Perm l' := (S.perm l).trans hp
  exact List.Perm.eq_of_pairwise (fun a b ha hb => hanti a b (hperm.mem_iff.mp ha) hb) (S.sorted l) hs hperm

/-- Merge sort. -/
def merge (le : α → α → Prop) [DecidableRel le] (htrans : ∀ a b c, le a b → le b c → le a c)
    (htotal : ∀ a b, le a b ∨ le b a) : ListSort le where
  sort l := l.mergeSort fun a b => decide (le a b)
  perm l := List.mergeSort_perm l _
  sorted l := by
    have htrans' : ∀ a b c, decide (le a b) = true → decide (le b c) = true → decide (le a c) = true := by
      intro a b c hab hbc
      rw [decide_eq_true_eq] at hab hbc ⊢
      exact htrans a b c hab hbc
    have htotal' : ∀ a b, (decide (le a b) || decide (le b a)) = true := by
      intro a b
      rw [Bool.or_eq_true, decide_eq_true_eq, decide_eq_true_eq]
      exact htotal a b
    have h := List.pairwise_mergeSort htrans' htotal' l
    exact h.imp fun hab => of_decide_eq_true hab

end ListSort

end Chhaya
