import Mathlib

/-!
# The first element of each key

A pass over a list that keeps an element when no element before it had its key.

- `firsts_sublist`, `nodup_keys_firsts`, `exists_mem_firsts`: one element for each key of the list.
- `firsts_before`: it stands before the others of its key.
- `length_firsts`, `length_filter_firsts`: how many elements are kept, and how many are left.
- `surplus_mono`: of a part of the list, not more are left.
-/

namespace Chhaya

section

variable {α κ : Type} [DecidableEq κ] (key : α → κ)

/-- The elements whose key is neither used nor that of an element before them. -/
def firsts : List α → List κ → List α
  | [], _ => []
  | a :: l, used => if key a ∈ used then firsts l used else a :: firsts l (key a :: used)

/-- The number of elements that are not the first of their key. -/
def surplus (l : List α) : Nat := l.length - (l.map key).dedup.length

variable {key}

theorem firsts_cons_of_mem {a : α} {l : List α} {used : List κ} (h : key a ∈ used) :
    firsts key (a :: l) used = firsts key l used := if_pos h

theorem firsts_cons_of_notMem {a : α} {l : List α} {used : List κ} (h : key a ∉ used) :
    firsts key (a :: l) used = a :: firsts key l (key a :: used) := if_neg h

theorem firsts_sublist (l : List α) (used : List κ) : (firsts key l used).Sublist l := by
  induction l generalizing used with
  | nil => exact List.Sublist.refl _
  | cons a l ih =>
    unfold firsts
    split
    · exact (ih used).cons a
    · exact (ih _).cons_cons a

theorem key_notMem_of_mem_firsts {l : List α} {used : List κ} {a : α} (h : a ∈ firsts key l used) : key a ∉ used := by
  induction l generalizing used with
  | nil => cases h
  | cons b l ih =>
    unfold firsts at h
    split at h
    · exact ih h
    · rename_i hb
      rcases List.mem_cons.mp h with rfl | h
      · exact hb
      · exact fun hu => ih h (List.mem_cons_of_mem _ hu)

theorem nodup_keys_firsts (l : List α) (used : List κ) : ((firsts key l used).map key).Nodup := by
  induction l generalizing used with
  | nil => exact List.nodup_nil
  | cons a l ih =>
    unfold firsts
    split
    · exact ih used
    · rw [List.map_cons, List.nodup_cons]
      refine ⟨fun h => ?_, ih _⟩
      obtain ⟨b, hb, hkey⟩ := List.mem_map.mp h
      exact key_notMem_of_mem_firsts hb (hkey ▸ List.mem_cons_self)

theorem exists_mem_firsts {l : List α} {used : List κ} {a : α} (ha : a ∈ l) (hu : key a ∉ used) :
    ∃ f ∈ firsts key l used, key f = key a := by
  induction l generalizing used with
  | nil => cases ha
  | cons b l ih =>
    unfold firsts
    rcases List.mem_cons.mp ha with rfl | ha
    · rw [if_neg hu]
      exact ⟨a, List.mem_cons_self, rfl⟩
    · split
      · exact ih ha hu
      · by_cases hkey : key b = key a
        · exact ⟨b, List.mem_cons_self, hkey⟩
        · have hu' : key a ∉ key b :: used := by
            rw [List.mem_cons, not_or]
            exact ⟨fun h => hkey h.symm, hu⟩
          obtain ⟨f, hf, h⟩ := ih ha hu'
          exact ⟨f, List.mem_cons_of_mem _ hf, h⟩

/-- In a list that is sorted by a relation, the first of a key is below the others of its key. -/
theorem firsts_before {R : α → α → Prop} (hrefl : ∀ a, R a a) {l : List α} (hs : l.Pairwise R) {used : List κ} {f a : α}
    (hf : f ∈ firsts key l used) (ha : a ∈ l) (hkey : key a = key f) : R f a := by
  induction l generalizing used with
  | nil => cases ha
  | cons b l ih =>
    obtain ⟨hb, hs⟩ := List.pairwise_cons.mp hs
    unfold firsts at hf
    split at hf
    · rename_i hused
      rcases List.mem_cons.mp ha with rfl | ha
      · exact absurd (hkey ▸ hused) (key_notMem_of_mem_firsts hf)
      · exact ih hs hf ha
    · rcases List.mem_cons.mp hf with rfl | hf
      · rcases List.mem_cons.mp ha with rfl | ha
        · exact hrefl _
        · exact hb a ha
      · rcases List.mem_cons.mp ha with rfl | ha
        · exact absurd (hkey ▸ List.mem_cons_self) (key_notMem_of_mem_firsts hf)
        · exact ih hs hf ha

/-- Only what is used matters, not in which order. -/
theorem firsts_congr (l : List α) {used used' : List κ} (h : ∀ k, k ∈ used ↔ k ∈ used') :
    firsts key l used = firsts key l used' := by
  induction l generalizing used used' with
  | nil => rfl
  | cons a l ih =>
    have hcons : ∀ k, k ∈ key a :: used ↔ k ∈ key a :: used' := fun k => by rw [List.mem_cons, List.mem_cons, h]
    unfold firsts
    simp only [h]
    rw [ih h, ih hcons]

theorem firsts_append (l l' : List α) (used : List κ) :
    firsts key (l ++ l') used = firsts key l used ++ firsts key l' (l.map key ++ used) := by
  induction l generalizing used with
  | nil => rfl
  | cons a l ih =>
    rw [List.cons_append]
    by_cases ha : key a ∈ used
    · have hused : firsts key l' (l.map key ++ used) = firsts key l' ((a :: l).map key ++ used) := by
        refine firsts_congr l' fun k => ?_
        simp only [List.map_cons, List.cons_append, List.mem_cons, List.mem_append]
        constructor
        · exact .inr
        · rintro (rfl | h)
          · exact .inr ha
          · exact h
      rw [firsts_cons_of_mem ha, firsts_cons_of_mem ha, ih, hused]
    · have hused : firsts key l' (l.map key ++ key a :: used) = firsts key l' ((a :: l).map key ++ used) := by
        refine firsts_congr l' fun k => ?_
        simp only [List.map_cons, List.cons_append, List.mem_cons, List.mem_append]
        tauto
      rw [firsts_cons_of_notMem ha, firsts_cons_of_notMem ha, ih, hused, List.cons_append]

/-- One element is kept for each key. -/
theorem length_firsts (l : List α) : (firsts key l []).length = (l.map key).dedup.length := by
  have hperm : ((firsts key l []).map key).Perm (l.map key).dedup := by
    refine (List.perm_ext_iff_of_nodup (nodup_keys_firsts l []) (List.nodup_dedup _)).mpr fun k => ?_
    rw [List.mem_dedup, List.mem_map, List.mem_map]
    constructor
    · rintro ⟨f, hf, rfl⟩
      exact ⟨f, (firsts_sublist l []).subset hf, rfl⟩
    · rintro ⟨a, ha, rfl⟩
      exact exists_mem_firsts ha List.not_mem_nil
  rw [← hperm.length_eq, List.length_map]

/-- What is kept of a list without duplicates is the rest of its surplus. -/
theorem length_filter_firsts [DecidableEq α] {l : List α} (hl : l.Nodup) :
    (l.filter fun a => decide (a ∉ firsts key l [])).length = surplus key l := by
  have hkept : (l.filter fun a => decide (a ∈ firsts key l [])).Perm (firsts key l []) := by
    refine (List.perm_ext_iff_of_nodup (hl.filter _) (hl.sublist (firsts_sublist l []))).mpr fun a => ?_
    rw [List.mem_filter, decide_eq_true_eq]
    exact ⟨fun h => h.2, fun h => ⟨(firsts_sublist l []).subset h, h⟩⟩
  have hsplit := List.length_eq_length_filter_add (l := l) fun a => decide (a ∈ firsts key l [])
  rw [hkept.length_eq, length_firsts] at hsplit
  simp only [decide_not]
  rw [surplus, hsplit, Nat.add_sub_cancel_left]

theorem surplus_perm {l l' : List α} (h : l.Perm l') : surplus key l = surplus key l' := by
  rw [surplus, surplus, h.length_eq, ((h.map key).dedup).length_eq]

theorem surplus_cons (a : α) (l : List α) :
    surplus key (a :: l) = if key a ∈ l.map key then surplus key l + 1 else surplus key l := by
  have hle : (l.map key).dedup.length ≤ l.length := by
    have h := List.Sublist.length_le (List.dedup_sublist (l.map key))
    rwa [List.length_map] at h
  unfold surplus
  rw [List.map_cons, List.length_cons]
  split
  · rename_i hk
    rw [List.dedup_cons_of_mem hk]
    omega
  · rename_i hk
    rw [List.dedup_cons_of_notMem hk, List.length_cons]
    omega

/-- Of a part of a list, not more are left over. -/
theorem surplus_mono {l l' : List α} (h : l.Subperm l') : surplus key l ≤ surplus key l' := by
  have hsub : ∀ {l l' : List α}, l.Sublist l' → surplus key l ≤ surplus key l' := by
    intro l l' hs
    induction hs with
    | slnil => exact le_rfl
    | cons a _ ih =>
      rw [surplus_cons]
      split <;> omega
    | @cons_cons m m' a hsub ih =>
      rw [surplus_cons, surplus_cons]
      by_cases hk : key a ∈ m.map key
      · rw [if_pos hk, if_pos ((hsub.map key).subset hk)]
        omega
      · rw [if_neg hk]
        split <;> omega
  obtain ⟨m, hperm, hm⟩ := h
  rw [← surplus_perm hperm]
  exact hsub hm

variable (key) in
/-- Of a part of a list, not more keys are there. -/
theorem length_keys_mono {l l' : List α} (h : l ⊆ l') : (l.map key).dedup.length ≤ (l'.map key).dedup.length := by
  refine List.Subperm.length_le (List.subperm_of_subset (List.nodup_dedup _) fun k hk => ?_)
  rw [List.mem_dedup] at hk ⊢
  exact List.map_subset key h hk

end

end Chhaya
