import Mathlib

/-!
# Pages of a growing set

A set is read in pages of at most `n` elements, the greatest first, each page below the least element of the one before
it. The set may grow between two pages. Whoever reads on until a page is short has read every element that was there at
the beginning, and none twice.

- `isPage_take`: the first elements of what is sorted are a page.
- `Traversal.bounded`: what is read is below the cursor.
- `Traversal.sorted`: the pages in their order are strictly descending.
- `Traversal.complete`: every element that was there is read.
-/

namespace Chhaya

namespace Paging

variable {α : Type} [LinearOrder α] {s t : Set α} {c : Option α} {n : ℕ}

/-- The cursor leaves `x`; no cursor leaves everything. -/
def Below (c : Option α) (x : α) : Prop := ∀ b ∈ c, x < b

/-- A page of `s`: at most the elements below the cursor, and not fewer than `n` of them where one is left out, which is
below all of them. -/
structure IsPage (s : Set α) (c : Option α) (n : ℕ) (l : List α) : Prop where
  sorted : l.Pairwise (· > ·)
  mem : ∀ x ∈ l, x ∈ s ∧ Below c x
  rest : ∀ x ∈ s, Below c x → x ∉ l → n ≤ l.length ∧ ∀ y ∈ l, x < y

/-- The pages that are read from a cursor on, until one is short. -/
inductive Traversal (n : ℕ) : Option α → Set α → List (List α) → Prop
  | last {c : Option α} {s : Set α} {l : List α} (hp : IsPage s c n l) (hl : l.length < n) : Traversal n c s [l]
  | next {c : Option α} {s t : Set α} {l : List α} {b : α} {ls : List (List α)} (hp : IsPage s c n l)
    (hb : l.getLast? = some b) (hs : s ⊆ t) (h : Traversal n (some b) t ls) : Traversal n c s (l :: ls)

/-! ## Pages -/

/-- The first elements of what is sorted are a page. -/
theorem isPage_take {l : List α} (hl : l.Pairwise (· > ·)) (hmem : ∀ x, x ∈ l ↔ x ∈ s ∧ Below c x) (n : ℕ) :
    IsPage s c n (l.take n) := by
  refine ⟨hl.sublist (List.take_sublist n l), fun x hx => (hmem x).mp (List.mem_of_mem_take hx), fun x hx hc hout => ?_⟩
  have hin : x ∈ l.drop n := by
    have := (hmem x).mpr ⟨hx, hc⟩
    rw [← List.take_append_drop n l] at this
    exact (List.mem_append.mp this).resolve_left hout
  constructor
  · have := List.length_pos_of_mem hin
    rw [List.length_drop] at this
    rw [List.length_take]
    omega
  · rw [← List.take_append_drop n l] at hl
    exact fun y hy => (List.pairwise_append.mp hl).2.2 y hy x hin

/-- The last element of a page is the least one. -/
theorem IsPage.last_le {l : List α} {b : α} (h : IsPage s c n l) (hb : l.getLast? = some b) : ∀ x ∈ l, b ≤ x := by
  obtain ⟨l', rfl⟩ := List.getLast?_eq_some_iff.mp hb
  intro x hx
  rcases List.mem_append.mp hx with hx | hx
  · exact ((List.pairwise_append.mp h.sorted).2.2 x hx b (List.mem_singleton_self b)).le
  · exact (List.mem_singleton.mp hx).ge

/-! ## Traversals -/

/-- What is read is below the cursor. -/
theorem Traversal.bounded {ls : List (List α)} (h : Traversal n c s ls) : ∀ x ∈ ls.flatten, Below c x := by
  induction h with
  | last hp _ => exact fun x hx => (hp.mem x (by simpa using hx)).2
  | next hp hb _ _ ih =>
    intro x hx
    rw [List.flatten_cons, List.mem_append] at hx
    rcases hx with hx | hx
    · exact (hp.mem x hx).2
    · have hlt := ih x hx _ rfl
      exact fun b hc => hlt.trans ((hp.mem _ (List.mem_of_getLast? hb)).2 b hc)

/-- The pages in their order are strictly descending. -/
theorem Traversal.sorted {ls : List (List α)} (h : Traversal n c s ls) : ls.flatten.Pairwise (· > ·) := by
  induction h with
  | last hp _ => simpa using hp.sorted
  | next hp hb _ h ih =>
    rw [List.flatten_cons, List.pairwise_append]
    refine ⟨hp.sorted, ih, fun x hx y hy => ?_⟩
    exact (h.bounded y hy _ rfl).trans_le (hp.last_le hb x hx)

/-- Every element that was there is read. -/
theorem Traversal.complete {ls : List (List α)} (h : Traversal n c s ls) {x : α} (hx : x ∈ s) (hc : Below c x) :
    x ∈ ls.flatten := by
  induction h with
  | last hp hl =>
    by_contra hout
    have := (hp.rest x hx hc (by simpa using hout)).1
    omega
  | next hp hb hs _ ih =>
    rw [List.flatten_cons, List.mem_append]
    refine or_iff_not_imp_left.mpr fun hout => ih (hs hx) fun b hbc => ?_
    obtain rfl := Option.some.inj hbc
    exact (hp.rest x hx hc hout).2 _ (List.mem_of_getLast? hb)

end Paging

end Chhaya
