import Mathlib

/-!
# Bit strings

Numbers as texts of zeros and ones of a fixed width, most significant bit first, and texts cut into groups of one width.

- `value_text`, `text_value`: texts of one width and the numbers below the power of two correspond.
- `flatMap_groups`, `group_flatMap`: cutting a text into groups and joining them are inverse.
-/

namespace Bits

/-- `n` in base two, filled with zeros up to `width`. -/
def text (width n : Nat) : List Char := (Nat.toDigits 2 n).leftpad width '0'

/-- The number that a text of zeros and ones stands for. -/
def value (bits : List Char) : Nat := Nat.ofDigitChars 2 bits 0

/-- Zeros and ones only. -/
def Binary (bits : List Char) : Prop := ∀ c ∈ bits, c = '0' ∨ c = '1'

/-- Group `i` of a text in groups of `width`. -/
def group (width i : Nat) (bits : List Char) : List Char := (bits.drop (width * i)).take width

theorem Binary.append {a b : List Char} (ha : Binary a) (hb : Binary b) : Binary (a ++ b) := by
  intro c hc
  rcases List.mem_append.mp hc with h | h
  · exact ha c h
  · exact hb c h

theorem Binary.flatMap {α : Type} {l : List α} {f : α → List Char} (h : ∀ x ∈ l, Binary (f x)) : Binary (l.flatMap f) := by
  intro c hc
  obtain ⟨x, hx, hc⟩ := List.mem_flatMap.mp hc
  exact h x hx c hc

theorem Binary.group {bits : List Char} (h : Binary bits) (width i : Nat) : Binary (group width i bits) :=
  fun c hc => h c (List.mem_of_mem_drop (List.mem_of_mem_take hc))

theorem binary_digit (n : Nat) (h : n < 2) : Binary [Nat.digitChar n] := by
  intro c hc
  obtain rfl := List.mem_singleton.mp hc
  obtain rfl | rfl : n = 0 ∨ n = 1 := by omega
  · exact Or.inl rfl
  · exact Or.inr rfl

theorem binary_toDigits (n : Nat) : Binary (Nat.toDigits 2 n) := by
  induction n using Nat.strongRecOn with
  | _ n ih =>
    rw [Nat.toDigits_eq_if (by omega)]
    split
    · rename_i h
      exact binary_digit n h
    · exact (ih _ (by omega)).append (binary_digit _ (Nat.mod_lt _ (by omega)))

theorem binary_text (width n : Nat) : Binary (text width n) := by
  intro c hc
  rcases List.mem_append.mp hc with h | h
  · exact Or.inl (List.eq_of_mem_replicate h)
  · exact binary_toDigits n c h

theorem length_text {width n : Nat} (hw : 0 < width) (h : n < 2 ^ width) : (text width n).length = width := by
  have hl := (Nat.length_toDigits_le_iff (b := 2) (n := n) (by omega) hw).mpr h
  rw [text, List.leftpad, List.length_append, List.length_replicate]
  omega

/-- A text read back. -/
theorem value_text (width n : Nat) : value (text width n) = n := by
  rw [value, text, List.leftpad, Nat.ofDigitChars_append, Nat.ofDigitChars_replicate_zero, Nat.mul_zero,
    Nat.ofDigitChars_toDigits (by omega) (by omega)]

theorem value_cons {c : Char} {bits : List Char} : value (c :: bits) = (c.toNat - 48) * 2 ^ bits.length + value bits := by
  have hacc : ∀ (bits : List Char) (n : Nat), Nat.ofDigitChars 2 bits n = n * 2 ^ bits.length + value bits := by
    intro bits
    induction bits with
    | nil => intro n; simp [value]
    | cons c bits ih =>
      intro n
      have hv : value (c :: bits) = (2 * 0 + (c.toNat - 48)) * 2 ^ bits.length + value bits := ih _
      rw [Nat.ofDigitChars_cons, ih, hv, List.length_cons, Nat.pow_succ]
      simp only [Char.reduceToNat]
      ring
  rw [value, Nat.ofDigitChars_cons, hacc, Nat.mul_zero, Nat.zero_add]
  rfl

theorem value_lt {bits : List Char} (h : Binary bits) : value bits < 2 ^ bits.length := by
  induction bits with
  | nil => simp [value]
  | cons c bits ih =>
    have ih := ih fun d hd => h d (List.mem_cons_of_mem _ hd)
    rw [value_cons, List.length_cons, Nat.pow_succ]
    rcases h c List.mem_cons_self with rfl | rfl
    · simp; omega
    · simp; omega

/-- Texts of one length are determined by their numbers. -/
theorem value_inj : ∀ {a b : List Char}, Binary a → Binary b → a.length = b.length → value a = value b → a = b
  | [], [], _, _, _, _ => rfl
  | x :: a, y :: b, ha, hb, hl, h => by
    have ha' : Binary a := fun c hc => ha c (List.mem_cons_of_mem _ hc)
    have hb' : Binary b := fun c hc => hb c (List.mem_cons_of_mem _ hc)
    have hl' : a.length = b.length := Nat.succ.inj hl
    have h1 := value_lt ha'
    have h2 := value_lt hb'
    rw [value_cons, value_cons, hl'] at h
    rw [hl'] at h1
    rcases ha x List.mem_cons_self with rfl | rfl <;> rcases hb y List.mem_cons_self with rfl | rfl <;> simp at h
    · rw [value_inj ha' hb' hl' h]
    · omega
    · omega
    · rw [value_inj ha' hb' hl' h]

/-- The number of a text, written out again. -/
theorem text_value {bits : List Char} (h : Binary bits) (h0 : 0 < bits.length) : text bits.length (value bits) = bits :=
  value_inj (binary_text _ _) h (length_text h0 (value_lt h)) (value_text _ _)

/-! ## Groups -/

theorem length_group {width i : Nat} {bits : List Char} (h : width * i + width ≤ bits.length) :
    (group width i bits).length = width := by
  simp only [group, List.length_take, List.length_drop]
  omega

theorem group_zero {width : Nat} {a b : List Char} (h : a.length = width) : group width 0 (a ++ b) = a := by
  simp [group, ← h]

theorem group_succ {width i : Nat} {a b : List Char} (h : a.length = width) :
    group width (i + 1) (a ++ b) = group width i b := by
  rw [group, group, Nat.mul_succ, ← h, Nat.add_comm, ← List.drop_drop, List.drop_left]

/-- A group of joined texts is one of them. -/
theorem group_flatMap {α : Type} {w : Nat} {f : α → List Char} {r : List Char} :
    ∀ {l : List α}, (∀ x ∈ l, (f x).length = w) → ∀ {i : Nat} (h : i < l.length),
      group w i (l.flatMap f ++ r) = f l[i]
  | x :: l, hw, 0, _ => by
    rw [List.flatMap_cons, List.append_assoc, group_zero (hw x List.mem_cons_self)]
    rfl
  | x :: l, hw, i + 1, h => by
    rw [List.flatMap_cons, List.append_assoc, group_succ (hw x List.mem_cons_self),
      group_flatMap (fun y hy => hw y (List.mem_cons_of_mem _ hy)) (Nat.lt_of_succ_lt_succ h)]
    rfl

/-- Texts that are the groups of another, joined. -/
theorem flatMap_groups {α : Type} {w : Nat} {f : α → List Char} : ∀ {l : List α} {bits : List Char},
    bits.length = w * l.length → (∀ i (h : i < l.length), f l[i] = group w i bits) → l.flatMap f = bits
  | [], bits, hl, _ => by
    rw [List.length_nil, Nat.mul_zero, List.length_eq_zero_iff] at hl
    rw [hl]
    rfl
  | x :: l, bits, hl, h => by
    rw [List.length_cons, Nat.mul_succ] at hl
    have ht : (bits.take w).length = w := by rw [List.length_take]; omega
    have hd : (bits.drop w).length = w * l.length := by rw [List.length_drop]; omega
    have hx : f x = bits.take w := by simpa [group] using h 0 (Nat.succ_pos _)
    have hs : ∀ i (hi : i < l.length), f l[i] = group w i (bits.drop w) := by
      intro i hi
      rw [← group_succ (b := bits.drop w) ht, List.take_append_drop]
      exact h (i + 1) (Nat.succ_lt_succ hi)
    rw [List.flatMap_cons, flatMap_groups hd hs, hx, List.take_append_drop]

/-- The groups of the front part of a text. -/
theorem group_append {w i : Nat} {a b : List Char} (h : w * i + w ≤ a.length) :
    group w i (a ++ b) = group w i a := by
  rw [group, group, List.drop_append_of_le_length (by omega), List.take_append_of_le_length]
  rw [List.length_drop]
  omega

end Bits
