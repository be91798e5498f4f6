import Chhaya.Crypto.Ideal

/-!
# HKDF-Expand and RFC 5869

`Hkdf.expand` beside §2.3 of RFC 5869, which its comment names.

- `Hkdf.t` is `T(i)` of the RFC, with the counter as one octet, and `Hkdf.ts` is `T(1) || … || T(n)`;
- one turn of the loop goes from `T(i)` to `T(i + 1)` (`expandLoop_turn`), so that the loop ends with whole blocks of
  the RFC and enough of them (`expandLoop_ts`);
- an output is a prefix of the blocks (`expandInt_ts`) and of every longer output (`expandInt_prefix`);
- the code does what the RFC says up to 255 blocks, and gives an output also where the RFC has none (`expand_rfc`).
-/

namespace Chhaya

variable {β : Type}

namespace Hkdf

/-- `Hkdf.expand` at every `int`. -/
def expandInt (P : Primitives β) (prk : List β) (info : Bytes) (outputLength : Int) : Except DartError (List β) :=
  if outputLength ≤ 0 then .error (.argument (toString outputLength) "outputLength" "Must be positive")
  else expand P prk info outputLength.toNat

/-! ## The blocks of the RFC -/

/-- `T(i)`: empty at `0`, then `HMAC-Hash(PRK, T(i-1) | info | i)` with one octet for `i`. -/
def t (P : Primitives β) (prk : List β) (info : Bytes) : Nat → List β
  | 0 => []
  | i + 1 => P.hmac prk (t P prk info i ++ info.map P.ofByte ++ [P.ofByte (UInt8.ofNat (i + 1))])

/-- `T(1) | T(2) | … | T(n)`. -/
def ts (P : Primitives β) (prk : List β) (info : Bytes) (n : Nat) : List β :=
  (List.range n).flatMap fun i => t P prk info (i + 1)

/-- The most that the RFC gives: 255 blocks of 32 octets. -/
def maxLength : Nat := 255 * 32

/-- The outcome that the RFC asks of one call. -/
structure Conforms (P : Primitives β) (prk : List β) (info : Bytes) (outputLength : Int)
    (outcome : Except DartError (List β)) : Prop where
  output : 1 ≤ outputLength → outputLength ≤ maxLength → outcome = .ok ((ts P prk info 255).take outputLength.toNat)
  throws : outputLength < 1 ∨ maxLength < outputLength → ∃ e, outcome = .error e

section Blocks

variable (P : Primitives β) (prk : List β) (info : Bytes)

@[simp] theorem length_t_succ (i : Nat) : (t P prk info (i + 1)).length = 32 := P.length_hmac _ _

/-- The block of which `MessageKeys.derive` takes its keys is `T(1)`. -/
theorem t_one : t P prk info 1 = block P prk info := rfl

theorem ts_succ (n : Nat) : ts P prk info (n + 1) = ts P prk info n ++ t P prk info (n + 1) := by
  simp [ts, List.range_succ]

@[simp] theorem length_ts (n : Nat) : (ts P prk info n).length = 32 * n := by
  induction n with
  | zero => rfl
  | succ n ih =>
    rw [ts_succ, List.length_append, ih, length_t_succ]
    omega

/-- More blocks only add at the end. -/
theorem ts_prefix {m n : Nat} (h : m ≤ n) : ts P prk info m <+: ts P prk info n := by
  induction h with
  | refl => exact List.prefix_rfl
  | step _ ih =>
    rw [ts_succ]
    exact ih.trans (List.prefix_append _ _)

/-- The first octets are the same in every long enough row of blocks. -/
theorem take_ts {k m n : Nat} (hm : k ≤ 32 * m) (hn : k ≤ 32 * n) :
    (ts P prk info m).take k = (ts P prk info n).take k := by
  rcases Nat.le_total m n with h | h
  · obtain ⟨rest, hr⟩ := ts_prefix P prk info h
    rw [← hr, List.take_append_of_le_length (by simpa using hm)]
  · obtain ⟨rest, hr⟩ := ts_prefix P prk info h
    rw [← hr, List.take_append_of_le_length (by simpa using hn)]

/-! ## The loop -/

/-- A turn with the counter at `i + 1` goes from `T(i)` to `T(i + 1)`. -/
theorem expandLoop_turn {n fuel i : Nat} (h : 32 * i < n) :
    expandLoop P prk info n (fuel + 1) (i + 1) (t P prk info i) (ts P prk info i) =
      expandLoop P prk info n fuel (i + 2) (t P prk info (i + 1)) (ts P prk info (i + 1)) := by
  rw [expandLoop, if_pos (by rw [length_ts]; exact h), ts_succ]
  rfl

/-- The loop ends with whole blocks, and enough of them. -/
theorem expandLoop_ts (n : Nat) : ∀ fuel i, n ≤ 32 * i + 32 * fuel → ∃ m, n ≤ 32 * m ∧
    expandLoop P prk info n fuel (i + 1) (t P prk info i) (ts P prk info i) = ts P prk info m
  | 0, i, h => ⟨i, by omega, rfl⟩
  | fuel + 1, i, h => by
    by_cases hi : 32 * i < n
    · obtain ⟨m, hm, he⟩ := expandLoop_ts n fuel (i + 1) (by omega)
      exact ⟨m, hm, (expandLoop_turn P prk info hi).trans he⟩
    · have hl : n ≤ (ts P prk info i).length := by
        rw [length_ts]
        omega
      exact ⟨i, by omega, expandLoop_done P prk info hl _ _ _⟩

/-- A positive number of octets is taken from the front of the blocks, whatever the number. -/
theorem expandInt_ts {n m : Nat} (h0 : 0 < n) (hm : n ≤ 32 * m) :
    expandInt P prk info n = .ok ((ts P prk info m).take n) := by
  obtain ⟨k, hk, he⟩ := expandLoop_ts P prk info n n 0 (by omega)
  have hl : expandLoop P prk info n n 1 [] [] = ts P prk info k := he
  rw [expandInt, if_neg (by omega), Int.toNat_natCast, expand, if_neg (by omega), hl, take_ts P prk info hk hm]

/-- A shorter output is a prefix of a longer one. -/
theorem expandInt_prefix {m n : Int} {short long : List β} (h : m ≤ n) (hs : expandInt P prk info m = .ok short)
    (hl : expandInt P prk info n = .ok long) : short <+: long := by
  have h0 : 0 < m := by
    by_contra h0
    rw [expandInt, if_pos (by omega)] at hs
    cases hs
  obtain ⟨m, rfl⟩ := Int.eq_ofNat_of_zero_le h0.le
  obtain ⟨n, rfl⟩ := Int.eq_ofNat_of_zero_le (h0.le.trans h)
  rw [expandInt_ts P prk info (m := n) (by omega) (by omega)] at hs
  rw [expandInt_ts P prk info (m := n) (by omega) (by omega)] at hl
  cases hs
  cases hl
  exact List.take_prefix_take_left (by omega)

end Blocks

/-! ## The RFC -/

/-- `Hkdf.expand` is HKDF-Expand exactly for the lengths up to 255 blocks. Beyond them the RFC has no output, and the
code goes on with the counter octets `0`, `1`, … again. -/
theorem expand_rfc (P : Primitives β) (prk : List β) (info : Bytes) (outputLength : Int) :
    Conforms P prk info outputLength (expandInt P prk info outputLength) ↔ outputLength ≤ maxLength := by
  constructor
  · intro h
    by_contra hlt
    obtain ⟨e, he⟩ := h.throws (.inr (not_le.mp hlt))
    obtain ⟨n, rfl⟩ := Int.eq_ofNat_of_zero_le (show 0 ≤ outputLength by simp only [maxLength] at hlt; omega)
    rw [expandInt_ts P prk info (m := n) (by simp only [maxLength] at hlt; omega) (by omega)] at he
    cases he
  · intro h
    refine ⟨fun h0 _ => ?_, fun ht => ?_⟩
    · obtain ⟨n, rfl⟩ := Int.eq_ofNat_of_zero_le (show 0 ≤ outputLength by omega)
      rw [Int.toNat_natCast]
      exact expandInt_ts P prk info (by omega) (by simp only [maxLength] at h; omega)
    · rcases ht with ht | ht
      · exact ⟨_, if_pos (by omega)⟩
      · exact absurd h (not_le.mpr ht)

/-- One octet more than 255 blocks is returned, not refused. -/
theorem expand_wraps : ¬ Conforms zeroPrimitives [] [] 8161 (expandInt zeroPrimitives [] [] 8161) := by
  intro h
  obtain ⟨e, he⟩ := h.throws (.inr (by decide))
  have hok := expandInt_ts zeroPrimitives [] [] (n := 8161) (m := 256) (by decide) (by decide)
  exact absurd (he.symm.trans hok) (by simp)

end Hkdf

end Chhaya
