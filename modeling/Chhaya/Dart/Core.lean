import Mathlib

/-!
# Dart values

The parts of Dart's core library that the client code uses: byte buffers, maps, what `throw` throws, and the hexadecimal
and big-endian encodings of `toRadixString(16).padLeft(2, '0')` and `ByteData.setUint32`.

- `hexOf_injective`: the hexadecimal text of a byte string determines it.
- `mapM_eq_ok_iff`, `forM_eq_ok_iff`: loops that return.
- `u32be_injective`: the four bytes of a number below `2 ^ 32` determine it.
- `intTryParse_toString`: the text of an integer of 64 bits is parsed back.
-/

namespace Chhaya

/-- A Dart `Uint8List`. -/
abbrev Bytes := List UInt8

/-- A Dart `Map<K, V>`: at most one value for a key. -/
abbrev DartMap (K V : Type) := AList (fun _ : K => V)

/-- A Dart `DateTime`. -/
structure DateTime where
  microsecondsSinceEpoch : Int
  isUtc : Bool := false
  deriving DecidableEq, Repr

/-- `millisecondsSinceEpoch`. -/
def DateTime.millisecondsSinceEpoch (t : DateTime) : Int := t.microsecondsSinceEpoch.tdiv 1000

/-- The objects the client code throws. -/
inductive DartError
  | argument (value : String) (name message : String)
  | state (message : String)
  | format (message : String)
  | type (message : String)
  | timeout
  | ratchet (message : String)
  | api (statusCode : Nat) (message : String)
  | storage (message : String)
  deriving DecidableEq, Repr

/-- A sequence that returns: its first part returned, and the rest from there. -/
theorem except_bind_ok {ε α γ : Type} {x : Except ε α} {f : α → Except ε γ} {c : γ} (h : x >>= f = .ok c) :
    ∃ a, x = .ok a ∧ f a = .ok c := by
  cases x with
  | error e => cases h
  | ok a => exact ⟨a, rfl, h⟩

/-- A loop that returns gives one result an element. -/
theorem mapM_eq_ok_iff {ε α γ : Type} {f : α → Except ε γ} : ∀ {l : List α} {r : List γ},
    l.mapM f = .ok r ↔ List.Forall₂ (fun x y => f x = .ok y) l r
  | [], r => by
    rw [List.mapM_nil, List.forall₂_nil_left_iff]
    exact ⟨fun h => (Except.ok.inj h).symm, fun h => congrArg Except.ok h.symm⟩
  | x :: l, r => by
    rw [List.mapM_cons, List.forall₂_cons_left_iff]
    constructor
    · intro h
      obtain ⟨y, hy, h⟩ := except_bind_ok h
      obtain ⟨ys, hys, h⟩ := except_bind_ok h
      exact ⟨y, ys, hy, mapM_eq_ok_iff.mp hys, (Except.ok.inj h).symm⟩
    · rintro ⟨y, ys, hy, hys, rfl⟩
      rw [hy, mapM_eq_ok_iff.mpr hys]
      rfl

/-- A loop over the indices of a list. -/
theorem mapM_range_eq_ok_iff {ε γ : Type} {f : Nat → Except ε γ} {n : Nat} {r : List γ} :
    (List.range n).mapM f = .ok r ↔ r.length = n ∧ ∀ i (h : i < r.length), f i = .ok r[i] := by
  rw [mapM_eq_ok_iff, List.forall₂_iff_get]
  constructor
  · rintro ⟨hl, h⟩
    rw [List.length_range] at hl
    exact ⟨hl.symm, fun i hi => by simpa using h i (by rw [List.length_range]; omega) hi⟩
  · rintro ⟨hl, h⟩
    exact ⟨by rw [List.length_range, hl], fun i _ hi => by simpa using h i hi⟩

theorem forM_eq_ok_iff {ε α : Type} {f : α → Except ε Unit} : ∀ {l : List α},
    l.forM f = .ok () ↔ ∀ x ∈ l, f x = .ok ()
  | [] => ⟨fun _ _ hx => (List.not_mem_nil hx).elim, fun _ => rfl⟩
  | x :: l => by
    rw [List.forall_mem_cons]
    show (f x >>= fun _ => l.forM f) = .ok () ↔ _
    constructor
    · intro h
      obtain ⟨_, hx, hl⟩ := except_bind_ok h
      exact ⟨hx, forM_eq_ok_iff.mp hl⟩
    · rintro ⟨hx, hl⟩
      rw [hx]
      exact (forM_eq_ok_iff (l := l)).mpr hl

/-- A loop over what was written of every element. -/
theorem mapM_map_ok {ε α γ δ : Type} {f : α → γ} {g : γ → Except ε δ} {h : α → δ} :
    ∀ {l : List α}, (∀ a ∈ l, g (f a) = .ok (h a)) → (l.map f).mapM g = .ok (l.map h)
  | [], _ => rfl
  | a :: l, hg => by
    rw [List.map_cons, List.mapM_cons, hg a List.mem_cons_self, mapM_map_ok fun b hb => hg b (List.mem_cons_of_mem _ hb)]
    rfl

/-! ## Text of bytes -/

/-- `b.toRadixString(16).padLeft(2, '0')`. -/
def hexByte (b : UInt8) : List Char := [Nat.digitChar (b.toNat / 16), Nat.digitChar (b.toNat % 16)]

/-- `Sha.hexOf`, `DoubleRatchet._hexOf`: two lowercase digits a byte. -/
def hexOf (bytes : Bytes) : String := String.ofList (bytes.flatMap hexByte)

theorem digitChar_inj : ∀ a < 16, ∀ b < 16, Nat.digitChar a = Nat.digitChar b → a = b := by decide

theorem hexByte_injective : Function.Injective hexByte := by
  intro a b h
  simp only [hexByte, List.cons.injEq, and_true] at h
  have ha := UInt8.toNat_lt a
  have hb := UInt8.toNat_lt b
  have h1 := digitChar_inj _ (by omega) _ (by omega) h.1
  have h2 := digitChar_inj _ (Nat.mod_lt _ (by decide)) _ (Nat.mod_lt _ (by decide)) h.2
  exact UInt8.toNat_inj.mp (by omega)

theorem colon_ne_digitChar : ∀ a < 16, Nat.digitChar a ≠ ':' := by decide

theorem colon_not_mem_hex (bytes : Bytes) : ':' ∉ bytes.flatMap hexByte := by
  intro h
  obtain ⟨b, _, hb⟩ := List.mem_flatMap.mp h
  have hlt := UInt8.toNat_lt b
  simp only [hexByte, List.mem_cons, List.not_mem_nil, or_false] at hb
  rcases hb with hb | hb
  · exact colon_ne_digitChar _ (by omega) hb.symm
  · exact colon_ne_digitChar _ (Nat.mod_lt _ (by decide)) hb.symm

theorem flatMap_hexByte_injective : Function.Injective (fun bytes : Bytes => bytes.flatMap hexByte)
  | [], [], _ => rfl
  | [], _ :: _, h | _ :: _, [], h => by simp [hexByte] at h
  | a :: as, b :: bs, h => by
    simp only [List.flatMap_cons] at h
    obtain ⟨h1, h2⟩ := List.append_inj h (by simp [hexByte])
    rw [hexByte_injective h1, flatMap_hexByte_injective h2]

theorem hexOf_injective : Function.Injective hexOf :=
  fun _ _ h => flatMap_hexByte_injective (String.ofList_injective h)

theorem length_hexOf (bytes : Bytes) : (hexOf bytes).length = 2 * bytes.length := by
  simp [hexOf, hexByte, List.length_flatMap, Nat.mul_comm]

/-- Decimal text determines the number. -/
theorem natRepr_injective : Function.Injective Nat.repr := by
  intro a b h
  have h' : Nat.toDigits 10 a = Nat.toDigits 10 b := by rw [← Nat.toList_repr, ← Nat.toList_repr, h]
  rw [← Nat.ofDigitChars_ten_toDigits (n := a), h', Nat.ofDigitChars_ten_toDigits]

/-- Two texts that agree up to their first separator agree after it. -/
theorem append_sep_inj {α : Type} {sep : α} : ∀ {a b c d : List α}, a ++ sep :: c = b ++ sep :: d → sep ∉ a →
    sep ∉ b → a = b ∧ c = d
  | [], [], _, _, h, _, _ => ⟨rfl, by simpa using h⟩
  | [], y :: b, _, _, h, _, hb => by
    simp only [List.nil_append, List.cons_append, List.cons.injEq] at h
    exact absurd (h.1 ▸ List.mem_cons_self) hb
  | x :: a, [], _, _, h, ha, _ => by
    simp only [List.nil_append, List.cons_append, List.cons.injEq] at h
    exact absurd (h.1 ▸ List.mem_cons_self) ha
  | x :: a, y :: b, _, _, h, ha, hb => by
    simp only [List.cons_append, List.cons.injEq] at h
    obtain ⟨h1, h2⟩ := append_sep_inj h.2 (fun hx => ha (List.mem_cons_of_mem _ hx))
      (fun hx => hb (List.mem_cons_of_mem _ hx))
    exact ⟨by rw [h.1, h1], h2⟩

/-! ## Big-endian words -/

/-- `ByteData.setUint32(0, n)`: four bytes, high byte first, `n` taken modulo `2 ^ 32`. -/
def u32be (n : Nat) : Bytes :=
  [UInt8.ofNat (n / 2 ^ 24), UInt8.ofNat (n / 2 ^ 16), UInt8.ofNat (n / 2 ^ 8), UInt8.ofNat n]

/-- `ByteData.getUint32` on four bytes. -/
def readU32be : Bytes → Nat
  | [a, b, c, d] => a.toNat * 2 ^ 24 + b.toNat * 2 ^ 16 + c.toNat * 2 ^ 8 + d.toNat
  | _ => 0

@[simp] theorem length_u32be (n : Nat) : (u32be n).length = 4 := rfl

theorem readU32be_u32be_mod (n : Nat) : readU32be (u32be n) = n % 2 ^ 32 := by
  simp only [u32be, readU32be, UInt8.toNat_ofNat']
  omega

theorem readU32be_u32be {n : Nat} (h : n < 2 ^ 32) : readU32be (u32be n) = n := by
  rw [readU32be_u32be_mod, Nat.mod_eq_of_lt h]

/-- The word that is read back is at most the number that was written. -/
theorem u32be_le {m n : Nat} (hm : m < 2 ^ 32) (h : u32be m = u32be n) : m ≤ n := by
  rw [← readU32be_u32be hm, h, readU32be_u32be_mod]
  exact Nat.mod_le _ _

theorem u32be_injective {m n : Nat} (hm : m < 2 ^ 32) (hn : n < 2 ^ 32) (h : u32be m = u32be n) : m = n := by
  rw [← readU32be_u32be hm, h, readU32be_u32be hn]

/-! ## Integers -/

/-- The result of an operation on integers, which have 64 bits. -/
def int64 (n : Int) : Int := Int.bmod n (2 ^ 64)

theorem le_int64 (n : Int) : -2 ^ 63 ≤ int64 n := Int.le_bmod (by decide)

theorem int64_lt (n : Int) : int64 n < 2 ^ 63 := Int.bmod_lt (by decide)

theorem int64_int64_add (a b : Int) : int64 (int64 a + b) = int64 (a + b) := Int.bmod_add_bmod

/-- The white space that `trim` and `int.tryParse` skip at both ends. -/
def isBlank (c : Char) : Bool :=
  let n := c.toNat
  (9 ≤ n && n ≤ 13) || n == 0x20 || n == 0x85 || n == 0xa0 || n == 0x1680 || (0x2000 ≤ n && n ≤ 0x200a) || n == 0x2028 ||
    n == 0x2029 || n == 0x202f || n == 0x205f || n == 0x3000 || n == 0xfeff

/-- A number with its sign. -/
def withSign (neg : Bool) (n : Nat) : Int := if neg then -(n : Int) else n

/-- The value of hexadecimal digits. -/
def ofHexDigits (ds : List Char) : Nat :=
  ds.foldl (fun n c => n * 16 + if c.isDigit then c.toNat - 48 else c.toLower.toNat - 87) 0

/-- The digits after the sign: decimal ones, or hexadecimal ones after `0x`. -/
def intTryParseDigits (neg : Bool) : List Char → Option Int
  | '0' :: 'x' :: h | '0' :: 'X' :: h =>
    if !h.isEmpty && h.all (fun c => c.isDigit || ('a' ≤ c.toLower && c.toLower ≤ 'f')) && ofHexDigits h < 2 ^ 64 then
      some (int64 (withSign neg (ofHexDigits h)))
    else none
  | ds =>
    let n := withSign neg (Nat.ofDigitChars 10 ds 0)
    if !ds.isEmpty && ds.all Char.isDigit && decide (-2 ^ 63 ≤ n ∧ n < 2 ^ 63) then some n else none

/-- `int.tryParse`. -/
def intTryParse (source : String) : Option Int :=
  match ((source.toList.dropWhile isBlank).reverse.dropWhile isBlank).reverse with
  | '-' :: ds => intTryParseDigits true ds
  | '+' :: ds => intTryParseDigits false ds
  | ds => intTryParseDigits false ds

theorem int64_of_fits {n : Int} (h1 : -2 ^ 63 ≤ n) (h2 : n < 2 ^ 63) : int64 n = n := by
  unfold int64
  rw [Int.bmod_eq_of_le] <;> omega

theorem isDigit_range {c : Char} (h : c.isDigit = true) : 48 ≤ c.toNat ∧ c.toNat ≤ 57 := by
  simp only [Char.isDigit, Bool.and_eq_true, decide_eq_true_eq] at h
  exact ⟨UInt32.le_iff_toNat_le.mp h.1, UInt32.le_iff_toNat_le.mp h.2⟩

theorem isBlank_of_range {c : Char} (h1 : 33 ≤ c.toNat) (h2 : c.toNat ≤ 57) : isBlank c = false := by
  simp only [isBlank, Bool.or_eq_false_iff, Bool.and_eq_false_iff, decide_eq_false_iff_not, beq_eq_false_iff_ne]
  omega

/-- Text without white space at its ends is not trimmed. -/
theorem trim_eq {cs : List Char} (h : ∀ c ∈ cs, isBlank c = false) :
    ((cs.dropWhile isBlank).reverse.dropWhile isBlank).reverse = cs := by
  have hd : ∀ {l : List Char}, (∀ c ∈ l, isBlank c = false) → l.dropWhile isBlank = l := by
    intro l hl
    cases l with
    | nil => rfl
    | cons c l => simp [hl c List.mem_cons_self]
  rw [hd h, hd fun c hc => h c (List.mem_reverse.mp hc), List.reverse_reverse]

/-- Decimal digits are parsed back. -/
theorem intTryParseDigits_toDigits (neg : Bool) (n : Nat) (h1 : -2 ^ 63 ≤ withSign neg n) (h2 : withSign neg n < 2 ^ 63) :
    intTryParseDigits neg (Nat.toDigits 10 n) = some (withSign neg n) := by
  have hne : Nat.toDigits 10 n ≠ [] := Nat.toDigits_ne_nil
  have hall : (Nat.toDigits 10 n).all Char.isDigit = true :=
    List.all_eq_true.mpr fun c hc => Nat.isDigit_of_mem_toDigits (by decide) (by decide) hc
  unfold intTryParseDigits
  split
  · rename_i r he
    rw [he] at hall
    simp at hall
  · rename_i r he
    rw [he] at hall
    simp at hall
  · rw [Nat.ofDigitChars_ten_toDigits, hall]
    simp only [List.isEmpty_eq_false_iff.mpr hne, h1, h2]
    rfl

/-- What is parsed has 64 bits. -/
theorem int64_intTryParse {source : String} {i : Int} (h : intTryParse source = some i) : int64 i = i := by
  have hd : ∀ {neg : Bool} {ds : List Char}, intTryParseDigits neg ds = some i → int64 i = i := by
    intro neg ds h
    unfold intTryParseDigits at h
    split at h
    · split at h
      · cases h
        exact int64_of_fits (le_int64 _) (int64_lt _)
      · cases h
    · split at h
      · cases h
        exact int64_of_fits (le_int64 _) (int64_lt _)
      · cases h
    · dsimp only at h
      split at h
      · rename_i hf
        cases h
        rw [Bool.and_eq_true, decide_eq_true_eq] at hf
        exact int64_of_fits hf.2.1 hf.2.2
      · cases h
  unfold intTryParse at h
  split at h <;> exact hd h

/-- The text of an integer of 64 bits is parsed back. -/
theorem intTryParse_toString {i : Int} (h1 : -2 ^ 63 ≤ i) (h2 : i < 2 ^ 63) : intTryParse (toString i) = some i := by
  have hd : ∀ n : Nat, ∀ c ∈ Nat.toDigits 10 n, 48 ≤ c.toNat ∧ c.toNat ≤ 57 := fun n c hc =>
    isDigit_range (Nat.isDigit_of_mem_toDigits (by decide) (by decide) hc)
  cases i with
  | ofNat n =>
    have ht : (toString (Int.ofNat n)).toList = Nat.toDigits 10 n := by
      show (Nat.repr n).toList = _
      simp [Nat.repr]
    unfold intTryParse
    rw [ht, trim_eq fun c hc => isBlank_of_range (by have := hd n c hc; omega) (hd n c hc).2]
    split
    · rename_i ds he
      exact absurd (hd n '-' (he ▸ List.mem_cons_self)) (by decide)
    · rename_i ds he
      exact absurd (hd n '+' (he ▸ List.mem_cons_self)) (by decide)
    · exact intTryParseDigits_toDigits false n h1 h2
  | negSucc n =>
    have ht : (toString (Int.negSucc n)).toList = '-' :: Nat.toDigits 10 (n + 1) := by
      show ("-" ++ Nat.repr (n + 1)).toList = _
      simp [Nat.repr]
    have hb : ∀ c ∈ '-' :: Nat.toDigits 10 (n + 1), isBlank c = false := by
      intro c hc
      rcases List.mem_cons.mp hc with rfl | hc
      · decide
      · exact isBlank_of_range (by have := hd _ c hc; omega) (hd _ c hc).2
    unfold intTryParse
    rw [ht, trim_eq hb]
    exact intTryParseDigits_toDigits true (n + 1) h1 h2

end Chhaya
