import Mathlib

/-!
# Base64

RFC 4648 with padding, as lists of characters. The decoder takes both alphabets and a percent-encoded padding character,
and rejects set bits before the padding.

- `Base64.decode_encode`: `decode (encode bytes) = some bytes`.
- `Base64.length_encode`: four digits for three bytes.
-/

namespace Base64

/-- The digit of a six-bit value. -/
def digit (n : Nat) : Char :=
  if n < 26 then Char.ofNat (65 + n)
  else if n < 52 then Char.ofNat (97 + (n - 26))
  else if n < 62 then Char.ofNat (48 + (n - 52))
  else if n = 62 then '+' else '/'

/-- The value of a digit of either alphabet. -/
def sextet (c : Char) : Option Nat :=
  if 'A' ≤ c ∧ c ≤ 'Z' then some (c.toNat - 65)
  else if 'a' ≤ c ∧ c ≤ 'z' then some (c.toNat - 97 + 26)
  else if '0' ≤ c ∧ c ≤ '9' then some (c.toNat - 48 + 52)
  else if c = '+' ∨ c = '-' then some 62
  else if c = '/' ∨ c = '_' then some 63
  else none

/-- The text of a byte string. -/
def encode : List UInt8 → List Char
  | [] => []
  | [a] => [digit (a.toNat / 4), digit (a.toNat % 4 * 16), '=', '=']
  | [a, b] => [digit (a.toNat / 4), digit (a.toNat % 4 * 16 + b.toNat / 16), digit (b.toNat % 16 * 4), '=']
  | a :: b :: c :: r =>
    digit (a.toNat / 4) :: digit (a.toNat % 4 * 16 + b.toNat / 16) :: digit (b.toNat % 16 * 4 + c.toNat / 64) ::
      digit (c.toNat % 64) :: encode r

/-- One padding character at the front. -/
def pad : List Char → Option (List Char)
  | '=' :: r => some r
  | '%' :: '3' :: 'D' :: r => some r
  | '%' :: '3' :: 'd' :: r => some r
  | _ => none

/-- The byte string of a text. -/
def decode : List Char → Option (List UInt8)
  | [] => some []
  | [_] => none
  | a :: b :: r => do
    let x ← sextet a
    let y ← sextet b
    match pad r with
    | some r => if pad r = some [] ∧ y % 16 = 0 then some [UInt8.ofNat (x * 4 + y / 16)] else none
    | none =>
      match r with
      | [] => none
      | c :: r => do
        let z ← sextet c
        match pad r with
        | some r =>
          if r = [] ∧ z % 4 = 0 then some [UInt8.ofNat (x * 4 + y / 16), UInt8.ofNat (y % 16 * 16 + z / 4)] else none
        | none =>
          match r with
          | [] => none
          | d :: r => do
            let w ← sextet d
            let bytes ← decode r
            return UInt8.ofNat (x * 4 + y / 16) :: UInt8.ofNat (y % 16 * 16 + z / 4) ::
              UInt8.ofNat (z % 4 * 64 + w) :: bytes

theorem sextet_digit : ∀ n, n < 64 → sextet (digit n) = some n := by decide

theorem digit_ne : ∀ n, n < 64 → digit n ≠ '=' ∧ digit n ≠ '%' := by decide

theorem pad_digit {n : Nat} (h : n < 64) (r : List Char) : pad (digit n :: r) = none := by
  obtain ⟨h1, h2⟩ := digit_ne n h
  unfold pad
  split
  · rename_i heq; exact absurd (List.cons.inj heq).1 h1
  · rename_i heq; exact absurd (List.cons.inj heq).1 h2
  · rename_i heq; exact absurd (List.cons.inj heq).1 h2
  · rfl

theorem pad_cons (r : List Char) : pad ('=' :: r) = some r := rfl

theorem ofNat_toNat_eq {n : Nat} {a : UInt8} (h : n = a.toNat) : UInt8.ofNat n = a := by
  rw [h, UInt8.ofNat_toNat]

/-- Decoding inverts encoding. -/
theorem decode_encode : ∀ bytes : List UInt8, decode (encode bytes) = some bytes
  | [] => rfl
  | [a] => by
    have ha := a.toNat_lt
    have h1 := sextet_digit (a.toNat / 4) (by omega)
    have h2 := sextet_digit (a.toNat % 4 * 16) (by omega)
    have e1 : UInt8.ofNat (a.toNat / 4 * 4 + a.toNat % 4 * 16 / 16) = a := ofNat_toNat_eq (by omega)
    rw [encode, decode]
    simp only [h1, h2, Option.bind_eq_bind, Option.bind_some, pad_cons, e1]
    rw [if_pos ⟨trivial, by omega⟩]
  | [a, b] => by
    have ha := a.toNat_lt
    have hb := b.toNat_lt
    have h1 := sextet_digit (a.toNat / 4) (by omega)
    have h2 := sextet_digit (a.toNat % 4 * 16 + b.toNat / 16) (by omega)
    have h3 := sextet_digit (b.toNat % 16 * 4) (by omega)
    have p3 := pad_digit (n := b.toNat % 16 * 4) (by omega) ['=']
    have e1 : UInt8.ofNat (a.toNat / 4 * 4 + (a.toNat % 4 * 16 + b.toNat / 16) / 16) = a := ofNat_toNat_eq (by omega)
    have e2 : UInt8.ofNat ((a.toNat % 4 * 16 + b.toNat / 16) % 16 * 16 + b.toNat % 16 * 4 / 4) = b :=
      ofNat_toNat_eq (by omega)
    rw [encode, decode]
    simp only [h1, h2, h3, p3, Option.bind_eq_bind, Option.bind_some, pad_cons, e1, e2]
    rw [if_pos ⟨trivial, by omega⟩]
  | a :: b :: c :: r => by
    have ha := a.toNat_lt
    have hb := b.toNat_lt
    have hc := c.toNat_lt
    have h1 := sextet_digit (a.toNat / 4) (by omega)
    have h2 := sextet_digit (a.toNat % 4 * 16 + b.toNat / 16) (by omega)
    have h3 := sextet_digit (b.toNat % 16 * 4 + c.toNat / 64) (by omega)
    have h4 := sextet_digit (c.toNat % 64) (by omega)
    have p3 := pad_digit (n := b.toNat % 16 * 4 + c.toNat / 64) (by omega) (digit (c.toNat % 64) :: encode r)
    have p4 := pad_digit (n := c.toNat % 64) (by omega) (encode r)
    have e1 : UInt8.ofNat (a.toNat / 4 * 4 + (a.toNat % 4 * 16 + b.toNat / 16) / 16) = a := ofNat_toNat_eq (by omega)
    have e2 : UInt8.ofNat ((a.toNat % 4 * 16 + b.toNat / 16) % 16 * 16 + (b.toNat % 16 * 4 + c.toNat / 64) / 4) = b :=
      ofNat_toNat_eq (by omega)
    have e3 : UInt8.ofNat ((b.toNat % 16 * 4 + c.toNat / 64) % 4 * 64 + c.toNat % 64) = c := ofNat_toNat_eq (by omega)
    rw [encode, decode]
    simp only [h1, h2, h3, h4, p3, p4, Option.bind_eq_bind, Option.bind_some, decode_encode r, e1, e2, e3]
    rfl

/-- Four digits stand for three bytes or what is left of them. -/
theorem length_encode : ∀ bytes : List UInt8, (encode bytes).length = 4 * ((bytes.length + 2) / 3)
  | [] => rfl
  | [_] => by simp [encode]
  | [_, _] => by simp [encode]
  | _ :: _ :: _ :: r => by
    simp only [encode, List.length_cons, length_encode r]
    omega

/-- Bytes that are left of groups of three are padded. -/
theorem pad_mem_encode : ∀ {bytes : List UInt8}, bytes.length % 3 ≠ 0 → '=' ∈ encode bytes
  | [], h => absurd rfl h
  | [_], _ => by simp [encode]
  | [_, _], _ => by simp [encode]
  | _ :: _ :: _ :: r, h => by
    have hr : r.length % 3 ≠ 0 := by
      simp only [List.length_cons] at h
      omega
    simp only [encode, List.mem_cons]
    exact Or.inr (Or.inr (Or.inr (Or.inr (pad_mem_encode hr))))

/-- The text consists of digits and padding. -/
theorem mem_encode {c : Char} : ∀ {bytes : List UInt8}, c ∈ encode bytes → c = '=' ∨ ∃ n < 64, c = digit n
  | [a], h => by
    have ha := a.toNat_lt
    simp only [encode, List.mem_cons, List.not_mem_nil, or_false] at h
    rcases h with rfl | rfl | rfl | rfl
    · exact Or.inr ⟨_, by omega, rfl⟩
    · exact Or.inr ⟨_, by omega, rfl⟩
    · exact Or.inl rfl
    · exact Or.inl rfl
  | [a, b], h => by
    have ha := a.toNat_lt
    have hb := b.toNat_lt
    simp only [encode, List.mem_cons, List.not_mem_nil, or_false] at h
    rcases h with rfl | rfl | rfl | rfl
    · exact Or.inr ⟨_, by omega, rfl⟩
    · exact Or.inr ⟨_, by omega, rfl⟩
    · exact Or.inr ⟨_, by omega, rfl⟩
    · exact Or.inl rfl
  | a :: b :: d :: r, h => by
    have ha := a.toNat_lt
    have hb := b.toNat_lt
    have hd := d.toNat_lt
    simp only [encode, List.mem_cons] at h
    rcases h with rfl | rfl | rfl | rfl | h
    · exact Or.inr ⟨_, by omega, rfl⟩
    · exact Or.inr ⟨_, by omega, rfl⟩
    · exact Or.inr ⟨_, by omega, rfl⟩
    · exact Or.inr ⟨_, by omega, rfl⟩
    · exact mem_encode h

end Base64
