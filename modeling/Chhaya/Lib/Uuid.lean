import Chhaya.Dart.Core
import Chhaya.Lib.Json
import Chhaya.Lib.Zod

/-!
# UUIDs

A UUID is sixteen bytes. A database writes it as five groups of lower-case digits, and reads it with digits of either
case, with or without braces, and with a hyphen after any two bytes.

- `Uuid.read_text`: what is written is read back.
- `Uuid.text_injective`: the text determines the UUID.
- `Uuid.isUuid_text`: what is written is accepted as a UUID.
-/

namespace Chhaya

/-- Sixteen bytes. -/
structure Uuid where
  bytes : Bytes
  length : bytes.length = 16
  deriving DecidableEq

namespace Uuid

/-- The digits of the bytes from number `i` on, with a hyphen after the bytes 3, 5, 7 and 9. -/
def group : Nat → Bytes → List Char
  | _, [] => []
  | i, b :: l => hexByte b ++ ((if i ∈ [3, 5, 7, 9] then ['-'] else []) ++ group (i + 1) l)

/-- The text of a UUID. -/
def text (u : Uuid) : String := String.ofList (group 0 u.bytes)

/-- A hyphen may follow where an even number of bytes is left. -/
def skipHyphen (n : Nat) : List Char → List Char
  | '-' :: r => if n % 2 = 0 ∧ 0 < n then r else '-' :: r
  | r => r

/-- Reads so many bytes and nothing else. -/
def readBytes : Nat → List Char → Option Bytes
  | 0, [] => some []
  | n + 1, c :: c' :: r => do
    let hi ← Json.hexValue c
    let lo ← Json.hexValue c'
    some (UInt8.ofNat (hi * 16 + lo) :: (← readBytes n (skipHyphen n r)))
  | _, _ => none

/-- The text inside braces, or all of it. -/
def unbraced : List Char → List Char
  | '\x7b' :: r => if r.getLast? = some '\x7d' then r.dropLast else '\x7b' :: r
  | r => r

theorem length_readBytes : ∀ {n : Nat} {cs : List Char} {l : Bytes}, readBytes n cs = some l → l.length = n
  | 0, [], l, h => by cases h; rfl
  | 0, _ :: _, l, h => by cases h
  | n + 1, [], l, h => by cases h
  | n + 1, [_], l, h => by cases h
  | n + 1, c :: c' :: r, l, h => by
    simp only [readBytes, Option.bind_eq_bind, Option.bind_eq_some_iff, Option.some.injEq] at h
    obtain ⟨hi, -, lo, -, rest, hr, rfl⟩ := h
    rw [List.length_cons, length_readBytes hr]

/-- The UUID that a text stands for. -/
def read (s : String) : Option Uuid :=
  match h : readBytes 16 (unbraced s.toList) with
  | some l => some ⟨l, length_readBytes h⟩
  | none => none

/-! ## Writing and reading -/

theorem digitChar_ne : ∀ n < 16, Nat.digitChar n ≠ '-' ∧ Nat.digitChar n ≠ '\x7b' := by decide

theorem skipHyphen_digit (n : Nat) {m : Nat} (hm : m < 16) (r : List Char) :
    skipHyphen n (Nat.digitChar m :: r) = Nat.digitChar m :: r := by
  unfold skipHyphen
  split
  · rename_i h
    exact absurd (List.cons.inj h).1 (digitChar_ne m hm).1
  · rfl

theorem skipHyphen_group (n i : Nat) (l : Bytes) : skipHyphen n (group i l) = group i l := by
  cases l with
  | nil => rfl
  | cons b l => exact skipHyphen_digit n (by have := UInt8.toNat_lt b; omega) _

theorem readBytes_group : ∀ (l : Bytes) (i : Nat), i + l.length = 16 → readBytes l.length (group i l) = some l
  | [], _, _ => rfl
  | b :: l, i, h => by
    have hb := UInt8.toNat_lt b
    have hlen : i + 1 + l.length = 16 := by rw [List.length_cons] at h; omega
    have hskip : skipHyphen l.length ((if i ∈ [3, 5, 7, 9] then ['-'] else []) ++ group (i + 1) l) = group (i + 1) l := by
      by_cases hi : i ∈ [3, 5, 7, 9]
      · rw [if_pos hi]
        show (if l.length % 2 = 0 ∧ 0 < l.length then group (i + 1) l else _) = _
        refine if_pos ?_
        simp only [List.mem_cons, List.not_mem_nil, or_false] at hi
        omega
      · rw [if_neg hi]
        exact skipHyphen_group _ _ _
    have hval : UInt8.ofNat (b.toNat / 16 * 16 + b.toNat % 16) = b := by
      rw [Nat.div_add_mod' b.toNat 16, UInt8.ofNat_toNat]
    show readBytes (l.length + 1) (Nat.digitChar (b.toNat / 16) :: Nat.digitChar (b.toNat % 16) ::
      ((if i ∈ [3, 5, 7, 9] then ['-'] else []) ++ group (i + 1) l)) = _
    simp only [readBytes, Json.hexValue_digitChar _ (show b.toNat / 16 < 16 by omega),
      Json.hexValue_digitChar _ (show b.toNat % 16 < 16 by omega), hskip, readBytes_group l (i + 1) hlen, hval,
      Option.bind_eq_bind, Option.bind_some]

theorem unbraced_group (i : Nat) (l : Bytes) : unbraced (group i l) = group i l := by
  cases l with
  | nil => rfl
  | cons b l =>
    have hb := UInt8.toNat_lt b
    show unbraced (Nat.digitChar (b.toNat / 16) :: _) = _
    unfold unbraced
    split
    · rename_i h
      exact absurd (List.cons.inj h).1 (digitChar_ne _ (by omega)).2
    · rfl

/-- What is written is read back. -/
theorem read_text (u : Uuid) : read u.text = some u := by
  have h : readBytes 16 (unbraced u.text.toList) = some u.bytes := by
    have := readBytes_group u.bytes 0 (by rw [u.length])
    rw [text, String.toList_ofList, unbraced_group, ← u.length]
    exact this
  unfold read
  split
  · rename_i l hl
    obtain rfl : u.bytes = l := Option.some.inj (h.symm.trans hl)
    rfl
  · rename_i hl
    rw [h] at hl
    cases hl

theorem text_injective : Function.Injective text := fun u v h => by
  have := read_text u
  rw [h, read_text] at this
  exact (Option.some.inj this).symm

theorem isHexDigit_digitChar : ∀ n < 16, Zod.isHexDigit (Nat.digitChar n) = true := by decide

/-- What is written is accepted as a UUID. -/
theorem isUuid_text (u : Uuid) : Zod.isUuid u.text = true := by
  have hhi : ∀ b : UInt8, Zod.isHexDigit (Nat.digitChar (b.toNat / 16)) = true := fun b => by
    have := UInt8.toNat_lt b
    exact isHexDigit_digitChar _ (by omega)
  have hlo : ∀ b : UInt8, Zod.isHexDigit (Nat.digitChar (b.toNat % 16)) = true := fun b =>
    isHexDigit_digitChar _ (by omega)
  obtain ⟨bytes, hlen⟩ := u
  match bytes, hlen with
  | [b₀, b₁, b₂, b₃, b₄, b₅, b₆, b₇, b₈, b₉, c₀, c₁, c₂, c₃, c₄, c₅], _ =>
    unfold Zod.isUuid text
    simp only [String.toList_ofList, group, hexByte]
    simp [hhi, hlo, List.range_succ]

/-! ## Order -/

/-- Bytes compare from the first one on. -/
def le (u v : Uuid) : Bool := decide (u.bytes.map UInt8.toNat ≤ v.bytes.map UInt8.toNat)

end Uuid

end Chhaya
