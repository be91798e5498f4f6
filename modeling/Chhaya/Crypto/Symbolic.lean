import Chhaya.Crypto.Ideal

/-!
# Symbolic deduction

`Free` is what the symbolic view grants of every single byte: it is an octet, an output byte of one call of HMAC, HKDF or
X25519, or drawn, and it tells which. `Deducible` is what an attacker computes from given bytes, knowing every octet, and
with them all texts, counters, headers and public keys.

- `Deducible.hmac_inv`, `Deducible.hkdf_inv`: a computed byte is given, or its key is deducible.
- `symbolic_free`: the symbolic bytes have this property.
-/

namespace Chhaya

variable {β : Type}

/-- A byte tells how it was computed. -/
structure Free (P : Primitives β) : Prop where
  ofByte : Function.Injective P.ofByte
  hmac : ∀ {k k' m m' b}, b ∈ P.hmac k m → b ∈ P.hmac k' m' → k = k' ∧ m = m'
  hkdf : ∀ {ikm ikm' salt salt' info info' n n' b}, b ∈ P.hkdf ikm salt info n → b ∈ P.hkdf ikm' salt' info' n' →
    ikm = ikm' ∧ padSalt P salt = padSalt P salt' ∧ info.getD [] = info'.getD []
  block : ∀ {ikm ikm' salt salt' info info' n n' i i' b}, b ∈ hkdfBlock P ikm salt info n i →
    b ∈ hkdfBlock P ikm' salt' info' n' i' → i = i'
  hmac_octet : ∀ {k m c}, P.ofByte c ∉ P.hmac k m
  hkdf_octet : ∀ {ikm salt info n c}, P.ofByte c ∉ P.hkdf ikm salt info n
  hmac_hkdf : ∀ {k m ikm salt info n b}, b ∈ P.hmac k m → b ∉ P.hkdf ikm salt info n
  hmac_dh : ∀ {k m a A b}, b ∈ P.hmac k m → b ∉ P.x25519 a A
  hkdf_dh : ∀ {ikm salt info n a A b}, b ∈ P.hkdf ikm salt info n → b ∉ P.x25519 a A

/-- A byte that is no output of a one-way function. -/
structure Drawn (P : Primitives β) (b : β) : Prop where
  hmac : ∀ {k m}, b ∉ P.hmac k m
  hkdf : ∀ {ikm salt info n}, b ∉ P.hkdf ikm salt info n

/-- A drawn byte that is neither an octet nor an output of X25519 either. -/
structure Atom (P : Primitives β) (b : β) : Prop extends Drawn P b where
  octet : ∀ {c}, P.ofByte c ≠ b
  dh : ∀ {a A}, b ∉ P.x25519 a A

/-- What the attacker computes from `given`. -/
inductive Deducible (P : Primitives β) (given : Set β) : β → Prop
  | given {b : β} (h : b ∈ given) : Deducible P given b
  | octet (c : UInt8) : Deducible P given (P.ofByte c)
  | hmac {k m : List β} {b : β} (hk : ∀ x ∈ k, Deducible P given x) (hm : ∀ x ∈ m, Deducible P given x)
      (h : b ∈ P.hmac k m) : Deducible P given b
  | hkdf {ikm : List β} {salt : Option (List β)} {info : Option Bytes} {n : Nat} {b : β}
      (hi : ∀ x ∈ ikm, Deducible P given x) (hs : ∀ x ∈ salt.getD [], Deducible P given x)
      (h : b ∈ P.hkdf ikm salt info n) : Deducible P given b
  | dh {a : List β} {A : Bytes} {b : β} (ha : ∀ x ∈ a, Deducible P given x) (h : b ∈ P.x25519 a A) :
      Deducible P given b

section Deducible

variable {P : Primitives β} {given : Set β} {b : β}

theorem mem_of_mem_hkdfBlock {ikm : List β} {salt : Option (List β)} {info : Option Bytes} {n i : Nat}
    (h : b ∈ hkdfBlock P ikm salt info n i) : b ∈ P.hkdf ikm salt info n :=
  List.mem_of_mem_drop (List.mem_of_mem_take h)

/-- A computed byte is given, or the key it was computed with is deducible. -/
theorem Deducible.hmac_inv (hP : Free P) {k m : List β} (hb : b ∈ P.hmac k m) (h : Deducible P given b) :
    b ∈ given ∨ ∀ x ∈ k, Deducible P given x := by
  cases h with
  | given h => exact Or.inl h
  | octet c => exact absurd hb hP.hmac_octet
  | hmac hk hm h =>
    obtain ⟨rfl, -⟩ := hP.hmac hb h
    exact Or.inr hk
  | hkdf hi hs h => exact absurd h (hP.hmac_hkdf hb)
  | dh ha h => exact absurd h (hP.hmac_dh hb)

/-- The same for derived keys. -/
theorem Deducible.hkdf_inv (hP : Free P) {ikm : List β} {salt : Option (List β)} {info : Option Bytes} {n : Nat}
    (hb : b ∈ P.hkdf ikm salt info n) (h : Deducible P given b) :
    b ∈ given ∨ ∀ x ∈ ikm, Deducible P given x := by
  cases h with
  | given h => exact Or.inl h
  | octet c => exact absurd hb hP.hkdf_octet
  | hmac hk hm h => exact absurd hb (hP.hmac_hkdf h)
  | hkdf hi hs h =>
    obtain ⟨rfl, -, -⟩ := hP.hkdf hb h
    exact Or.inr hi
  | dh ha h => exact absurd h (hP.hkdf_dh hb)

/-- A secret byte is deducible only if it is given. -/
theorem Deducible.atom_inv (ha : Atom P b) (h : Deducible P given b) : b ∈ given := by
  cases h with
  | given h => exact h
  | octet c => exact absurd rfl ha.octet
  | hmac hk hm h => exact absurd h ha.hmac
  | hkdf hi hs h => exact absurd h ha.hkdf
  | dh hp h => exact absurd h ha.dh

end Deducible

/-! ## Symbolic bytes -/

theorem mem_symbolic_hmac {k m : List SymByte} {b : SymByte} (h : b ∈ symbolic.hmac k m) : ∃ i < 32, b = .mac k m i := by
  obtain ⟨i, hi, rfl⟩ := List.mem_map.mp h
  exact ⟨i, List.mem_range.mp hi, rfl⟩

theorem mem_symbolic_hkdf {ikm : List SymByte} {salt : Option (List SymByte)} {info : Option Bytes} {n : Nat}
    {b : SymByte} (h : b ∈ symbolic.hkdf ikm salt info n) :
    ∃ i < n, b = .kdf ikm (padSalt symbolic salt) (info.getD []) i := by
  obtain ⟨i, hi, rfl⟩ := List.mem_map.mp h
  exact ⟨i, List.mem_range.mp hi, rfl⟩

theorem mem_symbolic_block {ikm : List SymByte} {salt : Option (List SymByte)} {info : Option Bytes} {n i : Nat}
    {b : SymByte} (h : b ∈ hkdfBlock symbolic ikm salt info n i) :
    ∃ j, j / 32 = i ∧ b = .kdf ikm (padSalt symbolic salt) (info.getD []) j := by
  obtain ⟨j, hj, rfl⟩ := List.mem_iff_getElem.mp h
  have hlt : j < 32 := lt_of_lt_of_le hj (by rw [hkdfBlock, List.length_take]; exact Nat.min_le_left _ _)
  refine ⟨32 * i + j, by omega, ?_⟩
  simp only [hkdfBlock, symbolic, List.getElem_take, List.getElem_drop, List.getElem_map, List.getElem_range]
  rfl

theorem mem_symbolic_x25519 {a : List SymByte} {A : Bytes} {b : SymByte} (h : b ∈ symbolic.x25519 a A) :
    ∃ i < 32, b = .dh s(SymByte.publicOf a, A) i := by
  obtain ⟨i, hi, rfl⟩ := List.mem_map.mp h
  exact ⟨i, List.mem_range.mp hi, rfl⟩

theorem symbolic_free : Free symbolic where
  ofByte := fun _ _ h => SymByte.octet.inj h
  hmac := fun {k k' m m' b} h h' => by
    obtain ⟨i, -, rfl⟩ := mem_symbolic_hmac h
    obtain ⟨j, -, he⟩ := mem_symbolic_hmac h'
    exact ⟨(SymByte.mac.inj he).1, (SymByte.mac.inj he).2.1⟩
  hkdf := fun {ikm ikm' salt salt' info info' n n' b} h h' => by
    obtain ⟨i, -, rfl⟩ := mem_symbolic_hkdf h
    obtain ⟨j, -, he⟩ := mem_symbolic_hkdf h'
    obtain ⟨h1, h2, h3, -⟩ := SymByte.kdf.inj he
    exact ⟨h1, h2, h3⟩
  block := fun {ikm ikm' salt salt' info info' n n' i i' b} h h' => by
    obtain ⟨j, rfl, rfl⟩ := mem_symbolic_block h
    obtain ⟨j', rfl, he⟩ := mem_symbolic_block h'
    rw [(SymByte.kdf.inj he).2.2.2]
  hmac_octet := fun {k m c} h => by
    obtain ⟨i, -, he⟩ := mem_symbolic_hmac h
    cases he
  hkdf_octet := fun {ikm salt info n c} h => by
    obtain ⟨i, -, he⟩ := mem_symbolic_hkdf h
    cases he
  hmac_hkdf := fun {k m ikm salt info n b} h h' => by
    obtain ⟨i, -, rfl⟩ := mem_symbolic_hmac h
    obtain ⟨j, -, he⟩ := mem_symbolic_hkdf h'
    cases he
  hmac_dh := fun {k m a A b} h h' => by
    obtain ⟨i, -, rfl⟩ := mem_symbolic_hmac h
    obtain ⟨j, -, he⟩ := mem_symbolic_x25519 h'
    cases he
  hkdf_dh := fun {ikm salt info n a A b} h h' => by
    obtain ⟨i, -, rfl⟩ := mem_symbolic_hkdf h
    obtain ⟨j, -, he⟩ := mem_symbolic_x25519 h'
    cases he

/-- The octets of a key pair are drawn. -/
theorem symbolic_drawn (c : UInt8) : Drawn symbolic (.octet c) where
  hmac := fun {_ _} h => symbolic_free.hmac_octet (c := c) h
  hkdf := fun {_ _ _ _} h => symbolic_free.hkdf_octet (c := c) h

/-- A byte that no primitive returns: its index is beyond every output. -/
def secretByte : SymByte := .mac [] [] 32

theorem secretByte_atom : Atom symbolic secretByte where
  hmac := fun {k m} h => by
    obtain ⟨i, hi, he⟩ := mem_symbolic_hmac h
    rw [← (SymByte.mac.inj he).2.2] at hi
    exact absurd hi (lt_irrefl 32)
  hkdf := fun {ikm salt info n} h => by
    obtain ⟨i, -, he⟩ := mem_symbolic_hkdf h
    cases he
  octet := fun {c} h => by cases h
  dh := fun {a A} h => by
    obtain ⟨i, -, he⟩ := mem_symbolic_x25519 h
    cases he

end Chhaya
