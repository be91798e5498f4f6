import Chhaya.Crypto.Primitives

/-!
# Ideal primitives

`CollisionFree` is what the symbolic view of cryptography grants: HMAC under keys of one length and the 32-byte blocks
of HKDF determine what they were computed from, and a DH output determines the unordered pair of public keys behind it.
HKDF takes an absent salt for zeros and pads a short one with zeros (RFC 5869 over HMAC), so it determines the padded
salt only, and it does not tell an absent info from an empty one.

`OneWay` is what the same view grants against an attacker. `symbolic` is an instance over symbolic bytes that has these
properties, against the attacker who knows everything made of octets from 128 on.
-/

namespace Chhaya

variable {β : Type}

/-- The HMAC key that HKDF makes of its salt. -/
def padSalt (P : Primitives β) (salt : Option (List β)) : List β :=
  salt.getD [] ++ zeros P (64 - (salt.getD []).length)

/-- Block `i` of a derived key. -/
def hkdfBlock (P : Primitives β) (ikm : List β) (salt : Option (List β)) (info : Option Bytes) (n i : Nat) : List β :=
  ((P.hkdf ikm salt info n).drop (32 * i)).take 32

/-- Outputs determine inputs. -/
structure CollisionFree (P : Primitives β) : Prop where
  hmac : ∀ {k k' m m' : List β}, k.length = 32 → k'.length = 32 → P.hmac k m = P.hmac k' m' → k = k' ∧ m = m'
  hkdf : ∀ {ikm ikm' salt salt' info info' n n' i i'}, 32 * (i + 1) ≤ n → 32 * (i' + 1) ≤ n' →
    hkdfBlock P ikm salt info n i = hkdfBlock P ikm' salt' info' n' i' →
    ikm = ikm' ∧ padSalt P salt = padSalt P salt' ∧ info.getD [] = info'.getD [] ∧ i = i'
  dh : ∀ {a a' A A'}, P.x25519 a A = P.x25519 a' A' →
    P.x25519Public a = P.x25519Public a' ∧ A = A' ∨ A = P.x25519Public a' ∧ A' = P.x25519Public a

/-- Salts of one length are determined by their padding. -/
theorem padSalt_inj {P : Primitives β} {s s' : List β} (hl : s.length = s'.length)
    (h : padSalt P (some s) = padSalt P (some s')) : s = s' :=
  (List.append_inj h hl).1

/-- What an attacker may know: whoever knows an output of a one-way function knows the secret it was computed from, a DH
output is known only with one of the two private keys, and a key that is known is known from its first byte on. -/
structure OneWay (P : Primitives β) (known : Set (List β)) : Prop where
  hmac : ∀ {k m}, P.hmac k m ∈ known → k ∈ known
  hkdf : ∀ {ikm salt info n i}, 32 * (i + 1) ≤ n → hkdfBlock P ikm salt info n i ∈ known → ikm ∈ known
  dh : ∀ {a A}, P.x25519 a A ∈ known → ∃ k ∈ known, P.x25519Public k = P.x25519Public a ∨ P.x25519Public k = A
  append : ∀ {a b}, a ++ b ∈ known → a ∈ known

/-! ## Symbolic bytes -/

/-- A byte of key material, by how it came about. -/
inductive SymByte
  | octet (b : UInt8)
  | mac (key message : List SymByte) (i : Nat)
  | kdf (ikm salt : List SymByte) (info : Bytes) (i : Nat)
  | dh (pair : Sym2 Bytes) (i : Nat)

namespace SymByte

/-- Only octets are written to the wire as they are; what is computed becomes an octet from 128 on. -/
def toOctet : SymByte → UInt8
  | octet b => b
  | mac _ _ i | kdf _ _ _ i | dh _ i => UInt8.ofNat (128 + i % 128)

def isZero : SymByte → Bool
  | octet b => b == 0
  | _ => false

/-- The public key of a private key: its octets. -/
def publicOf (a : List SymByte) : Bytes := (a.map toOctet ++ List.replicate 32 0).take 32

/-- The salt as the HMAC key of HKDF. -/
def padded (salt : Option (List SymByte)) : List SymByte :=
  salt.getD [] ++ List.replicate (64 - (salt.getD []).length) (octet 0)

end SymByte

open SymByte in
/-- Primitives over symbolic bytes. -/
def symbolic : Primitives SymByte where
  ofByte := octet
  toByte := toOctet
  toByte_ofByte _ := rfl
  isZero := SymByte.isZero
  hmac key message := (List.range 32).map (mac key message)
  hkdf ikm salt info n := (List.range n).map (kdf ikm (padded salt) (info.getD []))
  x25519 a A := (List.range 32).map (SymByte.dh s(publicOf a, A))
  x25519Public := publicOf
  gcmSeal _ _ _ plaintext := plaintext ++ List.replicate 16 0
  gcmOpen _ _ _ sealed := if 16 ≤ sealed.length then some (sealed.take (sealed.length - 16)) else none
  length_hmac := by simp
  length_hkdf := by simp
  length_x25519 := by simp
  length_x25519Public := by simp [publicOf]
  x25519_comm a b := by rw [Sym2.eq_swap]
  gcmOpen_gcmSeal := by simp
  length_gcmSeal := by simp

/-- A block of a symbolic key is made of its bytes. -/
theorem symbolic_hkdfBlock (ikm : List SymByte) (salt : Option (List SymByte)) (info : Option Bytes) {n i : Nat}
    (h : 32 * (i + 1) ≤ n) : (hkdfBlock symbolic ikm salt info n i)[0]? =
      some (.kdf ikm (SymByte.padded salt) (info.getD []) (32 * i)) := by
  have h0 : 32 * i < n := by omega
  simp only [hkdfBlock, symbolic, List.getElem?_take, List.getElem?_drop, List.getElem?_map]
  rw [if_pos (by decide), Nat.add_zero, List.getElem?_range h0]
  rfl

theorem symbolic_collisionFree : CollisionFree symbolic where
  hmac := fun {k k' m m'} _ _ h => by
    have h0 := congrArg (·[0]?) h
    simp [symbolic] at h0
    exact h0
  hkdf := fun {ikm ikm' salt salt' info info' n n' i i'} hi hi' h => by
    have h0 := congrArg (·[0]?) h
    simp only [symbolic_hkdfBlock _ _ _ hi, symbolic_hkdfBlock _ _ _ hi', Option.some.injEq, SymByte.kdf.injEq] at h0
    obtain ⟨h1, h2, h3, h4⟩ := h0
    exact ⟨h1, h2, h3, by omega⟩
  dh := fun {a a' A A'} h => by
    have h0 := congrArg (·[0]?) h
    simp only [symbolic, List.getElem?_map, List.getElem?_range (show 0 < 32 by decide), Option.map_some,
      Option.some.injEq, SymByte.dh.injEq, and_true, Sym2.eq_iff] at h0
    rcases h0 with h0 | ⟨h1, h2⟩
    · exact Or.inl h0
    · exact Or.inr ⟨h2, h1.symm⟩

/-- A byte the attacker can compute when it has all octets from 128 on. -/
def SymByte.Derivable : SymByte → Prop
  | .octet b => 128 ≤ b
  | .mac key _ _ => ∀ x ∈ key, x.Derivable
  | .kdf ikm _ _ _ => ∀ x ∈ ikm, x.Derivable
  | .dh pair _ => ∃ A ∈ pair, A.length = 32 ∧ ∀ b ∈ A, 128 ≤ b

/-- The attacker that has all octets from 128 on. -/
def derivable : Set (List SymByte) := {k | ∀ x ∈ k, x.Derivable}

/-- The public key of a string of octets is the string. -/
theorem publicOf_octets {A : Bytes} (h : A.length = 32) : SymByte.publicOf (A.map .octet) = A := by
  have hm : A.map (SymByte.toOctet ∘ SymByte.octet) = A := (List.map_congr_left fun _ _ => rfl).trans (List.map_id A)
  rw [SymByte.publicOf, List.map_map, hm, List.take_left' h]

theorem symbolic_oneWay : OneWay symbolic derivable where
  hmac := fun {k m} h => by
    have h0 := h (.mac k m 0) (by simp [symbolic])
    rw [SymByte.Derivable] at h0
    exact h0
  hkdf := fun {ikm salt info n i} hi h => by
    have h0 := h _ (List.mem_of_getElem? (symbolic_hkdfBlock ikm salt info hi))
    rw [SymByte.Derivable] at h0
    exact h0
  dh := fun {a A} h => by
    have h0 := h (.dh s(SymByte.publicOf a, A) 0) (by simp [symbolic])
    rw [SymByte.Derivable] at h0
    obtain ⟨B, hB, hl, hb⟩ := h0
    refine ⟨B.map .octet, fun x hx => ?_, ?_⟩
    · obtain ⟨b, hb', rfl⟩ := List.mem_map.mp hx
      rw [SymByte.Derivable]
      exact hb b hb'
    · rw [show symbolic.x25519Public (B.map .octet) = B from publicOf_octets hl]
      exact Sym2.mem_iff.mp hB
  append := fun h x hx => h x (List.mem_append_left _ hx)

theorem SymByte.Derivable.le_toOctet {x : SymByte} (h : x.Derivable) : 128 ≤ x.toOctet := by
  cases x with
  | octet b => simpa only [Derivable, toOctet] using h
  | mac key message i =>
    rw [toOctet, UInt8.le_iff_toNat_le, UInt8.toNat_ofNat']
    show 128 ≤ _
    omega
  | kdf ikm salt info i =>
    rw [toOctet, UInt8.le_iff_toNat_le, UInt8.toNat_ofNat']
    show 128 ≤ _
    omega
  | dh pair i =>
    rw [toOctet, UInt8.le_iff_toNat_le, UInt8.toNat_ofNat']
    show 128 ≤ _
    omega

/-- The private key that repeats one octet. -/
def octetSeed (b : UInt8) : X25519Seed SymByte := ⟨List.replicate 32 (.octet b), List.length_replicate⟩

/-- The attacker has no private key whose public key repeats an octet below 128. -/
theorem publicOf_derivable {k : List SymByte} (h : k ∈ derivable) {b : UInt8} (h0 : b ≠ 0) (hb : b < 128) :
    SymByte.publicOf k ≠ SymByte.publicOf (octetSeed b).1 := by
  intro he
  have hs : SymByte.publicOf (octetSeed b).1 = List.replicate 32 b := by
    show SymByte.publicOf (List.replicate 32 (.octet b)) = _
    rw [← List.map_replicate]
    exact publicOf_octets (by simp)
  rw [hs] at he
  have he := congrArg (·[0]?) he
  cases k with
  | nil =>
    simp [SymByte.publicOf] at he
    exact h0 he.symm
  | cons x k =>
    simp [SymByte.publicOf] at he
    have hx := (h x List.mem_cons_self).le_toOctet
    rw [he] at hx
    exact absurd hb (UInt8.not_lt.mpr hx)

/-- Primitives that answer zeros. -/
def zeroPrimitives : Primitives UInt8 where
  ofByte b := b
  toByte b := b
  toByte_ofByte _ := rfl
  isZero b := b == 0
  hmac _ _ := List.replicate 32 0
  hkdf _ _ _ n := List.replicate n 0
  x25519 _ _ := List.replicate 32 0
  x25519Public _ := List.replicate 32 0
  gcmSeal _ _ _ plaintext := plaintext ++ List.replicate 16 0
  gcmOpen _ _ _ sealed := some (sealed.take (sealed.length - 16))
  length_hmac _ _ := List.length_replicate
  length_hkdf _ _ _ _ := List.length_replicate
  length_x25519 _ _ := List.length_replicate
  length_x25519Public _ := List.length_replicate
  x25519_comm _ _ := rfl
  gcmOpen_gcmSeal := by simp
  length_gcmSeal := by simp

end Chhaya
