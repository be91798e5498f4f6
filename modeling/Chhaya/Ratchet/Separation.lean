import Chhaya.Crypto.Ideal
import Chhaya.Ratchet.Step

/-!
# Chains and keys are apart

Over collision-free primitives the key that seals a message determines its number and its chain, and the first key of a
chain determines how the chain came about.

- `chainKeys_inj`, `combined_inj`, `sealKeys_inj`: a message key determines the first key of its chain and the number.
- `kdfChain_dh_inj`: a chain made by a DH ratchet determines the two public keys behind it.
- `chainA_ne_kdfChain`: the chain of a new session is not one of a DH ratchet.
-/

namespace Chhaya

variable {β : Type} {P : Primitives β}

/-! ## Derived keys as HKDF blocks -/

theorem hkdf_eq_block (P : Primitives β) (ikm : List β) (salt : Option (List β)) (info : Option Bytes) :
    P.hkdf ikm salt info 32 = hkdfBlock P ikm salt info 32 0 := by
  rw [hkdfBlock, Nat.mul_zero, List.drop_zero, List.take_of_length_le (by simp)]

theorem kdfChain_eq_block (P : Primitives β) (root dhOut : List β) :
    kdfChain P root dhOut = hkdfBlock P root (some dhOut) none 64 1 := rfl

theorem kdfRoot_eq_block (P : Primitives β) (root dhOut : List β) :
    kdfRoot P root dhOut = hkdfBlock P root (some dhOut) none 64 0 := rfl

theorem chainA_eq_block (P : Primitives β) (sharedSecret dhOut : List β) :
    chainA P sharedSecret dhOut =
      hkdfBlock P sharedSecret (some dhOut) (some (utf8Encode "Chhaya-DR-init-v1")) 96 1 := rfl

/-! ## Message keys -/

section MessageKeys

variable (hc : CollisionFree P)

include hc

theorem nextChainKey_inj {ck ck' : List β} {n : Nat} (h : ck.length = 32) (h' : ck'.length = 32)
    (he : nextChainKey P ck n = nextChainKey P ck' n) : ck = ck' := (hc.hmac h h' he).1

theorem chainKeyAt_inj {s t : List β} (hs : s.length = 32) (ht : t.length = 32) :
    ∀ n, chainKeyAt P s n = chainKeyAt P t n → s = t
  | 0, h => h
  | n + 1, h => chainKeyAt_inj hs ht n
      (nextChainKey_inj hc (length_chainKeyAt P hs n) (length_chainKeyAt P ht n) h)

/-- The message key of the double ratchet determines the first key of its chain. -/
theorem chainKeys_inj {s t : List β} {n : Nat} (hs : s.length = 32) (ht : t.length = 32)
    (h : (chainKeys P s n).messageKey = (chainKeys P t n).messageKey) : s = t :=
  chainKeyAt_inj hc hs ht n (hc.hmac (length_chainKeyAt P hs n) (length_chainKeyAt P ht n) h).1

/-- The key that `_combine` makes determines the double-ratchet key, the number and the epoch. -/
theorem combined_inj {k k' q q' : List β} {n n' e e' : Nat} (hk : k.length = k'.length) (hn : n < 2 ^ 32)
    (hn' : n' < 2 ^ 32) (he : e < 2 ^ 32) (he' : e' < 2 ^ 32)
    (h : (combined P k q n e).messageKey = (combined P k' q' n' e').messageKey) : k = k' ∧ n = n' ∧ e = e' := by
  simp only [combined, hkdf_eq_block] at h
  obtain ⟨h1, -, h3, -⟩ := hc.hkdf (by decide) (by decide) h
  obtain ⟨h4, h5⟩ := List.append_inj (List.append_cancel_left h3) rfl
  exact ⟨(List.append_inj h1 hk).1, u32be_injective hn hn' h4, u32be_injective he he' h5⟩

/-- The key a message is sealed with determines the first key of its chain and its number. -/
theorem sealKeys_inj {seed seed' s t : List β} {n m : Nat} (hs : s.length = 32) (ht : t.length = 32)
    (hn : n ≤ 0xFFFFFFFF) (hm : m ≤ 0xFFFFFFFF)
    (h : (sealKeys P seed s n).messageKey = (sealKeys P seed' t m).messageKey) : s = t ∧ n = m := by
  obtain ⟨h1, rfl, -⟩ := combined_inj hc
    (by rw [(chainKeys P s n).messageKey_length, (chainKeys P t m).messageKey_length]) (by omega) (by omega)
    (by omega) (by omega) h
  exact ⟨chainKeys_inj hc hs ht h1, rfl⟩

end MessageKeys

/-! ## First keys -/

section Starts

variable (hc : CollisionFree P)

include hc

theorem kdfChain_inj {r r' d d' : List β} (hd : d.length = d'.length) (h : kdfChain P r d = kdfChain P r' d') :
    r = r' ∧ d = d' := by
  rw [kdfChain_eq_block, kdfChain_eq_block] at h
  obtain ⟨h1, h2, -, -⟩ := hc.hkdf (by decide) (by decide) h
  exact ⟨h1, padSalt_inj hd h2⟩

/-- A chain of a DH ratchet determines the two public keys behind it. -/
theorem kdfChain_dh_inj {r r' f f' : List β} {R R' : Bytes}
    (h : kdfChain P r (P.x25519 f R) = kdfChain P r' (P.x25519 f' R')) :
    P.x25519Public f = P.x25519Public f' ∧ R = R' ∨ R = P.x25519Public f' ∧ R' = P.x25519Public f :=
  hc.dh (kdfChain_inj hc (by simp) h).2

/-- The first chain of a session is not one of a DH ratchet: the labels differ. -/
theorem chainA_ne_kdfChain {secret dhOut r d : List β} : chainA P secret dhOut ≠ kdfChain P r d := by
  intro h
  rw [chainA_eq_block, kdfChain_eq_block] at h
  have h3 := (hc.hkdf (by decide) (by decide) h).2.2.1
  exact absurd h3 (by decide)

theorem chainA_inj {secret secret' d d' : List β} (h : chainA P secret d = chainA P secret' d') :
    secret = secret' := by
  rw [chainA_eq_block, chainA_eq_block] at h
  exact (hc.hkdf (by decide) (by decide) h).1

end Starts

end Chhaya
