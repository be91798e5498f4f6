import Chhaya.Crypto.Combiners

/-!
# Establishing a hybrid secret

`Pqxdh.establish` and `DualKem.establish`, over any KEM whose encapsulation draws from a type `ρ`. Both drop the KEM's
ciphertext.

- `Pqxdh.establish_hybrid`, `Pqxdh.establish_classical`: what the two modes return.
- `peer_derives_iff`: the peer can derive the secret exactly if there is only one that the KEM can give for its key.
- `peer_cannot_derive`: a KEM that opens what it encapsulates, and a secret that its owner cannot derive.
-/

namespace Chhaya

variable {β ρ : Type}

/-! ## The source -/

/-- A `PqKem`. Its encapsulation draws from `ρ`. -/
structure PqKem (β ρ : Type) where
  name : String
  isAvailable : Bool
  encapsulate : Bytes → ρ → Except DartError (Bytes × List β)
  decapsulate : List β → Bytes → Except DartError (List β)

/-- The private key opens everything that is encapsulated to the public key. -/
def PqKem.Opens (kem : PqKem β ρ) (privateKey : List β) (publicKey : Bytes) : Prop :=
  ∀ r ciphertext sharedSecret, kem.encapsulate publicKey r = .ok (ciphertext, sharedSecret) →
    kem.decapsulate privateKey ciphertext = .ok sharedSecret

/-- `Pqxdh.establish`: the secret and our public key. -/
def Pqxdh.establish (P : Primitives β) (remotePublicKey : Bytes) (pqKem : Option (PqKem β ρ)) (pqPublicKey : Option Bytes)
    (context : List β) (allowClassicalFallback userConsented : Bool) (seed : X25519Seed β) (r : ρ) :
    Except DartError (HybridSecret β × Bytes) := do
  let ours := X25519Kex.generateKeyPair P seed
  let classical ← X25519Kex.sharedSecret P ours.2 remotePublicKey
  match pqKem.filter PqKem.isAvailable, pqPublicKey with
  | some kem, some publicKey => do
    let enc ← kem.encapsulate publicKey r
    let secret ← HybridKex.combine P classical enc.2 context
    return (secret, ours.1)
  | _, _ =>
    if !allowClassicalFallback || !userConsented then
      .error (.state ("No approved PQ KEM available and classical fallback was " ++
        "not consented. Refusing to establish."))
    else do
      let secret ← HybridKex.classicalFallback P classical context true
      return (secret, ours.1)

/-- A `PqcUnavailableException`. -/
def pqcUnavailable (algorithm : String) : DartError :=
  .state ("PqcUnavailableException: " ++ algorithm ++ " has no approved provider. " ++
    "Ship requires a vetted dependency or an audited implementation.")

/-- `DualKem.establish`. -/
def DualKem.establish (P : Primitives β) (primary secondary : PqKem β ρ) (primaryPublicKey secondaryPublicKey : Bytes)
    (context : List β) (r r' : ρ) : Except DartError (List β) :=
  if !primary.isAvailable then .error (pqcUnavailable primary.name)
  else if !secondary.isAvailable then .error (pqcUnavailable secondary.name)
  else do
    let a ← primary.encapsulate primaryPublicKey r
    let b ← secondary.encapsulate secondaryPublicKey r'
    DualKem.combine P a.2 b.2 context

/-! ## What the peer can derive -/

/-- With its private keys and the context, the peer has one secret for whatever `Pqxdh.establish` returns besides it. -/
def Pqxdh.PeerDerives (P : Primitives β) (pqKem : Option (PqKem β ρ)) (pqPublicKey : Option Bytes) (peer : X25519Seed β)
    (context : List β) : Prop :=
  ∃ derive : Bytes → Bool → Bool → Bool → List β, ∀ allowClassicalFallback userConsented seed r s ourPublicKey,
    establish P (P.x25519Public peer.1) pqKem pqPublicKey context allowClassicalFallback userConsented seed r =
      .ok (s, ourPublicKey) → derive ourPublicKey s.pqUsed s.classicalUsed s.consentedFallback = s.secret

/-- `DualKem.establish` makes nothing available besides the secret. -/
def DualKem.PeerDerives (P : Primitives β) (primary secondary : PqKem β ρ) (primaryPublicKey secondaryPublicKey : Bytes)
    (context : List β) : Prop :=
  ∃ derive : List β, ∀ r r' secret,
    establish P primary secondary primaryPublicKey secondaryPublicKey context r r' = .ok secret → derive = secret

/-- The secrets of at least 32 bytes that can be encapsulated to the key. -/
def PqKem.Gives (kem : PqKem β ρ) (publicKey : Bytes) (sharedSecret : List β) : Prop :=
  32 ≤ sharedSecret.length ∧ ∃ r ciphertext, kem.encapsulate publicKey r = .ok (ciphertext, sharedSecret)

/-- Only one secret can be encapsulated to the key. -/
def PqKem.OneSecret (kem : PqKem β ρ) (publicKey : Bytes) : Prop :=
  ∀ a b, kem.Gives publicKey a → kem.Gives publicKey b → a = b

section

variable {P : Primitives β} {kem : PqKem β ρ} {publicKey : Bytes} {pqKem : Option (PqKem β ρ)} {pqPublicKey : Option Bytes}
  {peer : X25519Seed β} {context : List β} {allowClassicalFallback userConsented : Bool} {seed : X25519Seed β} {r : ρ}
  {s : HybridSecret β} {ourPublicKey : Bytes}

theorem HybridKex.combine_eq_ok_iff {classical pq : List β} : HybridKex.combine P classical pq context = .ok s ↔
    32 ≤ classical.length ∧ 32 ≤ pq.length ∧
      s = ⟨P.hkdf (classical ++ pq) (some context) (some (utf8Encode "Chhaya-hybrid-v1")) 32, true, true, false⟩ := by
  unfold HybridKex.combine
  split
  · exact iff_of_false (by rintro ⟨⟩) (by omega)
  · split
    · exact iff_of_false (by rintro ⟨⟩) (by omega)
    · refine ⟨fun h => ⟨by omega, by omega, (Except.ok.inj h).symm⟩, ?_⟩
      rintro ⟨-, -, rfl⟩
      rfl

theorem DualKem.combine_eq_ok_iff {a b secret : List β} : DualKem.combine P a b context = .ok secret ↔
    32 ≤ a.length ∧ 32 ≤ b.length ∧
      secret = P.hkdf (a ++ b) (some context) (some (utf8Encode "Chhaya-dualkem-v1")) 32 := by
  unfold DualKem.combine
  split
  · exact iff_of_false (by rintro ⟨⟩) (by omega)
  · split
    · exact iff_of_false (by rintro ⟨⟩) (by omega)
    · refine ⟨fun h => ⟨by omega, by omega, (Except.ok.inj h).symm⟩, ?_⟩
      rintro ⟨-, -, rfl⟩
      rfl

/-- `Pqxdh.establish` from the classical secret on, which the peer has too. -/
theorem Pqxdh.establish_eq (ha : kem.isAvailable = true) :
    establish P (P.x25519Public peer.1) (some kem) (some publicKey) context allowClassicalFallback userConsented seed r =
      kem.encapsulate publicKey r >>= fun enc =>
        HybridKex.combine P (P.x25519 peer.1 (P.x25519Public seed.1)) enc.2 context >>= fun secret =>
          .ok (secret, P.x25519Public seed.1) := by
  have hs : X25519Kex.sharedSecret P seed.1 (P.x25519Public peer.1) = .ok (P.x25519 peer.1 (P.x25519Public seed.1)) := by
    rw [X25519Kex.sharedSecret_ok P seed.2 (P.length_x25519Public _), P.x25519_comm]
  have hf : (some kem).filter PqKem.isAvailable = some kem := by rw [Option.filter, ha]; rfl
  simp only [establish, X25519Kex.generateKeyPair, hs, hf]
  rfl

/-- The hybrid mode. -/
theorem Pqxdh.establish_hybrid (ha : kem.isAvailable = true) :
    establish P (P.x25519Public peer.1) (some kem) (some publicKey) context allowClassicalFallback userConsented seed r =
        .ok (s, ourPublicKey) ↔
      ∃ ciphertext sharedSecret, kem.encapsulate publicKey r = .ok (ciphertext, sharedSecret) ∧
        32 ≤ sharedSecret.length ∧ ourPublicKey = P.x25519Public seed.1 ∧
        s = ⟨P.hkdf (P.x25519 peer.1 ourPublicKey ++ sharedSecret) (some context) (some (utf8Encode "Chhaya-hybrid-v1")) 32,
          true, true, false⟩ := by
  rw [establish_eq ha]
  constructor
  · intro h
    obtain ⟨⟨ct, ss⟩, he, h⟩ := except_bind_ok h
    obtain ⟨s', hc, h⟩ := except_bind_ok h
    cases h
    obtain ⟨-, hl, hs⟩ := HybridKex.combine_eq_ok_iff.mp hc
    exact ⟨ct, ss, he, hl, rfl, hs⟩
  · rintro ⟨ct, ss, he, hl, rfl, hs⟩
    have hc : 32 ≤ (P.x25519 peer.1 (P.x25519Public seed.1)).length := (P.length_x25519 _ _).ge
    rw [he]
    show (HybridKex.combine P _ ss context >>= _) = _
    rw [HybridKex.combine_eq_ok_iff.mpr ⟨hc, hl, hs⟩]
    rfl

/-- The classical mode. -/
theorem Pqxdh.establish_classical (h : ∀ kem, pqKem = some kem → kem.isAvailable = true → pqPublicKey = none)
    (he : establish P (P.x25519Public peer.1) pqKem pqPublicKey context allowClassicalFallback userConsented seed r =
      .ok (s, ourPublicKey)) :
    s.secret = P.hkdf (P.x25519 peer.1 ourPublicKey) (some context) (some (utf8Encode "Chhaya-classical-fallback-v1")) 32 := by
  have hs : X25519Kex.sharedSecret P seed.1 (P.x25519Public peer.1) = .ok (P.x25519 peer.1 (P.x25519Public seed.1)) := by
    rw [X25519Kex.sharedSecret_ok P seed.2 (P.length_x25519Public _), P.x25519_comm]
  unfold establish at he
  obtain ⟨classical, hc, he⟩ := except_bind_ok he
  obtain rfl : P.x25519 peer.1 (P.x25519Public seed.1) = classical := Except.ok.inj (hs.symm.trans hc)
  split at he
  · rename_i kem publicKey hk _
    obtain ⟨hk, ha⟩ := Option.filter_eq_some_iff.mp hk
    cases h kem hk ha
  · split at he
    · cases he
    · obtain ⟨s', hf, he⟩ := except_bind_ok he
      cases he
      exact HybridKex.classicalFallback_secret hf

/-- What `DualKem.establish` returns. -/
theorem DualKem.establish_eq_ok_iff {primary secondary : PqKem β ρ} {primaryPublicKey secondaryPublicKey : Bytes} {r' : ρ}
    {secret : List β} :
    establish P primary secondary primaryPublicKey secondaryPublicKey context r r' = .ok secret ↔
      primary.isAvailable = true ∧ secondary.isAvailable = true ∧ ∃ c a c' b,
        primary.encapsulate primaryPublicKey r = .ok (c, a) ∧ secondary.encapsulate secondaryPublicKey r' = .ok (c', b) ∧
        32 ≤ a.length ∧ 32 ≤ b.length ∧
        secret = P.hkdf (a ++ b) (some context) (some (utf8Encode "Chhaya-dualkem-v1")) 32 := by
  unfold establish
  split
  · rename_i h
    exact iff_of_false (by rintro ⟨⟩) fun hc => by simp [hc.1] at h
  · split
    · rename_i h
      exact iff_of_false (by rintro ⟨⟩) fun hc => by simp [hc.2.1] at h
    · rename_i h h'
      constructor
      · intro hr
        obtain ⟨⟨c, a⟩, ha, hr⟩ := except_bind_ok hr
        obtain ⟨⟨c', b⟩, hb, hr⟩ := except_bind_ok hr
        exact ⟨by simpa using h, by simpa using h', c, a, c', b, ha, hb, combine_eq_ok_iff.mp hr⟩
      · rintro ⟨-, -, c, a, c', b, ha, hb, hr⟩
        rw [ha, hb]
        exact combine_eq_ok_iff.mpr hr

end

/-! ## Exactly when the peer can derive it -/

section

variable {P : Primitives β} {R : Rfc5869 P} {pqKem : Option (PqKem β ρ)} {pqPublicKey : Option Bytes} {kem : PqKem β ρ}
  {publicKey : Bytes} {peer : X25519Seed β} {context : List β}

/-- Two secrets for one key give two established secrets with the same public key of ours. -/
theorem Pqxdh.PeerDerives.oneSecret (hR : R.CollisionFree) (ha : kem.isAvailable = true)
    (h : Pqxdh.PeerDerives P (some kem) (some publicKey) peer context) : kem.OneSecret publicKey := by
  obtain ⟨derive, hd⟩ := h
  rintro a b ⟨hla, r, c, hra⟩ ⟨hlb, r', c', hrb⟩
  have seed : X25519Seed β := ⟨zeros P 32, List.length_replicate⟩
  have h1 := hd false false seed r _ _ (establish_hybrid ha |>.mpr ⟨c, a, hra, hla, rfl, rfl⟩)
  have h2 := hd false false seed r' _ _ (establish_hybrid ha |>.mpr ⟨c', b, hrb, hlb, rfl, rfl⟩)
  have he := (R.hkdf_eq_iff hR).mp (h1.symm.trans h2)
  exact List.append_cancel_left he.1

/-- The only secret that the KEM can give is joined with the classical one. -/
theorem Pqxdh.peerDerives_hybrid (ha : kem.isAvailable = true) (h : kem.OneSecret publicKey) :
    Pqxdh.PeerDerives P (some kem) (some publicKey) peer context := by
  by_cases hg : ∃ a, kem.Gives publicKey a
  · obtain ⟨a, hga⟩ := hg
    refine ⟨fun ourPublicKey _ _ _ =>
      P.hkdf (P.x25519 peer.1 ourPublicKey ++ a) (some context) (some (utf8Encode "Chhaya-hybrid-v1")) 32, ?_⟩
    intro allow consented seed r s ourPublicKey he
    obtain ⟨c, ss, hr, hl, rfl, rfl⟩ := (establish_hybrid ha).mp he
    rw [h a ss hga ⟨hl, r, c, hr⟩]
  · refine ⟨fun _ _ _ _ => [], fun allow consented seed r s ourPublicKey he => ?_⟩
    obtain ⟨c, ss, hr, hl, -, -⟩ := (establish_hybrid ha).mp he
    exact absurd ⟨ss, hl, r, c, hr⟩ hg

/-- The classical secret is derived from our public key. -/
theorem Pqxdh.peerDerives_classical (h : ∀ kem, pqKem = some kem → kem.isAvailable = true → pqPublicKey = none) :
    Pqxdh.PeerDerives P pqKem pqPublicKey peer context :=
  ⟨fun ourPublicKey _ _ _ =>
    P.hkdf (P.x25519 peer.1 ourPublicKey) (some context) (some (utf8Encode "Chhaya-classical-fallback-v1")) 32,
    fun _ _ _ _ _ _ he => (establish_classical h he).symm⟩

variable {primary secondary : PqKem β ρ} {primaryPublicKey secondaryPublicKey : Bytes}

/-- Two KEMs can give only one joined secret. -/
def DualKem.OneSecret (primary secondary : PqKem β ρ) (primaryPublicKey secondaryPublicKey : Bytes) : Prop :=
  ∀ a b a' b', primary.Gives primaryPublicKey a → secondary.Gives secondaryPublicKey b →
    primary.Gives primaryPublicKey a' → secondary.Gives secondaryPublicKey b' → a ++ b = a' ++ b'

theorem DualKem.PeerDerives.oneSecret (hR : R.CollisionFree) (hp : primary.isAvailable = true)
    (hs : secondary.isAvailable = true)
    (h : DualKem.PeerDerives P primary secondary primaryPublicKey secondaryPublicKey context) :
    DualKem.OneSecret primary secondary primaryPublicKey secondaryPublicKey := by
  obtain ⟨derive, hd⟩ := h
  rintro a b a' b' ⟨hla, r, c, ha⟩ ⟨hlb, r', c', hb⟩ ⟨hla', q, d, ha'⟩ ⟨hlb', q', d', hb'⟩
  have h1 := hd r r' _ (establish_eq_ok_iff.mpr ⟨hp, hs, c, a, c', b, ha, hb, hla, hlb, rfl⟩)
  have h2 := hd q q' _ (establish_eq_ok_iff.mpr ⟨hp, hs, d, a', d', b', ha', hb', hla', hlb', rfl⟩)
  exact ((R.hkdf_eq_iff hR).mp (h1.symm.trans h2)).1

theorem DualKem.peerDerives_of_oneSecret
    (h : DualKem.OneSecret primary secondary primaryPublicKey secondaryPublicKey) :
    DualKem.PeerDerives P primary secondary primaryPublicKey secondaryPublicKey context := by
  by_cases hg : ∃ a b, primary.Gives primaryPublicKey a ∧ secondary.Gives secondaryPublicKey b
  · obtain ⟨a, b, hga, hgb⟩ := hg
    refine ⟨P.hkdf (a ++ b) (some context) (some (utf8Encode "Chhaya-dualkem-v1")) 32, fun r r' secret he => ?_⟩
    obtain ⟨-, -, c, a', c', b', ha, hb, hla, hlb, rfl⟩ := establish_eq_ok_iff.mp he
    rw [h a b a' b' hga hgb ⟨hla, r, c, ha⟩ ⟨hlb, r', c', hb⟩]
  · refine ⟨[], fun r r' secret he => ?_⟩
    obtain ⟨-, -, c, a, c', b, ha, hb, hla, hlb, -⟩ := establish_eq_ok_iff.mp he
    exact absurd ⟨a, b, ⟨hla, r, c, ha⟩, hlb, r', c', hb⟩ hg

end

/-- The peer can derive the secret exactly if the KEM can give only one secret for its key, or is not used; and two KEMs
exactly if they can give only one joined secret. -/
theorem peer_derives_iff (P : Primitives β) (R : Rfc5869 P) (hR : R.CollisionFree) :
    (∀ (pqKem : Option (PqKem β ρ)) pqPublicKey peer context, Pqxdh.PeerDerives P pqKem pqPublicKey peer context ↔
      ∀ kem publicKey, pqKem = some kem → kem.isAvailable = true → pqPublicKey = some publicKey →
        kem.OneSecret publicKey) ∧
    ∀ (primary secondary : PqKem β ρ) primaryPublicKey secondaryPublicKey context,
      primary.isAvailable = true → secondary.isAvailable = true →
      (DualKem.PeerDerives P primary secondary primaryPublicKey secondaryPublicKey context ↔
        DualKem.OneSecret primary secondary primaryPublicKey secondaryPublicKey) := by
  refine ⟨fun pqKem pqPublicKey peer context => ⟨?_, fun h => ?_⟩, ?_⟩
  · rintro h kem publicKey rfl ha rfl
    exact h.oneSecret hR ha
  · by_cases hu : ∃ kem publicKey, pqKem = some kem ∧ kem.isAvailable = true ∧ pqPublicKey = some publicKey
    · obtain ⟨kem, publicKey, rfl, ha, rfl⟩ := hu
      exact Pqxdh.peerDerives_hybrid ha (h kem publicKey rfl ha rfl)
    · refine Pqxdh.peerDerives_classical fun kem hk ha => ?_
      rw [Option.eq_none_iff_forall_ne_some]
      exact fun publicKey hp => hu ⟨kem, publicKey, hk, ha, hp⟩
  · exact fun primary secondary _ _ context hp hs => ⟨fun h => h.oneSecret hR hp hs, DualKem.peerDerives_of_oneSecret⟩

/-- A KEM that draws one of two secrets and sends which. -/
def coinKem : PqKem SymByte Bool where
  name := "ML-KEM-1024"
  isAvailable := true
  encapsulate _ r := .ok ([if r then 1 else 0], List.replicate 32 (.octet (if r then 1 else 0)))
  decapsulate _ ciphertext := .ok (List.replicate 32 (.octet (ciphertext.headD 0)))

/-- A KEM of one secret. -/
def constKem : PqKem SymByte Bool where
  name := "ML-KEM-1024"
  isAvailable := true
  encapsulate _ r := .ok ([if r then 1 else 0], someZeros 32)
  decapsulate _ _ := .ok (someZeros 32)

/-- Where every encapsulation gives the same secret, the peer derives what is established. -/
theorem peer_derives_const : Pqxdh.PeerDerives rfcSymbolic (some constKem) (some []) ⟨someZeros 32, rfl⟩ [] ∧
    DualKem.PeerDerives rfcSymbolic constKem constKem [] [] [] := by
  have hone : ∀ a, constKem.Gives [] a → a = someZeros 32 := by
    rintro a ⟨-, r, c, h⟩
    cases h
    rfl
  obtain ⟨h1, h2⟩ := peer_derives_iff (ρ := Bool) rfcSymbolic symbolicRfc5869 symbolicRfc5869_collisionFree
  refine ⟨(h1 _ _ _ _).mpr ?_, (h2 _ _ _ _ _ rfl rfl).mpr ?_⟩
  · rintro kem publicKey hk - hp a b ha hb
    cases hk
    cases hp
    rw [hone a ha, hone b hb]
  · intro a b a' b' ha hb ha' hb'
    rw [hone a ha, hone b hb, hone a' ha', hone b' hb']

/-- The KEM opens what it encapsulates, but only with the ciphertext, which is dropped. -/
theorem peer_cannot_derive :
    ¬ ∀ (kem : PqKem SymByte Bool) (privateKey : List SymByte) (publicKey : Bytes), kem.isAvailable = true →
      kem.Opens privateKey publicKey → ∀ peer context,
        Pqxdh.PeerDerives rfcSymbolic (some kem) (some publicKey) peer context ∧
        DualKem.PeerDerives rfcSymbolic kem kem publicKey publicKey context := by
  intro h
  have hopens : coinKem.Opens [] [] := by
    rintro r ciphertext sharedSecret h
    cases h
    rfl
  have hd := (h coinKem [] [] rfl hopens ⟨someZeros 32, rfl⟩ []).1
  have hone := hd.oneSecret symbolicRfc5869_collisionFree rfl _ _ ⟨le_rfl, true, _, rfl⟩ ⟨le_rfl, false, _, rfl⟩
  have h0 := List.head_eq_of_cons_eq (show SymByte.octet 1 :: List.replicate 31 (SymByte.octet 1) =
    SymByte.octet 0 :: List.replicate 31 (SymByte.octet 0) from hone)
  exact absurd (SymByte.octet.inj h0) (by decide)

end Chhaya
