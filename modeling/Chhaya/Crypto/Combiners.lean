import Chhaya.Codec.MessageCodec
import Chhaya.Crypto.Ideal

/-!
# Secret combiners

`HybridKex.combine`, `HybridKex.classicalFallback` and `DualKem.combine`, over HKDF as RFC 5869 builds it of HMAC, with
the HMAC key hashed when it is longer than a block and filled with zeros.

- `Rfc5869.blockKey_eq_iff`: which salts are one HMAC key.
- `Rfc5869.hkdf_eq_iff`: two derived secrets are equal if their inputs and block keys are.
- `combiners_injective_iff`: which accepted inputs the combiners tell apart, and that no fallback secret is a hybrid one.
-/

namespace Chhaya

variable {β : Type}

/-! ## The source -/

/-- `HybridSecret`. -/
structure HybridSecret (β : Type) where
  secret : List β
  pqUsed : Bool
  classicalUsed : Bool
  consentedFallback : Bool

/-- `HybridKex.combine`. -/
def HybridKex.combine (P : Primitives β) (classical pq context : List β) : Except DartError (HybridSecret β) := do
  if classical.length < 32 then
    .error (.argument (toString classical.length) "classical" "Classical output must be at least 32 bytes")
  else if pq.length < 32 then
    .error (.argument (toString pq.length) "pq" "PQ output must be at least 32 bytes")
  else
    let secret ← Hkdf.deriveKey P (classical ++ pq) 32 (some context) (some (utf8Encode "Chhaya-hybrid-v1"))
    return { secret, pqUsed := true, classicalUsed := true, consentedFallback := false }

/-- `HybridKex.classicalFallback`. -/
def HybridKex.classicalFallback (P : Primitives β) (classical context : List β) (userConsented : Bool) :
    Except DartError (HybridSecret β) := do
  if !userConsented then
    .error (.state ("Classical-only fallback requires explicit user consent. " ++ "No silent downgrade is permitted."))
  else
    let secret ← Hkdf.deriveKey P classical 32 (some context) (some (utf8Encode "Chhaya-classical-fallback-v1"))
    return { secret, pqUsed := false, classicalUsed := true, consentedFallback := true }

/-- `DualKem.combine`. -/
def DualKem.combine (P : Primitives β) (primary secondary context : List β) : Except DartError (List β) :=
  if primary.length < 32 then
    .error (.argument (toString primary.length) "primary" "KEM outputs must be at least 32 bytes")
  else if secondary.length < 32 then
    .error (.argument (toString secondary.length) "secondary" "KEM outputs must be at least 32 bytes")
  else Hkdf.deriveKey P (primary ++ secondary) 32 (some context) (some (utf8Encode "Chhaya-dualkem-v1"))

/-! ## HKDF of RFC 5869 -/

/-- HKDF: extract with the salt as the HMAC key, 32 zeros when it is absent, then expand. -/
def Hkdf.extractExpand (P : Primitives β) (ikm : List β) (salt : Option (List β)) (info : Option Bytes) (n : Nat) : List β :=
  (Hkdf.expandLoop P (P.hmac (salt.getD (zeros P 32)) ikm) (info.getD []) n n 1 [] []).take n

/-- The block that an HMAC key fills: hashed when it is too long, then filled with zeros. -/
def Hmac.blockKey (P : Primitives β) (hash : List β → List β) (key : List β) : List β :=
  if 64 < key.length then hash key ++ zeros P 32 else key ++ zeros P (64 - key.length)

/-- HMAC over a hash of 32 bytes with blocks of 64 bytes, and HKDF over this HMAC. -/
structure Rfc5869 (P : Primitives β) where
  hash : List β → List β
  length_hash : ∀ m, (hash m).length = 32
  /-- HMAC of a key that fills a block. -/
  mac : List β → List β → List β
  hmac_eq : ∀ key m, P.hmac key m = mac (Hmac.blockKey P hash key) m
  hkdf_eq : ∀ ikm salt info n, P.hkdf ikm salt info n = Hkdf.extractExpand P ikm salt info n

namespace Rfc5869

variable {P : Primitives β} (R : Rfc5869 P)

/-- The block that an HMAC key fills. -/
def blockKey (key : List β) : List β := Hmac.blockKey P R.hash key

/-- No two inputs of the hash collide, nor do two inputs of HMAC under block keys. -/
structure CollisionFree : Prop where
  hash : ∀ {m m'}, R.hash m = R.hash m' → m = m'
  mac : ∀ {k k' m m' : List β}, k.length = 64 → k'.length = 64 → R.mac k m = R.mac k' m' → k = k' ∧ m = m'

variable {R}

theorem length_blockKey (key : List β) : (R.blockKey key).length = 64 := by
  unfold blockKey Hmac.blockKey
  split
  · rw [List.length_append, R.length_hash, zeros, List.length_replicate]
  · rw [List.length_append, zeros, List.length_replicate]
    omega

/-- Keys of one length are one HMAC key only if they are equal. -/
theorem blockKey_inj (hR : R.CollisionFree) {key key' : List β} (hl : key.length = key'.length)
    (h : R.blockKey key = R.blockKey key') : key = key' := by
  unfold blockKey Hmac.blockKey at h
  rw [hl] at h
  split at h
  · exact hR.hash (List.append_inj_left h (by rw [R.length_hash, R.length_hash]))
  · exact List.append_inj_left h hl

/-- Two keys are one HMAC key if they are equal, if filling them with zeros makes them equal, or if one is the hash of
the other, filled with zeros. -/
theorem blockKey_eq_iff (hR : R.CollisionFree) {key key' : List β} :
    R.blockKey key = R.blockKey key' ↔ key = key' ∨
      (key.length ≤ 64 ∧ key'.length ≤ 64 ∧ key ++ zeros P (64 - key.length) = key' ++ zeros P (64 - key'.length)) ∨
      (64 < key.length ∧ key'.length ≤ 64 ∧ R.hash key ++ zeros P 32 = key' ++ zeros P (64 - key'.length)) ∨
      (key.length ≤ 64 ∧ 64 < key'.length ∧ key ++ zeros P (64 - key.length) = R.hash key' ++ zeros P 32) := by
  constructor
  · intro h
    unfold blockKey Hmac.blockKey at h
    split at h <;> split at h <;> rename_i h1 h2
    · exact Or.inl (hR.hash (List.append_inj_left h (by rw [R.length_hash, R.length_hash])))
    · exact Or.inr (Or.inr (Or.inl ⟨h1, Nat.le_of_not_lt h2, h⟩))
    · exact Or.inr (Or.inr (Or.inr ⟨Nat.le_of_not_lt h1, h2, h⟩))
    · exact Or.inr (Or.inl ⟨Nat.le_of_not_lt h1, Nat.le_of_not_lt h2, h⟩)
  · rintro (rfl | ⟨h1, h2, h⟩ | ⟨h1, h2, h⟩ | ⟨h1, h2, h⟩)
    · rfl
    · rw [blockKey, blockKey, Hmac.blockKey, Hmac.blockKey, if_neg (Nat.not_lt.mpr h1), if_neg (Nat.not_lt.mpr h2), h]
    · rw [blockKey, blockKey, Hmac.blockKey, Hmac.blockKey, if_pos h1, if_neg (Nat.not_lt.mpr h2), h]
    · rw [blockKey, blockKey, Hmac.blockKey, Hmac.blockKey, if_neg (Nat.not_lt.mpr h1), if_pos h2, h]

theorem ofByte_injective : Function.Injective P.ofByte := by
  intro a b h
  rw [← P.toByte_ofByte a, h, P.toByte_ofByte]

/-- A secret of 32 bytes is one HMAC under the extracted key. -/
theorem hkdf_32 (R : Rfc5869 P) (ikm salt : List β) (info : Bytes) :
    P.hkdf ikm (some salt) (some info) 32 = Hkdf.block P (P.hmac salt ikm) info := by
  have hb := Hkdf.expand_block P (P.hmac salt ikm) info
  rw [Hkdf.expand, if_neg (by decide)] at hb
  rw [R.hkdf_eq]
  exact Except.ok.inj hb

/-- Two derived secrets are equal exactly if their inputs, HMAC keys and infos are. -/
theorem hkdf_eq_iff (hR : R.CollisionFree) {ikm ikm' salt salt' : List β} {info info' : Bytes} :
    P.hkdf ikm (some salt) (some info) 32 = P.hkdf ikm' (some salt') (some info') 32 ↔
      ikm = ikm' ∧ R.blockKey salt = R.blockKey salt' ∧ info = info' := by
  rw [R.hkdf_32, R.hkdf_32, Hkdf.block, Hkdf.block]
  constructor
  · intro h
    rw [R.hmac_eq, R.hmac_eq (P.hmac salt' ikm')] at h
    obtain ⟨hk, hm⟩ := hR.mac (length_blockKey _) (length_blockKey _) h
    have hp := blockKey_inj hR (by rw [P.length_hmac, P.length_hmac]) hk
    rw [R.hmac_eq, R.hmac_eq salt'] at hp
    obtain ⟨hs, hi⟩ := hR.mac (length_blockKey _) (length_blockKey _) hp
    exact ⟨hi, hs, List.map_injective_iff.mpr ofByte_injective (List.append_inj_left' hm rfl)⟩
  · rintro ⟨rfl, hs, rfl⟩
    have he : P.hmac salt ikm = P.hmac salt' ikm := by
      rw [R.hmac_eq, R.hmac_eq salt']
      exact congrArg (fun k => R.mac k ikm) hs
    rw [he]

end Rfc5869

/-! ## What the combiners tell apart -/

theorem HybridKex.combine_secret {P : Primitives β} {classical pq context : List β} {s : HybridSecret β}
    (h : HybridKex.combine P classical pq context = .ok s) :
    s.secret = P.hkdf (classical ++ pq) (some context) (some (utf8Encode "Chhaya-hybrid-v1")) 32 := by
  unfold combine at h
  split at h
  · cases h
  · split at h
    · cases h
    · obtain ⟨secret, hs, h⟩ := except_bind_ok h
      rw [← Except.ok.inj h]
      exact (Except.ok.inj hs).symm

theorem HybridKex.classicalFallback_secret {P : Primitives β} {classical context : List β} {userConsented : Bool}
    {s : HybridSecret β} (h : HybridKex.classicalFallback P classical context userConsented = .ok s) :
    s.secret = P.hkdf classical (some context) (some (utf8Encode "Chhaya-classical-fallback-v1")) 32 := by
  unfold classicalFallback at h
  split at h
  · cases h
  · obtain ⟨secret, hs, h⟩ := except_bind_ok h
    rw [← Except.ok.inj h]
    exact (Except.ok.inj hs).symm

theorem DualKem.combine_secret {P : Primitives β} {primary secondary context secret : List β}
    (h : DualKem.combine P primary secondary context = .ok secret) :
    secret = P.hkdf (primary ++ secondary) (some context) (some (utf8Encode "Chhaya-dualkem-v1")) 32 := by
  unfold combine at h
  split at h
  · cases h
  · split at h
    · cases h
    · exact (Except.ok.inj h).symm

/-- Two accepted inputs give different secrets exactly if the joined secrets differ or the contexts fill HMAC blocks that
differ; and a hybrid secret is no fallback secret. -/
theorem combiners_injective_iff (P : Primitives β) (R : Rfc5869 P) (hR : R.CollisionFree) :
    (∀ classical pq context classical' pq' context' s s', HybridKex.combine P classical pq context = .ok s →
      HybridKex.combine P classical' pq' context' = .ok s' →
      (s.secret ≠ s'.secret ↔ classical ++ pq ≠ classical' ++ pq' ∨ R.blockKey context ≠ R.blockKey context')) ∧
    (∀ primary secondary context primary' secondary' context' s s',
      DualKem.combine P primary secondary context = .ok s → DualKem.combine P primary' secondary' context' = .ok s' →
      (s ≠ s' ↔ primary ++ secondary ≠ primary' ++ secondary' ∨ R.blockKey context ≠ R.blockKey context')) ∧
    ∀ classical pq context classical' context' userConsented s s', HybridKex.combine P classical pq context = .ok s →
      HybridKex.classicalFallback P classical' context' userConsented = .ok s' → s.secret ≠ s'.secret := by
  have hiff : ∀ {ikm ikm' salt salt' : List β} {info : Bytes},
      P.hkdf ikm (some salt) (some info) 32 ≠ P.hkdf ikm' (some salt') (some info) 32 ↔
        ikm ≠ ikm' ∨ R.blockKey salt ≠ R.blockKey salt' := by
    intro ikm ikm' salt salt' info
    rw [Ne, R.hkdf_eq_iff hR, not_and_or, not_and_or]
    simp only [not_true_eq_false, or_false, Ne]
  refine ⟨?_, ?_, ?_⟩
  · intro classical pq context classical' pq' context' s s' h h'
    rw [HybridKex.combine_secret h, HybridKex.combine_secret h']
    exact hiff
  · intro primary secondary context primary' secondary' context' s s' h h'
    rw [DualKem.combine_secret h, DualKem.combine_secret h']
    exact hiff
  · intro classical pq context classical' context' userConsented s s' h h' he
    rw [HybridKex.combine_secret h, HybridKex.classicalFallback_secret h'] at he
    have hi := ((R.hkdf_eq_iff hR).mp he).2.2
    exact absurd (utf8Encode_injective hi) (by decide)

/-! ## Symbolic bytes -/

theorem Hkdf.le_length_expandLoop (P : Primitives β) (prk : List β) (info : Bytes) (n : Nat) :
    ∀ fuel counter previous output, n ≤ output.length + 32 * fuel →
      n ≤ (Hkdf.expandLoop P prk info n fuel counter previous output).length
  | 0, _, _, output, h => by
    rw [Hkdf.expandLoop]
    omega
  | fuel + 1, counter, previous, output, h => by
    rw [Hkdf.expandLoop]
    split
    · refine Hkdf.le_length_expandLoop P prk info n fuel _ _ _ ?_
      rw [List.length_append, P.length_hmac]
      omega
    · omega

/-- A hash of symbolic bytes. -/
def symHash (m : List SymByte) : List SymByte := (List.range 32).map (SymByte.kdf m [] [])

/-- Symbolic bytes with HMAC under block keys. -/
def blockSymbolic : Primitives SymByte where
  __ := symbolic
  hmac key m := (List.range 32).map (SymByte.mac (Hmac.blockKey symbolic symHash key) m)
  length_hmac := by simp

/-- Symbolic bytes with the HKDF that this HMAC gives. -/
def rfcSymbolic : Primitives SymByte where
  __ := blockSymbolic
  hkdf := Hkdf.extractExpand blockSymbolic
  length_hkdf ikm salt info n := by
    have := Hkdf.le_length_expandLoop blockSymbolic (blockSymbolic.hmac (salt.getD (zeros blockSymbolic 32)) ikm)
      (info.getD []) n n 1 [] [] (by omega)
    rw [Hkdf.extractExpand, List.length_take]
    omega

/-- The loop of HKDF only uses HMAC. -/
theorem expandLoop_rfcSymbolic (prk : List SymByte) (info : Bytes) (n : Nat) : ∀ fuel counter previous output,
    Hkdf.expandLoop rfcSymbolic prk info n fuel counter previous output =
      Hkdf.expandLoop blockSymbolic prk info n fuel counter previous output
  | 0, _, _, _ => rfl
  | fuel + 1, counter, previous, output => by
    rw [Hkdf.expandLoop, Hkdf.expandLoop]
    split
    · exact expandLoop_rfcSymbolic prk info n fuel _ _ _
    · rfl

def symbolicRfc5869 : Rfc5869 rfcSymbolic where
  hash := symHash
  length_hash m := by rw [symHash, List.length_map, List.length_range]
  mac k m := (List.range 32).map (SymByte.mac k m)
  hmac_eq _ _ := rfl
  hkdf_eq ikm salt info n := by
    rw [Hkdf.extractExpand, expandLoop_rfcSymbolic]
    rfl

theorem symbolicRfc5869_collisionFree : symbolicRfc5869.CollisionFree where
  hash := fun {m m'} h => by
    have h0 := congrArg (·[0]?) h
    simp [symbolicRfc5869, symHash] at h0
    exact h0
  mac := fun {k k' m m'} _ _ h => by
    have h0 := congrArg (·[0]?) h
    simp [symbolicRfc5869] at h0
    exact h0

/-- 32 or 33 zeros. -/
def someZeros (n : Nat) : List SymByte := List.replicate n (.octet 0)

/-- Inputs that differ in a bit of one secret give different secrets. -/
theorem combiners_tell_apart : ∃ s s', HybridKex.combine rfcSymbolic (someZeros 32) (someZeros 32) [] = .ok s ∧
    HybridKex.combine rfcSymbolic (.octet 1 :: someZeros 31) (someZeros 32) [] = .ok s' ∧ s.secret ≠ s'.secret :=
  ⟨_, _, rfl, rfl, ((combiners_injective_iff rfcSymbolic symbolicRfc5869 symbolicRfc5869_collisionFree).1
    (someZeros 32) (someZeros 32) [] (.octet 1 :: someZeros 31) (someZeros 32) [] _ _ rfl rfl).mpr
    (Or.inl fun h => by cases h)⟩

/-- A byte moved from one secret to the other gives the same secret, and so does a zero at the end of the context. -/
theorem combiners_collide :
    (¬ ∀ classical pq context classical' pq' context' s s', HybridKex.combine rfcSymbolic classical pq context = .ok s →
      HybridKex.combine rfcSymbolic classical' pq' context' = .ok s' →
      (classical, pq, context) ≠ (classical', pq', context') → s.secret ≠ s'.secret) ∧
    ∃ s s', HybridKex.combine rfcSymbolic (someZeros 32) (someZeros 32) [] = .ok s ∧
      HybridKex.combine rfcSymbolic (someZeros 32) (someZeros 32) [.octet 0] = .ok s' ∧ s.secret = s'.secret := by
  constructor
  · intro h
    refine h (someZeros 32) (someZeros 33) [] (someZeros 33) (someZeros 32) [] _ _ rfl rfl (fun he => ?_) ?_
    · have hl := congrArg (fun t => t.1.length) he
      exact absurd hl (by decide)
    · show rfcSymbolic.hkdf _ _ _ _ = rfcSymbolic.hkdf _ _ _ _
      rfl
  · refine ⟨_, _, rfl, rfl, ?_⟩
    exact (symbolicRfc5869.hkdf_eq_iff symbolicRfc5869_collisionFree).mpr ⟨rfl, rfl, rfl⟩

end Chhaya
