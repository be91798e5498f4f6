import Chhaya.Dart.Core

/-!
# Cryptographic primitives

`Primitives β` is what the `cryptography` and `pointycastle` packages give the client: HMAC-SHA256, HKDF-SHA256,
X25519 and AES-256-GCM. Key material is a list over `β`; what goes over the wire is `Bytes`. The program's `β` is
`UInt8`, and everything below holds for it. Nothing fixes it, so that the same definitions also run over symbolic
primitives whose outputs determine their inputs, which no fixed-length string of octets can.

Over them stand the wrappers of `lib/core/crypto/primitives`: `Hkdf`, `X25519Kex` and `AesGcm`, with the length checks
they make.
-/

namespace Chhaya

/-- The primitives of the cryptography packages, with the lengths they document and the X25519 commutation law. -/
structure Primitives (β : Type) where
  /-- An octet of text, of a counter or of zero fill, as key material. -/
  ofByte : UInt8 → β
  /-- A byte of key material written to the wire. -/
  toByte : β → UInt8
  toByte_ofByte : ∀ b, toByte (ofByte b) = b
  isZero : β → Bool
  /-- `HMac(SHA256Digest(), 64)` keyed with the first argument. -/
  hmac : List β → List β → List β
  /-- `HKDFKeyDerivator(SHA256Digest())`: input key material, salt, info, length. -/
  hkdf : List β → Option (List β) → Option Bytes → Nat → List β
  /-- X25519 of a private key and a public key. -/
  x25519 : List β → Bytes → List β
  x25519Public : List β → Bytes
  /-- `GCMBlockCipher` encryption: key, nonce, associated data, plaintext; the result ends with the tag. -/
  gcmSeal : List β → Bytes → Bytes → Bytes → Bytes
  gcmOpen : List β → Bytes → Bytes → Bytes → Option Bytes
  length_hmac : ∀ k m, (hmac k m).length = 32
  length_hkdf : ∀ ikm salt info n, (hkdf ikm salt info n).length = n
  length_x25519 : ∀ a P, (x25519 a P).length = 32
  length_x25519Public : ∀ a, (x25519Public a).length = 32
  x25519_comm : ∀ a b, x25519 a (x25519Public b) = x25519 b (x25519Public a)
  gcmOpen_gcmSeal : ∀ k iv aad p, gcmOpen k iv aad (gcmSeal k iv aad p) = some p
  length_gcmSeal : ∀ k iv aad p, (gcmSeal k iv aad p).length = p.length + 16

attribute [simp] Primitives.length_hmac Primitives.length_hkdf Primitives.length_x25519
  Primitives.length_x25519Public Primitives.toByte_ofByte

/-- The UTF-8 bytes of a string, `utf8.encode`. -/
def utf8Encode (s : String) : Bytes := s.toUTF8.data.toList

/-- `Csprng.wipe` and `Uint8List(n)`: `n` zero bytes. -/
def zeros {β : Type} (P : Primitives β) (n : Nat) : List β := List.replicate n (P.ofByte 0)

variable {β : Type}

/-! ## HKDF -/

/-- `Hkdf.deriveKey`. -/
def Hkdf.deriveKey (P : Primitives β) (inputKeyMaterial : List β) (length : Nat) (salt : Option (List β))
    (info : Option Bytes) : Except DartError (List β) :=
  if length ≤ 0 then .error (.argument (toString length) "length" "Must be positive")
  else .ok (P.hkdf inputKeyMaterial salt info length)

/-- `Hkdf.derive64`: the ratchet step. -/
def Hkdf.derive64 (P : Primitives β) (ikm salt : List β) : List β := P.hkdf ikm (some salt) none 64

/-- The loop of `Hkdf.expand`: one HMAC block a turn while the output is too short. The block counter is stored in a
byte list, so it is taken modulo 256. -/
def Hkdf.expandLoop (P : Primitives β) (prk : List β) (info : Bytes) (outputLength : Nat) :
    Nat → Nat → List β → List β → List β
  | 0, _, _, output => output
  | fuel + 1, counter, previous, output =>
    if output.length < outputLength then
      let block := P.hmac prk (previous ++ info.map P.ofByte ++ [P.ofByte (UInt8.ofNat counter)])
      expandLoop P prk info outputLength fuel (counter + 1) block (output ++ block)
    else output

/-- `Hkdf.expand`. A turn adds 32 bytes, so the loop makes at most `outputLength` turns. -/
def Hkdf.expand (P : Primitives β) (prk : List β) (info : Bytes) (outputLength : Nat) :
    Except DartError (List β) :=
  if outputLength ≤ 0 then .error (.argument (toString outputLength) "outputLength" "Must be positive")
  else .ok ((Hkdf.expandLoop P prk info outputLength outputLength 1 [] []).take outputLength)

/-- The first HMAC block of `Hkdf.expand`. -/
def Hkdf.block (P : Primitives β) (prk : List β) (info : Bytes) : List β :=
  P.hmac prk (info.map P.ofByte ++ [P.ofByte 1])

@[simp] theorem Hkdf.length_block (P : Primitives β) (prk : List β) (info : Bytes) :
    (Hkdf.block P prk info).length = 32 := P.length_hmac _ _

/-- The loop stops once the output is long enough. -/
theorem Hkdf.expandLoop_done (P : Primitives β) (prk : List β) (info : Bytes) {n : Nat} {output : List β}
    (h : n ≤ output.length) : ∀ fuel counter previous,
      Hkdf.expandLoop P prk info n fuel counter previous output = output
  | 0, _, _ => rfl
  | _ + 1, _, _ => by simp [Hkdf.expandLoop, Nat.not_lt.mpr h]

/-- Up to 32 bytes, `Hkdf.expand` is a prefix of the first block. -/
theorem Hkdf.expand_le_block (P : Primitives β) (prk : List β) (info : Bytes) {n : Nat} (h0 : 0 < n) (h : n ≤ 32) :
    Hkdf.expand P prk info n = .ok ((Hkdf.block P prk info).take n) := by
  obtain ⟨n, rfl⟩ : ∃ m, n = m + 1 := ⟨n - 1, by omega⟩
  have hd := Hkdf.expandLoop_done P prk info (show n + 1 ≤ (Hkdf.block P prk info).length by simpa using h) n 2 (Hkdf.block P prk info)
  have hl : Hkdf.expandLoop P prk info (n + 1) (n + 1) 1 [] [] = Hkdf.block P prk info := by
    simpa [Hkdf.expandLoop, Hkdf.block] using hd
  simp [Hkdf.expand, hl]

theorem Hkdf.expand_block (P : Primitives β) (prk : List β) (info : Bytes) :
    Hkdf.expand P prk info 32 = .ok (Hkdf.block P prk info) := by
  rw [Hkdf.expand_le_block P prk info (by decide) (by decide), List.take_of_length_le (by simp)]

/-! ## X25519 -/

/-- `X25519Kex.keyLength`. -/
def X25519Kex.keyLength : Nat := 32

/-- `X25519Kex.sharedSecret`. -/
def X25519Kex.sharedSecret (P : Primitives β) (privateKeyBytes : List β) (publicKeyBytes : Bytes) :
    Except DartError (List β) :=
  if privateKeyBytes.length ≠ X25519Kex.keyLength then
    .error (.argument (toString privateKeyBytes.length) "privateKeyBytes" "X25519 private keys must be 32 bytes")
  else if publicKeyBytes.length ≠ X25519Kex.keyLength then
    .error (.argument (toString publicKeyBytes.length) "publicKeyBytes" "X25519 public keys must be 32 bytes")
  else .ok (P.x25519 privateKeyBytes publicKeyBytes)

theorem X25519Kex.sharedSecret_ok (P : Primitives β) {a : List β} {A : Bytes} (ha : a.length = 32)
    (hA : A.length = 32) : X25519Kex.sharedSecret P a A = .ok (P.x25519 a A) := by
  simp [X25519Kex.sharedSecret, X25519Kex.keyLength, ha, hA]

/-- A shared secret is only computed from keys of 32 bytes. -/
theorem X25519Kex.sharedSecret_inv {P : Primitives β} {a : List β} {A : Bytes} {r : List β}
    (h : X25519Kex.sharedSecret P a A = .ok r) : a.length = 32 ∧ A.length = 32 ∧ r = P.x25519 a A := by
  unfold X25519Kex.sharedSecret at h
  split at h
  · cases h
  · rename_i ha
    split at h
    · cases h
    · rename_i hA
      exact ⟨not_not.mp ha, not_not.mp hA, (Except.ok.inj h).symm⟩

/-- What the generator draws for a new private key: 32 bytes. -/
abbrev X25519Seed (β : Type) := {k : List β // k.length = 32}

/-- `X25519Kex.generateKeyPair`: the public and the private key of the drawn seed. -/
def X25519Kex.generateKeyPair (P : Primitives β) (seed : X25519Seed β) : Bytes × List β :=
  (P.x25519Public seed.1, seed.1)

/-! ## AES-256-GCM -/

/-- `AesGcm._checkKey`. -/
def AesGcm.checkKey (key : List β) : Except DartError Unit :=
  if key.length ≠ 32 then .error (.argument (toString key.length) "key" "AES-256 keys must be 32 bytes") else .ok ()

/-- `AesGcm.encryptBytes` with its `nonce` given: `nonce || ciphertext || tag`. -/
def AesGcm.encryptBytes (P : Primitives β) (key : List β) (plaintext : Bytes) (nonce : List β) (aad : Bytes) :
    Except DartError Bytes := do
  AesGcm.checkKey key
  if nonce.length ≠ 12 then
    .error (.argument (toString nonce.length) "nonce" "AES-GCM nonces must be 12 bytes")
  else
    let iv := nonce.map P.toByte
    .ok (iv ++ P.gcmSeal key iv aad plaintext)

/-- `AesGcm.decryptBytes`; the cipher throws when the tag does not verify. -/
def AesGcm.decryptBytes (P : Primitives β) (key : List β) (combined aad : Bytes) : Except DartError Bytes := do
  AesGcm.checkKey key
  if combined.length < 12 + 16 then
    .error (.argument (toString combined.length) "combined" "Input too short to contain nonce and tag")
  else
    match P.gcmOpen key (combined.take 12) aad (combined.drop 12) with
    | some plain => .ok plain
    | none => .error (.argument "" "" "mac check in GCM failed")

/-- Keys of the right lengths seal anything. -/
theorem AesGcm.encryptBytes_ok (P : Primitives β) {key nonce : List β} (hk : key.length = 32) (hn : nonce.length = 12)
    (plaintext aad : Bytes) : AesGcm.encryptBytes P key plaintext nonce aad =
      .ok (nonce.map P.toByte ++ P.gcmSeal key (nonce.map P.toByte) aad plaintext) := by
  simp [AesGcm.encryptBytes, AesGcm.checkKey, hk, hn, bind, Except.bind]

/-- What `AesGcm.encryptBytes` returns, `AesGcm.decryptBytes` opens under the same key and associated data. -/
theorem AesGcm.decryptBytes_encryptBytes (P : Primitives β) {key nonce : List β} {plaintext aad out : Bytes}
    (h : AesGcm.encryptBytes P key plaintext nonce aad = .ok out) :
    AesGcm.decryptBytes P key out aad = .ok plaintext := by
  unfold AesGcm.encryptBytes at h
  cases hk : AesGcm.checkKey key with
  | error e => simp [hk, bind, Except.bind] at h
  | ok u =>
    simp only [hk, bind, Except.bind] at h
    split at h
    · cases h
    · rename_i hn
      have hl : nonce.length = 12 := not_not.mp hn
      cases h
      have hlen : ((nonce.map P.toByte) ++ P.gcmSeal key (nonce.map P.toByte) aad plaintext).length ≥ 28 := by
        simp [P.length_gcmSeal, hl]; omega
      have ht : ((nonce.map P.toByte) ++ P.gcmSeal key (nonce.map P.toByte) aad plaintext).take 12
          = nonce.map P.toByte := by
        rw [← hl, ← List.length_map (f := P.toByte)]; simp
      have hd : ((nonce.map P.toByte) ++ P.gcmSeal key (nonce.map P.toByte) aad plaintext).drop 12
          = P.gcmSeal key (nonce.map P.toByte) aad plaintext := by
        rw [← hl, ← List.length_map (f := P.toByte)]; simp
      simp only [AesGcm.decryptBytes, hk, bind, Except.bind, ht, hd, P.gcmOpen_gcmSeal]
      rw [if_neg (by omega)]

end Chhaya
