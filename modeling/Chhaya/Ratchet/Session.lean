import Chhaya.Crypto.Primitives
import Chhaya.Models

/-!
# Ratchet state, headers and message keys

`lib/core/crypto/ratchet`: `header.dart`, `message_keys.dart`, `session_state.dart`, `spqr.dart`. Constructors that
check their arguments are functions into `Except`; the values they build carry what was checked.

- `MessageKeys.derive_ok`: on a 32-byte chain key and a counter that fits in 32 bits, the step cannot fail and gives
  `messageKeysAt` and `nextChainKey`.
- `skipKey_inj`: the text under which a skipped key is filed determines chain and number.
-/

namespace Chhaya

variable {β : Type}

/-! ## Message keys -/

/-- `MessageKeys.keyLength`. -/
def MessageKeys.keyLength : Nat := 32

/-- `MessageKeys.nonceLength`. -/
def MessageKeys.nonceLength : Nat := 12

/-- A `MessageKeyBundle`: its constructor rejects every other length. -/
@[ext] structure MessageKeyBundle (β : Type) where
  messageKey : List β
  nonce : List β
  messageKey_length : messageKey.length = 32
  nonce_length : nonce.length = 12

/-- The checking constructor. -/
def MessageKeyBundle.create (messageKey nonce : List β) : Except DartError (MessageKeyBundle β) :=
  if hk : messageKey.length = 32 then
    if hn : nonce.length = 12 then .ok ⟨messageKey, nonce, hk, hn⟩
    else .error (.argument (toString nonce.length) "nonce" "Nonces must be 12 bytes")
  else .error (.argument (toString messageKey.length) "messageKey" "Message keys must be 32 bytes")

theorem MessageKeyBundle.create_ok {k n : List β} (hk : k.length = 32) (hn : n.length = 12) :
    MessageKeyBundle.create k n = .ok ⟨k, n, hk, hn⟩ := by simp [MessageKeyBundle.create, hk, hn]

/-- `MessageKeys.derive`: the bundle of `counter` and the next chain key. -/
def MessageKeys.derive (P : Primitives β) (chainKey : List β) (counter : Int) :
    Except DartError (MessageKeyBundle β × List β) := do
  if chainKey.length ≠ MessageKeys.keyLength then
    throw (.argument (toString chainKey.length) "chainKey" "Chain keys must be 32 bytes")
  if counter < 0 ∨ counter > 0xFFFFFFFF then
    throw (.argument (toString counter) "counter" "Counter must fit in u32")
  let ctr := u32be counter.toNat
  let messageKey ← Hkdf.expand P chainKey (utf8Encode "Chhaya-msg-v1" ++ ctr) MessageKeys.keyLength
  let nextChainKey ← Hkdf.expand P chainKey (utf8Encode "Chhaya-chain-v1" ++ ctr) MessageKeys.keyLength
  let nonce ← Hkdf.expand P messageKey (utf8Encode "Chhaya-nonce-v1" ++ ctr) MessageKeys.nonceLength
  return (← MessageKeyBundle.create messageKey nonce, nextChainKey)

/-- The keys of message `n` under the chain key `ck`. -/
def messageKeysAt (P : Primitives β) (ck : List β) (n : Nat) : MessageKeyBundle β where
  messageKey := Hkdf.block P ck (utf8Encode "Chhaya-msg-v1" ++ u32be n)
  nonce := (Hkdf.block P (Hkdf.block P ck (utf8Encode "Chhaya-msg-v1" ++ u32be n))
    (utf8Encode "Chhaya-nonce-v1" ++ u32be n)).take 12
  messageKey_length := by simp
  nonce_length := by simp

/-- The chain key after message `n`. -/
def nextChainKey (P : Primitives β) (ck : List β) (n : Nat) : List β :=
  Hkdf.block P ck (utf8Encode "Chhaya-chain-v1" ++ u32be n)

@[simp] theorem length_nextChainKey (P : Primitives β) (ck : List β) (n : Nat) :
    (nextChainKey P ck n).length = 32 := Hkdf.length_block _ _ _

theorem MessageKeys.derive_ok (P : Primitives β) {ck : List β} {n : Nat} (hck : ck.length = 32)
    (hn : n ≤ 0xFFFFFFFF) :
    MessageKeys.derive P ck (n : Int) = .ok (messageKeysAt P ck n, nextChainKey P ck n) := by
  have hc : ¬((n : Int) < 0 ∨ (n : Int) > 0xFFFFFFFF) := by omega
  have hnonce := Hkdf.expand_le_block P (Hkdf.block P ck (utf8Encode "Chhaya-msg-v1" ++ u32be n))
    (utf8Encode "Chhaya-nonce-v1" ++ u32be n) (n := 12) (by decide) (by decide)
  simp only [MessageKeys.derive, MessageKeys.keyLength, MessageKeys.nonceLength, hck, hc, ne_eq, not_true_eq_false,
    if_false, Int.toNat_natCast, Hkdf.expand_block, hnonce, bind, Except.bind, pure, Except.pure]
  rw [MessageKeyBundle.create_ok (by simp) (by simp)]
  rfl

/-! ## Headers -/

/-- A `RatchetHeader`. -/
@[ext] structure RatchetHeader where
  dhPublicKey : Bytes
  prevChainLength : Nat
  messageNumber : Nat
  dhPublicKey_length : dhPublicKey.length = 32

/-- The checking constructor of `RatchetHeader`. -/
def RatchetHeader.create (dhPublicKey : Bytes) (prevChainLength messageNumber : Int) :
    Except DartError RatchetHeader :=
  if h : dhPublicKey.length = 32 then
    if prevChainLength < 0 then
      .error (.argument (toString prevChainLength) "prevChainLength" "Must be non-negative")
    else if messageNumber < 0 then
      .error (.argument (toString messageNumber) "messageNumber" "Must be non-negative")
    else .ok ⟨dhPublicKey, prevChainLength.toNat, messageNumber.toNat, h⟩
  else .error (.argument (toString dhPublicKey.length) "dhPublicKey" "DH public keys must be 32 bytes")

theorem RatchetHeader.create_ok {dh : Bytes} (h : dh.length = 32) (p n : Nat) :
    RatchetHeader.create dh p n = .ok ⟨dh, p, n, h⟩ := by
  have hp : ¬(p : Int) < 0 := by omega
  have hn : ¬(n : Int) < 0 := by omega
  rw [RatchetHeader.create, dif_pos h, if_neg hp, if_neg hn]
  rfl

/-- `RatchetHeader.toBytes`: public key, previous chain length, message number. -/
def RatchetHeader.toBytes (h : RatchetHeader) : Bytes :=
  h.dhPublicKey ++ u32be h.prevChainLength ++ u32be h.messageNumber

/-- `RatchetHeader.fromBytes`. -/
def RatchetHeader.fromBytes (bytes : Bytes) : Except DartError RatchetHeader :=
  if bytes.length ≠ 40 then
    .error (.argument (toString bytes.length) "bytes" "Ratchet headers must be 40 bytes")
  else RatchetHeader.create (bytes.take 32) (readU32be ((bytes.drop 32).take 4)) (readU32be (bytes.drop 36))

/-- A `TripleHeader`: the DH header and the SPQR epoch. -/
@[ext] structure TripleHeader where
  dh : RatchetHeader
  spqrEpoch : Nat
  spqrEpoch_le : spqrEpoch ≤ 0xFFFFFFFF

/-- The checking constructor of `TripleHeader`. -/
def TripleHeader.create (dh : RatchetHeader) (spqrEpoch : Int) : Except DartError TripleHeader :=
  if h : spqrEpoch < 0 ∨ spqrEpoch > 0xFFFFFFFF then
    .error (.argument (toString spqrEpoch) "spqrEpoch" "Epoch must fit in u32")
  else .ok ⟨dh, spqrEpoch.toNat, by omega⟩

/-- `TripleHeader.toBytes`. -/
def TripleHeader.toBytes (h : TripleHeader) : Bytes := h.dh.toBytes ++ u32be h.spqrEpoch

/-- `TripleHeader.fromBytes`. -/
def TripleHeader.fromBytes (bytes : Bytes) : Except DartError TripleHeader := do
  if bytes.length ≠ 44 then
    throw (.argument (toString bytes.length) "bytes" "Triple headers must be 44 bytes")
  let dh ← RatchetHeader.fromBytes (bytes.take 40)
  TripleHeader.create dh (readU32be (bytes.drop 40))

/-! ## Session state -/

/-- A `SessionState`. Counters are Dart ints: a stored session may hold any. -/
structure SessionState (β : Type) where
  peerId : String
  initiatedByUs : Bool
  rootKey : List β
  sendChainKey : List β
  /-- False until the responder's first send. -/
  sendInitialized : Bool := true
  sendCounter : Int := 0
  prevSendChainLength : Int := 0
  recvChainKey : List β
  recvCounter : Int := 0
  recvGeneration : Int := 0
  ourPrivateKey : List β
  ourPublicKey : Bytes
  remotePublicKey : Bytes
  /-- Keys of messages not yet received, by chain public key and number. -/
  skipped : DartMap String (MessageKeyBundle β) := ∅
  spqrSeed : List β
  spqrEpoch : Int := 0

/-- `'${_hexOf(dhPublicKey)}:$messageNumber'`. -/
def skipKey (dhPublicKey : Bytes) (messageNumber : Int) : String :=
  hexOf dhPublicKey ++ ":" ++ toString messageNumber

theorem skipKey_natCast (A : Bytes) (n : Nat) : skipKey A n = hexOf A ++ ":" ++ Nat.repr n := rfl

theorem skipKey_inj {A B : Bytes} {m n : Nat} (h : skipKey A m = skipKey B n) : A = B ∧ m = n := by
  rw [skipKey_natCast, skipKey_natCast] at h
  have hl := congrArg String.toList h
  simp only [hexOf, String.toList_append, String.toList_ofList, List.append_assoc] at hl
  obtain ⟨h1, h2⟩ := append_sep_inj hl (colon_not_mem_hex A) (colon_not_mem_hex B)
  exact ⟨flatMap_hexByte_injective h1, natRepr_injective (String.toList_injective h2)⟩

/-! ## The SPQR chain -/

/-- `SpqrChain.advanceEvery`. -/
def SpqrChain.advanceEvery : Int := 10

/-- `SpqrChain.chainKeyFor`. -/
def SpqrChain.chainKeyFor (P : Primitives β) (seed : List β) (epoch : Int) : Except DartError (List β) := do
  if seed.length < 32 then
    throw (.argument (toString seed.length) "seed" "SPQR seeds must be at least 32 bytes")
  if epoch < 0 ∨ epoch > 0xFFFFFFFF then
    throw (.argument (toString epoch) "epoch" "Epoch must fit in u32")
  Hkdf.deriveKey P seed 32 none (some (utf8Encode "Chhaya-SPQR-v1" ++ u32be epoch.toNat))

/-- The key of an epoch that fits in 32 bits. -/
def spqrKeyAt (P : Primitives β) (seed : List β) (epoch : Nat) : List β :=
  P.hkdf seed none (some (utf8Encode "Chhaya-SPQR-v1" ++ u32be epoch)) 32

@[simp] theorem length_spqrKeyAt (P : Primitives β) (seed : List β) (epoch : Nat) :
    (spqrKeyAt P seed epoch).length = 32 := P.length_hkdf _ _ _ _

theorem SpqrChain.chainKeyFor_ok (P : Primitives β) {seed : List β} {epoch : Nat} (hs : 32 ≤ seed.length)
    (he : epoch ≤ 0xFFFFFFFF) : SpqrChain.chainKeyFor P seed (epoch : Int) = .ok (spqrKeyAt P seed epoch) := by
  have h1 : ¬seed.length < 32 := by omega
  have h2 : ¬((epoch : Int) < 0 ∨ (epoch : Int) > 0xFFFFFFFF) := by omega
  simp only [SpqrChain.chainKeyFor, Hkdf.deriveKey, h1, h2, if_false, Int.toNat_natCast]
  rfl

end Chhaya
