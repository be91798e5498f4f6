import Chhaya.Ratchet.Session

/-!
# The double ratchet

`lib/core/crypto/ratchet/double_ratchet.dart`. The engine mutates a `SessionState` and may throw half way, so an
operation is an `EStateM` action: an error carries the state as it was left. A freshly generated private key is an
argument; the code draws it only where it calls `X25519Kex.generateKeyPair`.

Buffers that the source wipes are reassigned before they are read again, so wiping is left out.

Over it stands the facade of `triple_ratchet.dart`, which mixes the SPQR epoch key into every message key.
-/

namespace Chhaya

variable {β : Type}

/-! ## The engine -/

/-- Operations on one session. -/
abbrev RatchetM (β : Type) := EStateM DartError (SessionState β)

instance : MonadLift (Except DartError) (RatchetM β) where
  monadLift
    | .ok a => pure a
    | .error e => throw e

/-- `UnverifiedPeerException`. -/
def unverifiedPeer (peerId : String) : DartError :=
  .ratchet ("Refusing session with unverified peer \"" ++ peerId ++ "\": verify via QR scan or Arke handshake " ++
    "(Part 12). Demo/placeholder keys are rejected outright.")

/-- `TooManySkippedException`. The source interpolates the class name, not the constant. -/
def tooManySkipped (skipped : Int) : DartError :=
  .ratchet ("Peer skipped " ++ toString skipped ++ " messages (max DoubleRatchet.maxSkip)")

namespace DoubleRatchet

/-- `DoubleRatchet.maxSkip`. -/
def maxSkip : Int := 1000

/-- `DoubleRatchet.maxSkippedTotal`. -/
def maxSkippedTotal : Nat := 2000

/-- `_ourKeyPair`. -/
def ourKeyPair (P : Primitives β) (ourPrivateKey : Option (List β)) (fresh : X25519Seed β) :
    Except DartError (Bytes × List β) :=
  match ourPrivateKey with
  | none => .ok (X25519Kex.generateKeyPair P fresh)
  | some k =>
    if k.length ≠ X25519Kex.keyLength then
      .error (.argument (toString k.length) "ourPrivateKey" "X25519 private keys must be 32 bytes")
    else .ok (P.x25519Public k, k)

/-- `DoubleRatchet.initSession`. -/
def initSession (P : Primitives β) (peerId : String) (initiator : Bool) (sharedSecret : List β)
    (remotePublicKey : Bytes) (ourPrivateKey : Option (List β)) (fresh : X25519Seed β) :
    Except DartError (SessionState β) := do
  if sharedSecret.length < 32 then
    throw (.argument (toString sharedSecret.length) "sharedSecret" "Shared secrets must be at least 32 bytes")
  if remotePublicKey.length ≠ X25519Kex.keyLength then
    throw (.argument (toString remotePublicKey.length) "remotePublicKey" "Remote DH keys must be 32 bytes")
  let ours ← ourKeyPair P ourPrivateKey fresh
  let dhOut ← X25519Kex.sharedSecret P ours.2 remotePublicKey
  let seed ← Hkdf.deriveKey P sharedSecret 96 (some dhOut) (some (utf8Encode "Chhaya-DR-init-v1"))
  let rootKey := seed.take 32
  let chainA := (seed.drop 32).take 32
  let chainB := (seed.drop 64).take 32
  let spqrSeed ← Hkdf.deriveKey P sharedSecret 32 none (some (utf8Encode "Chhaya-SPQR-seed-v1"))
  return {
    peerId
    initiatedByUs := initiator
    rootKey
    -- The responder's sending chain is dead until its first send.
    sendChainKey := if initiator then chainA else zeros P 32
    sendInitialized := initiator
    recvChainKey := if initiator then chainB else chainA
    ourPrivateKey := ours.2
    ourPublicKey := ours.1
    remotePublicKey
    spqrSeed }

/-- `_firstSendRatchet`: a fresh key pair, a new root and a new sending chain. -/
def firstSendRatchet (P : Primitives β) (fresh : X25519Seed β) : RatchetM β Unit := do
  let ours := X25519Kex.generateKeyPair P fresh
  modify fun state => { state with ourPrivateKey := ours.2, ourPublicKey := ours.1 }
  let state ← get
  let dhOut ← X25519Kex.sharedSecret P state.ourPrivateKey state.remotePublicKey
  let out := Hkdf.derive64 P state.rootKey dhOut
  modify fun state => { state with
    rootKey := out.take 32
    sendChainKey := (out.drop 32).take 32
    prevSendChainLength := state.sendCounter
    sendInitialized := true }

/-- `DoubleRatchet.encrypt`. -/
def encrypt (P : Primitives β) (fresh : X25519Seed β) : RatchetM β (RatchetHeader × MessageKeyBundle β) := do
  if (← get).sendInitialized = false then
    firstSendRatchet P fresh
  let state ← get
  let (bundle, nextChainKey) ← MessageKeys.derive P state.sendChainKey state.sendCounter
  let header ← RatchetHeader.create state.ourPublicKey state.prevSendChainLength state.sendCounter
  set { state with sendChainKey := nextChainKey, sendCounter := state.sendCounter + 1 }
  return (header, bundle)

/-- `_stageSkipped`: one receiving key goes to the skipped cache. -/
def stageSkipped (P : Primitives β) (counter : Int) : RatchetM β Unit := do
  let state ← get
  if state.skipped.keys.length ≥ maxSkippedTotal then
    throw (.ratchet ("Skipped-key cache full (" ++ toString maxSkippedTotal ++ ") — peer must ratchet"))
  let (bundle, nextChainKey) ← MessageKeys.derive P state.recvChainKey counter
  set { state with
    recvChainKey := nextChainKey
    skipped := state.skipped.insert (skipKey state.remotePublicKey counter) bundle }

/-- The staging loop: `while (state.recvCounter < target)`. `_dhRatchet` counts its turns in `staged` and throws above
`limit`; `decrypt` has checked the gap before and passes none. -/
def stageUntil (P : Primitives β) (target : Int) (limit : Option Int) : Nat → Int → RatchetM β Unit
  | 0, _ => pure ()
  | fuel + 1, staged => do
    let state ← get
    if state.recvCounter < target then
      stageSkipped P state.recvCounter
      modify fun state => { state with recvCounter := state.recvCounter + 1 }
      if limit.any (· < staged + 1) then
        throw (tooManySkipped (staged + 1))
      stageUntil P target limit fuel (staged + 1)

/-- `_dhRatchet`: the rest of the old receiving chain is staged, then both chains are reseeded. -/
def dhRatchet (P : Primitives β) (fresh : X25519Seed β) (header : RatchetHeader) : RatchetM β Unit := do
  let state ← get
  stageUntil P header.prevChainLength (some maxSkip) (header.prevChainLength - state.recvCounter).toNat 0
  let state ← get
  let dhOut ← X25519Kex.sharedSecret P state.ourPrivateKey header.dhPublicKey
  let out := Hkdf.derive64 P state.rootKey dhOut
  modify fun state => { state with
    rootKey := out.take 32
    recvChainKey := (out.drop 32).take 32
    remotePublicKey := header.dhPublicKey
    recvGeneration := int64 (state.recvGeneration + 1)
    recvCounter := 0 }
  let ours := X25519Kex.generateKeyPair P fresh
  modify fun state => { state with ourPrivateKey := ours.2, ourPublicKey := ours.1 }
  let state ← get
  let dhOut2 ← X25519Kex.sharedSecret P state.ourPrivateKey state.remotePublicKey
  let out2 := Hkdf.derive64 P state.rootKey dhOut2
  modify fun state => { state with
    rootKey := out2.take 32
    sendChainKey := (out2.drop 32).take 32
    prevSendChainLength := state.sendCounter
    sendCounter := 0 }

/-- The part of `decrypt` after the cache and the ratchet: the guards, the staging loop and the last step. -/
def receive (P : Primitives β) (messageNumber : Int) : RatchetM β (MessageKeyBundle β) := do
  let state ← get
  if messageNumber < state.recvCounter then
    throw (.ratchet ("Duplicate or over-delayed message " ++ toString messageNumber ++ " (next expected " ++
      toString state.recvCounter ++ ")"))
  if messageNumber - state.recvCounter > maxSkip then
    throw (tooManySkipped (messageNumber - state.recvCounter))
  stageUntil P messageNumber none (messageNumber - state.recvCounter).toNat 0
  let state ← get
  let (bundle, nextChainKey) ← MessageKeys.derive P state.recvChainKey state.recvCounter
  set { state with recvChainKey := nextChainKey, recvCounter := state.recvCounter + 1 }
  return bundle

/-- `DoubleRatchet.decrypt`: the skipped cache first, then a ratchet on an unknown key, then the current chain. -/
def decrypt (P : Primitives β) (fresh : X25519Seed β) (header : RatchetHeader) :
    RatchetM β (MessageKeyBundle β) := do
  let state ← get
  let key := skipKey header.dhPublicKey header.messageNumber
  match state.skipped.lookup key with
  | some cached =>
    set { state with skipped := state.skipped.erase key }
    return cached
  | none =>
    if header.dhPublicKey ≠ state.remotePublicKey then
      dhRatchet P fresh header
    receive P header.messageNumber

end DoubleRatchet

/-! ## The triple ratchet -/

namespace TripleRatchet

/-- `TripleRatchet.startSession`. -/
def startSession (P : Primitives β) (peer : Contact) (remoteDhPublicKey : Bytes) (sharedSecret : List β)
    (initiator : Bool) (ourPrivateKey : Option (List β)) (fresh : X25519Seed β) :
    Except DartError (SessionState β) :=
  if peer.isVerified then
    DoubleRatchet.initSession P peer.id initiator sharedSecret remoteDhPublicKey ourPrivateKey fresh
  else .error (unverifiedPeer peer.id)

/-- `_combine`. -/
def combine (P : Primitives β) (dhKey spqrKey : List β) (messageNumber spqrEpoch : Nat) :
    Except DartError (MessageKeyBundle β) := do
  let numBytes := u32be messageNumber
  let epochBytes := u32be spqrEpoch
  let messageKey ← Hkdf.deriveKey P (dhKey ++ spqrKey) MessageKeys.keyLength none
    (some (utf8Encode "Chhaya-triple-v1" ++ numBytes ++ epochBytes))
  let nonce ← Hkdf.expand P messageKey (utf8Encode "Chhaya-nonce-v1" ++ numBytes ++ epochBytes)
    MessageKeys.nonceLength
  MessageKeyBundle.create messageKey nonce

/-- `TripleRatchet.encrypt`. `MessageKeys.derive` has rejected a negative counter by the time its bytes are taken. -/
def encrypt (P : Primitives β) (fresh : X25519Seed β) : RatchetM β (TripleHeader × MessageKeyBundle β) := do
  let (header, keys) ← DoubleRatchet.encrypt P fresh
  let messageNumber := (← get).sendCounter - 1
  let epoch := messageNumber.tdiv SpqrChain.advanceEvery
  modify fun state => { state with spqrEpoch := epoch }
  let spqrKey ← SpqrChain.chainKeyFor P (← get).spqrSeed epoch
  let bundle ← combine P keys.messageKey spqrKey messageNumber.toNat epoch.toNat
  return (← TripleHeader.create header epoch, bundle)

/-- `TripleRatchet.decrypt`. -/
def decrypt (P : Primitives β) (fresh : X25519Seed β) (header : TripleHeader) :
    RatchetM β (MessageKeyBundle β) := do
  let dhKeys ← DoubleRatchet.decrypt P fresh header.dh
  let spqrKey ← SpqrChain.chainKeyFor P (← get).spqrSeed header.spqrEpoch
  combine P dhKeys.messageKey spqrKey header.dh.messageNumber header.spqrEpoch

end TripleRatchet

end Chhaya
