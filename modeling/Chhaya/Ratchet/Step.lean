import Chhaya.Ratchet.DoubleRatchet

/-!
# One ratchet operation

A chain is given by its first key: `chainKeyAt P start n` is its key after `n` messages, and `chainKeys P start n` what
message `n` is sealed with. The lemmas below say what an operation does in these terms.

- `initSession_run`, `initSession_ok`: what a new session is.
- `encrypt_run`, `encrypt_first`: what one `encrypt` returns and how it leaves the session.
- `decrypt_cached`, `decrypt_current`, `decrypt_ratchet`: the three ways to receive, with the conditions under which
  they cannot fail.
- `decrypt_cases`: a `decrypt` that returns took one of them.
- `TripleRatchet.encrypt_run`, `TripleRatchet.decrypt_run`, `TripleRatchet.decrypt_inv`: the same through the facade.
-/

namespace Chhaya

variable {β : Type}

/-! ## Running an action -/

@[simp] theorem run_lift_ok {α : Type} (a : α) (s : SessionState β) :
    (liftM (Except.ok a : Except DartError α) : RatchetM β α).run s = .ok a s := rfl

@[simp] theorem run_lift_error {α : Type} (e : DartError) (s : SessionState β) :
    (liftM (Except.error e : Except DartError α) : RatchetM β α).run s = .error e s := rfl

@[simp] theorem run_map_ok {α γ : Type} (f : α → γ) (x : RatchetM β α) (s : SessionState β) :
    (f <$> x).run s = match x.run s with
      | .ok a t => .ok (f a) t
      | .error e t => .error e t := by
  rw [← bind_pure_comp, EStateM.run_bind]
  cases x.run s <;> rfl

@[simp] theorem run_throw_any {α : Type} (e : DartError) (s : SessionState β) :
    (throw e : RatchetM β α).run s = .error e s := rfl

/-- A sequence that returns: its first part returned, and the rest from there. -/
theorem run_bind_ok {α γ : Type} {x : RatchetM β α} {f : α → RatchetM β γ} {s t : SessionState β} {c : γ}
    (h : (x >>= f).run s = .ok c t) : ∃ a u, x.run s = .ok a u ∧ (f a).run u = .ok c t := by
  rw [EStateM.run_bind] at h
  cases hx : x.run s with
  | ok a u => exact ⟨a, u, rfl, by simpa [hx] using h⟩
  | error e u => simp [hx] at h

/-! ## Chains -/

/-- The key of the chain that starts at `start`, after `n` messages. -/
def chainKeyAt (P : Primitives β) (start : List β) : Nat → List β
  | 0 => start
  | n + 1 => nextChainKey P (chainKeyAt P start n) n

/-- The keys of message `n` of a chain. -/
def chainKeys (P : Primitives β) (start : List β) (n : Nat) : MessageKeyBundle β :=
  messageKeysAt P (chainKeyAt P start n) n

theorem length_chainKeyAt (P : Primitives β) {start : List β} (h : start.length = 32) :
    ∀ n, (chainKeyAt P start n).length = 32
  | 0 => h
  | _ + 1 => length_nextChainKey _ _ _

theorem derive_chainKeyAt (P : Primitives β) {start : List β} (h : start.length = 32) {n : Nat}
    (hn : n ≤ 0xFFFFFFFF) :
    MessageKeys.derive P (chainKeyAt P start n) (n : Int) =
      .ok (chainKeys P start n, chainKeyAt P start (n + 1)) :=
  MessageKeys.derive_ok P (length_chainKeyAt P h n) hn

/-- A step that succeeds had a counter of 32 bits. -/
theorem MessageKeys.derive_counter_le {P : Primitives β} {ck : List β} {n : Nat}
    {r : MessageKeyBundle β × List β} (h : MessageKeys.derive P ck (n : Int) = .ok r) : n ≤ 0xFFFFFFFF := by
  by_contra hn
  have hc : (n : Int) < 0 ∨ (n : Int) > 0xFFFFFFFF := by omega
  unfold MessageKeys.derive at h
  by_cases hck : ck.length = MessageKeys.keyLength
  · simp only [hck, ne_eq, not_true_eq_false, if_false, if_pos hc] at h
    cases h
  · simp only [hck, ne_eq, not_false_eq_true, if_true] at h
    cases h

/-- The new root key of a DH ratchet. -/
def kdfRoot (P : Primitives β) (root dhOut : List β) : List β := (Hkdf.derive64 P root dhOut).take 32

/-- The new chain key of a DH ratchet. -/
def kdfChain (P : Primitives β) (root dhOut : List β) : List β := ((Hkdf.derive64 P root dhOut).drop 32).take 32

@[simp] theorem length_kdfChain (P : Primitives β) (root dhOut : List β) : (kdfChain P root dhOut).length = 32 := by
  simp [kdfChain, Hkdf.derive64]

@[simp] theorem length_kdfRoot (P : Primitives β) (root dhOut : List β) : (kdfRoot P root dhOut).length = 32 := by
  simp [kdfRoot, Hkdf.derive64]

/-- What every session has in common: the key lengths, and a key pair that is one. -/
structure SessionState.Ok (P : Primitives β) (s : SessionState β) : Prop where
  ourPrivateKey_length : s.ourPrivateKey.length = 32
  ourPublicKey_eq : s.ourPublicKey = P.x25519Public s.ourPrivateKey
  remotePublicKey_length : s.remotePublicKey.length = 32
  spqrSeed_length : s.spqrSeed.length = 32

theorem SessionState.Ok.ourPublicKey_length {P : Primitives β} {s : SessionState β} (h : s.Ok P) :
    s.ourPublicKey.length = 32 := by rw [h.ourPublicKey_eq]; simp

/-- The sending chain of `s` starts at `start` and has `n` messages; the chain before it had `p`. -/
structure SendAt (P : Primitives β) (s : SessionState β) (start : List β) (n p : Nat) : Prop where
  start_length : start.length = 32
  key : s.sendChainKey = chainKeyAt P start n
  counter : s.sendCounter = n
  prev : s.prevSendChainLength = p

/-- The receiving chain of `s` starts at `start`, and message `n` is the next one expected. -/
structure RecvAt (P : Primitives β) (s : SessionState β) (start : List β) (n : Nat) : Prop where
  start_length : start.length = 32
  key : s.recvChainKey = chainKeyAt P start n
  counter : s.recvCounter = n

/-! ## Opening a session -/

/-- The 96 bytes from which both sides take the root key and their first chains. -/
def initSeed (P : Primitives β) (sharedSecret dhOut : List β) : List β :=
  P.hkdf sharedSecret (some dhOut) (some (utf8Encode "Chhaya-DR-init-v1")) 96

/-- The first sending chain of the initiator. -/
def chainA (P : Primitives β) (sharedSecret dhOut : List β) : List β :=
  ((initSeed P sharedSecret dhOut).drop 32).take 32

/-- The chain that the initiator starts to receive on. No responder ever sends on it. -/
def chainB (P : Primitives β) (sharedSecret dhOut : List β) : List β :=
  ((initSeed P sharedSecret dhOut).drop 64).take 32

@[simp] theorem length_chainA (P : Primitives β) (sharedSecret dhOut : List β) :
    (chainA P sharedSecret dhOut).length = 32 := by simp [chainA, initSeed]

@[simp] theorem length_chainB (P : Primitives β) (sharedSecret dhOut : List β) :
    (chainB P sharedSecret dhOut).length = 32 := by simp [chainB, initSeed]

/-- A new session with the key pair of `priv`. -/
def openedSession (P : Primitives β) (peerId : String) (initiator : Bool) (sharedSecret : List β) (remote : Bytes)
    (priv : List β) : SessionState β :=
  let dhOut := P.x25519 priv remote
  { peerId
    initiatedByUs := initiator
    rootKey := (initSeed P sharedSecret dhOut).take 32
    sendChainKey := if initiator then chainA P sharedSecret dhOut else zeros P 32
    sendInitialized := initiator
    recvChainKey := if initiator then chainB P sharedSecret dhOut else chainA P sharedSecret dhOut
    ourPrivateKey := priv
    ourPublicKey := P.x25519Public priv
    remotePublicKey := remote
    spqrSeed := P.hkdf sharedSecret none (some (utf8Encode "Chhaya-SPQR-seed-v1")) 32 }

theorem openedSession_ok (P : Primitives β) (peerId : String) (initiator : Bool) (sharedSecret : List β)
    {remote : Bytes} {priv : List β} (hp : priv.length = 32) (hr : remote.length = 32) :
    (openedSession P peerId initiator sharedSecret remote priv).Ok P :=
  ⟨hp, rfl, hr, P.length_hkdf _ _ _ _⟩

/-- A session opened with a given key pair. -/
theorem DoubleRatchet.initSession_run (P : Primitives β) (peerId : String) (initiator : Bool) {sharedSecret : List β}
    {remote : Bytes} {priv : List β} (fresh : X25519Seed β) (hs : 32 ≤ sharedSecret.length) (hr : remote.length = 32)
    (hp : priv.length = 32) :
    DoubleRatchet.initSession P peerId initiator sharedSecret remote (some priv) fresh =
      .ok (openedSession P peerId initiator sharedSecret remote priv) := by
  have h1 : ¬sharedSecret.length < 32 := by omega
  simp only [initSession, h1, hr, ourKeyPair, hp, X25519Kex.keyLength, X25519Kex.sharedSecret_ok P hp hr,
    Hkdf.deriveKey, bind, Except.bind, ne_eq, not_true_eq_false, if_false]
  rfl

/-- The same for a verified peer. -/
theorem TripleRatchet.startSession_run (P : Primitives β) (peer : Contact) (hv : peer.isVerified = true)
    (initiator : Bool) {sharedSecret : List β} {remote : Bytes} {priv : List β} (fresh : X25519Seed β)
    (hs : 32 ≤ sharedSecret.length) (hr : remote.length = 32) (hp : priv.length = 32) :
    TripleRatchet.startSession P peer remote sharedSecret initiator (some priv) fresh =
      .ok (openedSession P peer.id initiator sharedSecret remote priv) := by
  rw [startSession, if_pos hv, DoubleRatchet.initSession_run P peer.id initiator fresh hs hr hp]

/-- A session that was opened has a key pair of 32 bytes and a peer key of 32 bytes. -/
theorem DoubleRatchet.initSession_ok {P : Primitives β} {peerId : String} {initiator : Bool} {sharedSecret : List β}
    {remote : Bytes} {ours : Option (List β)} {fresh : X25519Seed β} {s : SessionState β}
    (h : DoubleRatchet.initSession P peerId initiator sharedSecret remote ours fresh = .ok s) :
    ∃ priv, priv.length = 32 ∧ remote.length = 32 ∧ s = openedSession P peerId initiator sharedSecret remote priv := by
  have hs : ¬sharedSecret.length < 32 := fun hs => by
    simp [initSession, hs, bind, Except.bind, throw, throwThe, MonadExceptOf.throw] at h
  have hr : remote.length = 32 := by
    by_contra hr
    simp [initSession, hs, hr, X25519Kex.keyLength, bind, Except.bind, throw, throwThe, MonadExceptOf.throw] at h
  have main : ∀ priv, priv.length = 32 → ourKeyPair P ours fresh = .ok (P.x25519Public priv, priv) →
      s = openedSession P peerId initiator sharedSecret remote priv := fun priv hp hk => by
    have he := initSession_run P peerId initiator fresh (Nat.not_lt.mp hs) hr hp
    have hk' : ourKeyPair P (some priv) fresh = .ok (P.x25519Public priv, priv) := by
      simp [ourKeyPair, hp, X25519Kex.keyLength]
    rw [initSession, hk'] at he
    rw [initSession, hk, he] at h
    exact (Except.ok.inj h).symm
  cases ours with
  | none => exact ⟨fresh.1, fresh.2, hr, main _ fresh.2 rfl⟩
  | some k =>
    by_cases hk : k.length = 32
    · exact ⟨k, hk, hr, main k hk (by simp [ourKeyPair, hk, X25519Kex.keyLength])⟩
    · simp [initSession, hs, hr, ourKeyPair, hk, X25519Kex.keyLength, bind, Except.bind] at h

/-! ## Sending -/

/-- The session after the responder's first-send ratchet. -/
def SessionState.firstSent (P : Primitives β) (s : SessionState β) (fresh : List β) : SessionState β :=
  { s with
    ourPrivateKey := fresh
    ourPublicKey := P.x25519Public fresh
    rootKey := kdfRoot P s.rootKey (P.x25519 fresh s.remotePublicKey)
    sendChainKey := kdfChain P s.rootKey (P.x25519 fresh s.remotePublicKey)
    prevSendChainLength := s.sendCounter
    sendInitialized := true }

/-- The session after sending message `n` of the chain from `start`. -/
def SessionState.sent (P : Primitives β) (s : SessionState β) (start : List β) (n : Nat) : SessionState β :=
  { s with sendChainKey := chainKeyAt P start (n + 1), sendCounter := (n : Int) + 1 }

theorem SendAt.sent {P : Primitives β} {s : SessionState β} {start : List β} {n p : Nat} (h : SendAt P s start n p)
    (e : Int) : SendAt P { s.sent P start n with spqrEpoch := e } start (n + 1) p :=
  ⟨h.start_length, rfl, by simp [SessionState.sent], h.prev⟩

namespace DoubleRatchet

theorem firstSendRatchet_run (P : Primitives β) (fresh : X25519Seed β) {s : SessionState β}
    (hr : s.remotePublicKey.length = 32) :
    (firstSendRatchet P fresh).run s = .ok () (s.firstSent P fresh.1) := by
  simp [firstSendRatchet, X25519Kex.generateKeyPair, X25519Kex.sharedSecret_ok P fresh.2 hr,
    SessionState.firstSent, kdfRoot, kdfChain]

/-- Sending on a live chain. -/
theorem encrypt_run {P : Primitives β} {s : SessionState β} {start : List β} {n p : Nat} (fresh : X25519Seed β)
    (hi : s.sendInitialized = true) (hs : SendAt P s start n p) (hl : s.ourPublicKey.length = 32)
    (hn : n ≤ 0xFFFFFFFF) :
    (encrypt P fresh).run s = .ok (⟨s.ourPublicKey, p, n, hl⟩, chainKeys P start n) (s.sent P start n) := by
  have hk := derive_chainKeyAt P hs.start_length hn
  have hc := RatchetHeader.create_ok hl p n
  simp [encrypt, hi, hs.key, hs.counter, hs.prev, hk, hc, SessionState.sent]

/-- A chain whose counter has left 32 bits cannot send; nothing has changed by then. -/
theorem encrypt_overflow {P : Primitives β} {s : SessionState β} {start : List β} {n p : Nat} (fresh : X25519Seed β)
    (hi : s.sendInitialized = true) (hs : SendAt P s start n p) (hn : 0xFFFFFFFF < n) :
    ∃ e, (encrypt P fresh).run s = .error e s := by
  cases hd : MessageKeys.derive P s.sendChainKey s.sendCounter with
  | ok r =>
    rw [hs.counter] at hd
    exact absurd (MessageKeys.derive_counter_le hd) (by omega)
  | error e => exact ⟨e, by simp [encrypt, hi, hd]⟩

/-- The first send of a responder is a send after the first-send ratchet. -/
theorem encrypt_first {P : Primitives β} {s : SessionState β} (fresh : X25519Seed β)
    (hi : s.sendInitialized = false) (hr : s.remotePublicKey.length = 32) :
    (encrypt P fresh).run s = (encrypt P fresh).run (s.firstSent P fresh.1) := by
  have h := firstSendRatchet_run P fresh hr
  have hf : (s.firstSent P fresh.1).sendInitialized = true := rfl
  simp [encrypt, hi, h, hf]

end DoubleRatchet

/-! ## Staging skipped keys -/

/-- The cache after staging messages `c`, ..., `c + k - 1` of the chain from `start` filed under `dh`. -/
def stageKeys (P : Primitives β) (start : List β) (dh : Bytes) (c : Nat) :
    Nat → DartMap String (MessageKeyBundle β) → DartMap String (MessageKeyBundle β)
  | 0, m => m
  | k + 1, m => (stageKeys P start dh c k m).insert (skipKey dh (c + k : Nat)) (chainKeys P start (c + k))

/-- What the staged cache holds: the new keys, and else what it held. -/
theorem lookup_stageKeys (P : Primitives β) (start : List β) (dh : Bytes) (c : Nat) (A : Bytes) (n : Nat)
    (m : DartMap String (MessageKeyBundle β)) : ∀ k,
    (stageKeys P start dh c k m).lookup (skipKey A n) =
      if A = dh ∧ c ≤ n ∧ n < c + k then some (chainKeys P start n) else m.lookup (skipKey A n)
  | 0 => by
    have h : ¬(A = dh ∧ c ≤ n ∧ n < c + 0) := by omega
    rw [if_neg h]; rfl
  | k + 1 => by
    rw [stageKeys]
    by_cases h : A = dh ∧ n = c + k
    · obtain ⟨rfl, rfl⟩ := h
      rw [AList.lookup_insert, if_pos ⟨rfl, by omega, by omega⟩]
    · have hne : skipKey A n ≠ skipKey dh (c + k : Nat) := fun e => h (skipKey_inj e)
      rw [AList.lookup_insert_ne hne, lookup_stageKeys P start dh c A n m k]
      by_cases hA : A = dh
      · have hn : n ≠ c + k := fun e => h ⟨hA, e⟩
        simp only [hA, true_and]
        exact if_congr (by omega) rfl rfl
      · simp [hA]

/-- Every key of the staged cache is new, or was there. -/
theorem lookup_stageKeys_some {P : Primitives β} {start : List β} {dh : Bytes} {c : Nat} {x : String}
    {v : MessageKeyBundle β} {m : DartMap String (MessageKeyBundle β)} : ∀ {k},
    (stageKeys P start dh c k m).lookup x = some v →
      (∃ n, c ≤ n ∧ n < c + k ∧ x = skipKey dh n ∧ v = chainKeys P start n) ∨ m.lookup x = some v
  | 0, h => Or.inr h
  | k + 1, h => by
    rw [stageKeys] at h
    by_cases hx : x = skipKey dh (c + k : Nat)
    · rw [hx, AList.lookup_insert, Option.some.injEq] at h
      exact Or.inl ⟨c + k, by omega, by omega, hx, h.symm⟩
    · rw [AList.lookup_insert_ne hx] at h
      rcases lookup_stageKeys_some h with ⟨n, h1, h2, h3⟩ | h
      · exact Or.inl ⟨n, h1, by omega, h3⟩
      · exact Or.inr h

theorem length_keys_insert_le {V : Type} (m : DartMap String V) (x : String) (v : V) :
    (m.insert x v).keys.length ≤ m.keys.length + 1 := by
  rw [AList.keys_insert]
  have := List.length_erase_le (a := x) (l := m.keys)
  simp only [List.length_cons]; omega

theorem length_stageKeys_le (P : Primitives β) (start : List β) (dh : Bytes) (c : Nat)
    (m : DartMap String (MessageKeyBundle β)) : ∀ k, (stageKeys P start dh c k m).keys.length ≤ m.keys.length + k
  | 0 => Nat.le_refl _
  | k + 1 => by
    have h1 := length_keys_insert_le (stageKeys P start dh c k m) (skipKey dh (c + k : Nat)) (chainKeys P start (c + k))
    have h2 := length_stageKeys_le P start dh c m k
    rw [stageKeys]; omega

/-- Staging one message and then `k` more stages `k + 1`. -/
theorem stageKeys_succ (P : Primitives β) (start : List β) (dh : Bytes) (c : Nat)
    (m : DartMap String (MessageKeyBundle β)) : ∀ k,
    stageKeys P start dh (c + 1) k (m.insert (skipKey dh c) (chainKeys P start c)) = stageKeys P start dh c (k + 1) m
  | 0 => rfl
  | k + 1 => by
    have h : c + 1 + k = c + (k + 1) := by omega
    rw [stageKeys, stageKeys_succ P start dh c m k, stageKeys, stageKeys, stageKeys, h]

/-- The session after staging `k` messages from `c` on. -/
def SessionState.staged (P : Primitives β) (s : SessionState β) (start : List β) (c k : Nat) : SessionState β :=
  { s with
    recvChainKey := chainKeyAt P start (c + k)
    recvCounter := ((c + k : Nat) : Int)
    skipped := stageKeys P start s.remotePublicKey c k s.skipped }

/-- Nothing staged. -/
theorem SessionState.staged_zero {P : Primitives β} {s : SessionState β} {start : List β} {c : Nat}
    (h : RecvAt P s start c) : s.staged P start c 0 = s := by
  cases s
  simp only [SessionState.staged, Nat.add_zero, stageKeys, ← h.key, ← h.counter]

theorem RecvAt.staged {P : Primitives β} {s : SessionState β} {start : List β} {c : Nat} (h : RecvAt P s start c)
    (k : Nat) : RecvAt P (s.staged P start c k) start (c + k) := ⟨h.start_length, rfl, rfl⟩

/-- One message staged, then `k` more. -/
theorem SessionState.staged_succ (P : Primitives β) (s : SessionState β) (start : List β) (c k : Nat) :
    (s.staged P start c 1).staged P start (c + 1) k = s.staged P start c (k + 1) := by
  have h : c + 1 + k = c + (k + 1) := by omega
  simp only [SessionState.staged, h]
  rw [show stageKeys P start s.remotePublicKey c 1 s.skipped
    = s.skipped.insert (skipKey s.remotePublicKey c) (chainKeys P start c) from rfl, stageKeys_succ]

namespace DoubleRatchet

theorem stageSkipped_run {P : Primitives β} {s : SessionState β} {start : List β} {c : Nat} (h : RecvAt P s start c)
    (hc : c ≤ 0xFFFFFFFF) (hm : s.skipped.keys.length < maxSkippedTotal) :
    (stageSkipped P s.recvCounter).run s = .ok () { s.staged P start c 1 with recvCounter := c } := by
  have hk := derive_chainKeyAt P h.start_length hc
  simp [stageSkipped, h.key, h.counter, hk, Nat.not_le.mpr hm, SessionState.staged, stageKeys]

/-- A staging step that returns passed the checks of `stageSkipped_run`. -/
theorem stageSkipped_inv {P : Primitives β} {s t : SessionState β} {start : List β} {c : Nat}
    (h : RecvAt P s start c) (hr : (stageSkipped P s.recvCounter).run s = .ok () t) :
    c ≤ 0xFFFFFFFF ∧ s.skipped.keys.length < maxSkippedTotal := by
  by_cases hm : s.skipped.keys.length ≥ maxSkippedTotal
  · simp [stageSkipped, hm] at hr
  · refine ⟨?_, Nat.not_le.mp hm⟩
    cases hd : MessageKeys.derive P s.recvChainKey (c : Int) with
    | ok r => exact MessageKeys.derive_counter_le hd
    | error e => simp [stageSkipped, hm, h.counter, hd] at hr

/-- The staging loop, when the gap keeps to the limit and the cache has room. -/
theorem stageUntil_run {P : Primitives β} {start : List β} {t : Nat} (limit : Option Int) (ht : t ≤ 2 ^ 32) :
    ∀ {k c : Nat} {s : SessionState β} (staged : Int), k = t - c → RecvAt P s start c →
      s.skipped.keys.length + k ≤ maxSkippedTotal → (∀ l ∈ limit, staged + k ≤ l) →
      (stageUntil P t limit k staged).run s = .ok () (s.staged P start c k) := by
  intro k
  induction k with
  | zero =>
    intro c s staged hk h hm hl
    rw [SessionState.staged_zero h]; rfl
  | succ k ih =>
    intro c s staged hk h hm hl
    have hct : s.recvCounter < (t : Int) := by rw [h.counter]; omega
    have h1 := stageSkipped_run h (by omega) (by omega)
    have hlim : limit.any (fun l => decide (l < staged + 1)) = false := by
      cases limit with
      | none => rfl
      | some l =>
        have := hl l rfl
        simp only [Option.any_some, decide_eq_false_iff_not]; push_cast at this; omega
    have hsz : (s.staged P start c 1).skipped.keys.length ≤ s.skipped.keys.length + 1 :=
      length_stageKeys_le P start s.remotePublicKey c s.skipped 1
    have h2 := ih (s := s.staged P start c 1) (staged + 1) (show k = t - (c + 1) by omega) (h.staged 1)
      (by omega) (fun l hl' => by have := hl l hl'; push_cast at this; omega)
    rw [SessionState.staged_succ] at h2
    have hinc : ({ s.staged P start c 1 with recvCounter := (c : Int) + 1 } : SessionState β)
        = s.staged P start c 1 := rfl
    simp only [stageUntil, EStateM.run_bind, EStateM.run_get, hct, if_true, h1, EStateM.run_modify, hlim, hinc,
      Bool.false_eq_true, if_false, h2]

/-- A staging loop that returns staged everything up to its target, within the limit. -/
theorem stageUntil_inv {P : Primitives β} {start : List β} {t : Nat} {limit : Option Int} :
    ∀ {k c : Nat} {s s' : SessionState β} {staged : Int}, k = t - c → RecvAt P s start c →
      (stageUntil P t limit k staged).run s = .ok () s' →
      s' = s.staged P start c k ∧ (0 < k → t ≤ 2 ^ 32 ∧ ∀ l ∈ limit, staged + k ≤ l) := by
  intro k
  induction k with
  | zero =>
    intro c s s' staged hk h hr
    rw [SessionState.staged_zero h]
    exact ⟨by simpa [stageUntil] using hr.symm, fun h => absurd h (Nat.lt_irrefl 0)⟩
  | succ k ih =>
    intro c s s' staged hk h hr
    have hct : s.recvCounter < (t : Int) := by rw [h.counter]; omega
    have hinc : ({ s.staged P start c 1 with recvCounter := (c : Int) + 1 } : SessionState β)
        = s.staged P start c 1 := rfl
    cases h1 : (stageSkipped P s.recvCounter).run s with
    | error e u => simp [stageUntil, hct, h1] at hr
    | ok a u =>
      obtain ⟨hc, hm⟩ := stageSkipped_inv h h1
      rw [stageSkipped_run h hc hm] at h1
      obtain rfl : { s.staged P start c 1 with recvCounter := (c : Int) } = u := by simpa using h1
      by_cases hlim : limit.any (fun l => decide (l < staged + 1)) = true
      · simp only [stageUntil, EStateM.run_bind, EStateM.run_get, hct, if_true, stageSkipped_run h hc hm,
          EStateM.run_modify, hlim] at hr
        cases hr
      · rw [Bool.not_eq_true] at hlim
        simp only [stageUntil, EStateM.run_bind, EStateM.run_get, hct, if_true, stageSkipped_run h hc hm,
          EStateM.run_modify, hlim, hinc] at hr
        obtain ⟨hs', hb⟩ := ih (by omega) (h.staged 1) hr
        rw [SessionState.staged_succ] at hs'
        refine ⟨hs', fun _ => ⟨?_, fun l hl => ?_⟩⟩
        · rcases Nat.eq_zero_or_pos k with rfl | hk0
          · omega
          · exact (hb hk0).1
        · have h0 : ¬l < staged + 1 := by rw [hl] at hlim; simpa using hlim
          rcases Nat.eq_zero_or_pos k with rfl | hk0
          · push_cast; omega
          · have := (hb hk0).2 l hl
            push_cast; omega

/-! ## The DH ratchet -/

end DoubleRatchet

/-- The session after both halves of a DH ratchet to the peer's key `dh`. -/
def SessionState.ratcheted (P : Primitives β) (s : SessionState β) (dh : Bytes) (fresh : List β) : SessionState β :=
  let root := kdfRoot P s.rootKey (P.x25519 s.ourPrivateKey dh)
  { s with
    rootKey := kdfRoot P root (P.x25519 fresh dh)
    recvChainKey := kdfChain P s.rootKey (P.x25519 s.ourPrivateKey dh)
    sendChainKey := kdfChain P root (P.x25519 fresh dh)
    remotePublicKey := dh
    recvGeneration := int64 (s.recvGeneration + 1)
    recvCounter := 0
    ourPrivateKey := fresh
    ourPublicKey := P.x25519Public fresh
    prevSendChainLength := s.sendCounter
    sendCounter := 0 }

/-- The first key of the receiving chain that a ratchet to `dh` opens. -/
def SessionState.nextStart (P : Primitives β) (s : SessionState β) (dh : Bytes) : List β :=
  kdfChain P s.rootKey (P.x25519 s.ourPrivateKey dh)

theorem RecvAt.ratcheted (P : Primitives β) (s : SessionState β) (dh : Bytes) (fresh : List β) :
    RecvAt P (s.ratcheted P dh fresh) (s.nextStart P dh) 0 := ⟨length_kdfChain _ _ _, rfl, rfl⟩

/-- The session after receiving message `n` on the chain from `start`, the messages from `c` to `n - 1` staged. -/
def SessionState.received (P : Primitives β) (s : SessionState β) (start : List β) (c n : Nat) : SessionState β :=
  { s.staged P start c (n - c) with recvChainKey := chainKeyAt P start (n + 1), recvCounter := (n : Int) + 1 }

theorem RecvAt.received {P : Primitives β} {s : SessionState β} {start : List β} {c : Nat} (h : RecvAt P s start c)
    (n : Nat) : RecvAt P (s.received P start c n) start (n + 1) := ⟨h.start_length, rfl, rfl⟩

namespace DoubleRatchet

/-- A ratchet whose gap and cache fit. -/
theorem dhRatchet_run {P : Primitives β} {s : SessionState β} {start : List β} {c : Nat} (fresh : X25519Seed β)
    {h : RatchetHeader} (hs : s.Ok P) (hr : RecvAt P s start c) (hp : h.prevChainLength ≤ 2 ^ 32)
    (hgap : h.prevChainLength ≤ c + 1000) (hm : s.skipped.keys.length + (h.prevChainLength - c) ≤ maxSkippedTotal) :
    (dhRatchet P fresh h).run s =
      .ok () ((s.staged P start c (h.prevChainLength - c)).ratcheted P h.dhPublicKey fresh.1) := by
  have hk : ((h.prevChainLength : Int) - s.recvCounter).toNat = h.prevChainLength - c := by rw [hr.counter]; omega
  have h1 := stageUntil_run (some maxSkip) hp 0 rfl hr hm
    (fun l hl => by cases hl; simp only [maxSkip]; omega)
  have hd1 := X25519Kex.sharedSecret_ok P hs.ourPrivateKey_length h.dhPublicKey_length
  have hd2 := X25519Kex.sharedSecret_ok P fresh.2 h.dhPublicKey_length
  simp only [dhRatchet, EStateM.run_bind, EStateM.run_get, hk, h1]
  simp [SessionState.staged, hd1, hd2, X25519Kex.generateKeyPair, SessionState.ratcheted, kdfRoot, kdfChain]

/-- A ratchet that returns kept to the gap. -/
theorem dhRatchet_inv {P : Primitives β} {s s' : SessionState β} {start : List β} {c : Nat} {fresh : X25519Seed β}
    {h : RatchetHeader} (hs : s.Ok P) (hr : RecvAt P s start c) (hrun : (dhRatchet P fresh h).run s = .ok () s') :
    s' = (s.staged P start c (h.prevChainLength - c)).ratcheted P h.dhPublicKey fresh.1 ∧
      h.prevChainLength ≤ c + 1000 ∧ (c < h.prevChainLength → h.prevChainLength ≤ 2 ^ 32) := by
  have hk : ((h.prevChainLength : Int) - s.recvCounter).toNat = h.prevChainLength - c := by rw [hr.counter]; omega
  have hd1 := X25519Kex.sharedSecret_ok P hs.ourPrivateKey_length h.dhPublicKey_length
  have hd2 := X25519Kex.sharedSecret_ok P fresh.2 h.dhPublicKey_length
  simp only [dhRatchet, EStateM.run_bind, EStateM.run_get, hk] at hrun
  cases h1 : (stageUntil P h.prevChainLength (some maxSkip) (h.prevChainLength - c) 0).run s with
  | error e u => simp [h1] at hrun
  | ok a u =>
    obtain ⟨rfl, hb⟩ := stageUntil_inv rfl hr h1
    refine ⟨?_, ?_, fun hc => (hb (by omega)).1⟩
    · simp [h1, SessionState.staged, hd1, hd2, X25519Kex.generateKeyPair] at hrun
      rw [← hrun]
      rfl
    · rcases Nat.eq_zero_or_pos (h.prevChainLength - c) with h0 | h0
      · omega
      · have := (hb h0).2 maxSkip rfl
        simp only [maxSkip] at this; omega

/-! ## Receiving -/

theorem receive_run {P : Primitives β} {s : SessionState β} {start : List β} {c n : Nat} (hr : RecvAt P s start c)
    (hc : c ≤ n) (hn : n ≤ 0xFFFFFFFF) (hgap : n ≤ c + 1000) (hm : s.skipped.keys.length + (n - c) ≤ maxSkippedTotal) :
    (receive P (n : Int)).run s = .ok (chainKeys P start n) (s.received P start c n) := by
  have hk : ((n : Int) - c).toNat = n - c := by omega
  have h1 : ¬(n : Int) < c := by omega
  have h2 : ¬(n : Int) - c > maxSkip := by simp only [maxSkip]; omega
  have h3 := stageUntil_run none (show n ≤ 2 ^ 32 by omega) 0 rfl hr hm (by simp)
  have hcn : c + (n - c) = n := by omega
  have h4 := derive_chainKeyAt P hr.start_length hn
  simp only [receive, EStateM.run_bind, EStateM.run_get, hr.counter, if_neg h1, if_neg h2, hk, h3]
  simp [SessionState.staged, hcn, h4, SessionState.received]

/-- A receive that returns passed the guards. -/
theorem receive_inv {P : Primitives β} {s s' : SessionState β} {start : List β} {c n : Nat} {k : MessageKeyBundle β}
    (hr : RecvAt P s start c) (hrun : (receive P (n : Int)).run s = .ok k s') :
    c ≤ n ∧ n ≤ 0xFFFFFFFF ∧ n ≤ c + 1000 ∧ k = chainKeys P start n ∧ s' = s.received P start c n := by
  have hk : ((n : Int) - c).toNat = n - c := by omega
  simp only [receive, EStateM.run_bind, EStateM.run_get, hr.counter, hk] at hrun
  by_cases h1 : (n : Int) < c
  · simp [h1] at hrun
  by_cases h2 : (n : Int) - c > maxSkip
  · simp [h1, h2] at hrun
  have hcn : c + (n - c) = n := by omega
  cases h3 : (stageUntil P n none (n - c) 0).run s with
  | error e u => simp [h1, h2, h3] at hrun
  | ok a u =>
    obtain ⟨rfl, -⟩ := stageUntil_inv rfl hr h3
    cases h4 : MessageKeys.derive P (chainKeyAt P start n) (n : Int) with
    | error e => simp [h1, h2, h3, SessionState.staged, hcn, h4] at hrun
    | ok r =>
      have hn := MessageKeys.derive_counter_le h4
      rw [derive_chainKeyAt P hr.start_length hn] at h4
      cases h4
      simp [h1, h2, h3, SessionState.staged, hcn, derive_chainKeyAt P hr.start_length hn] at hrun
      refine ⟨by omega, hn, by simp only [maxSkip] at h2; omega, hrun.1.symm, ?_⟩
      rw [← hrun.2]
      simp [SessionState.received, SessionState.staged, hcn]

/-- A cached key is used once. -/
theorem decrypt_cached (P : Primitives β) {s : SessionState β} (fresh : X25519Seed β) {h : RatchetHeader}
    {k : MessageKeyBundle β} (hl : s.skipped.lookup (skipKey h.dhPublicKey h.messageNumber) = some k) :
    (decrypt P fresh h).run s =
      .ok k { s with skipped := s.skipped.erase (skipKey h.dhPublicKey h.messageNumber) } := by
  simp [decrypt, hl]

/-- A message on the current chain. -/
theorem decrypt_current {P : Primitives β} {s : SessionState β} {start : List β} {c : Nat} (fresh : X25519Seed β)
    {h : RatchetHeader} (hl : s.skipped.lookup (skipKey h.dhPublicKey h.messageNumber) = none)
    (hd : h.dhPublicKey = s.remotePublicKey) (hr : RecvAt P s start c) (hc : c ≤ h.messageNumber)
    (hn : h.messageNumber ≤ 0xFFFFFFFF) (hgap : h.messageNumber ≤ c + 1000)
    (hm : s.skipped.keys.length + (h.messageNumber - c) ≤ maxSkippedTotal) :
    (decrypt P fresh h).run s =
      .ok (chainKeys P start h.messageNumber) (s.received P start c h.messageNumber) := by
  simp [decrypt, hl, hd, receive_run hr hc hn hgap hm]

/-- A message on a chain not seen before. -/
theorem decrypt_ratchet {P : Primitives β} {s : SessionState β} {start : List β} {c : Nat} (fresh : X25519Seed β)
    {h : RatchetHeader} (hl : s.skipped.lookup (skipKey h.dhPublicKey h.messageNumber) = none)
    (hd : h.dhPublicKey ≠ s.remotePublicKey) (hs : s.Ok P) (hr : RecvAt P s start c)
    (hp : h.prevChainLength ≤ 2 ^ 32) (hpc : h.prevChainLength ≤ c + 1000) (hn : h.messageNumber ≤ 1000)
    (hm : s.skipped.keys.length + (h.prevChainLength - c) + h.messageNumber ≤ maxSkippedTotal) :
    (decrypt P fresh h).run s =
      .ok (chainKeys P (s.nextStart P h.dhPublicKey) h.messageNumber)
        (((s.staged P start c (h.prevChainLength - c)).ratcheted P h.dhPublicKey fresh.1).received P
          (s.nextStart P h.dhPublicKey) 0 h.messageNumber) := by
  have h1 := dhRatchet_run fresh hs hr hp hpc (by omega)
  have hst := length_stageKeys_le P start s.remotePublicKey c s.skipped (h.prevChainLength - c)
  have h2 := receive_run (n := h.messageNumber)
    (RecvAt.ratcheted P (s.staged P start c (h.prevChainLength - c)) h.dhPublicKey fresh.1)
    (Nat.zero_le _) (by omega) (by omega) (by
      show (stageKeys P start s.remotePublicKey c (h.prevChainLength - c) s.skipped).keys.length + _ ≤ _
      omega)
  simp only [decrypt, EStateM.run_bind, EStateM.run_get, hl, ne_eq, hd, not_false_eq_true, if_true, h1, h2]
  rfl

/-- What a `decrypt` that returns did: it took a cached key, or the current chain, or a ratchet. -/
theorem decrypt_cases {P : Primitives β} {s s' : SessionState β} {start : List β} {c : Nat} {fresh : X25519Seed β}
    {h : RatchetHeader} {k : MessageKeyBundle β} (hs : s.Ok P) (hr : RecvAt P s start c)
    (hrun : (decrypt P fresh h).run s = .ok k s') :
    (s.skipped.lookup (skipKey h.dhPublicKey h.messageNumber) = some k ∧
      s' = { s with skipped := s.skipped.erase (skipKey h.dhPublicKey h.messageNumber) }) ∨
    (s.skipped.lookup (skipKey h.dhPublicKey h.messageNumber) = none ∧ h.dhPublicKey = s.remotePublicKey ∧
      c ≤ h.messageNumber ∧ h.messageNumber ≤ 0xFFFFFFFF ∧ k = chainKeys P start h.messageNumber ∧
      s' = s.received P start c h.messageNumber) ∨
    (s.skipped.lookup (skipKey h.dhPublicKey h.messageNumber) = none ∧ h.dhPublicKey ≠ s.remotePublicKey ∧
      h.messageNumber ≤ 0xFFFFFFFF ∧ (c < h.prevChainLength → h.prevChainLength ≤ 2 ^ 32) ∧
      k = chainKeys P (s.nextStart P h.dhPublicKey) h.messageNumber ∧
      s' = ((s.staged P start c (h.prevChainLength - c)).ratcheted P h.dhPublicKey fresh.1).received P
        (s.nextStart P h.dhPublicKey) 0 h.messageNumber) := by
  simp only [decrypt, EStateM.run_bind, EStateM.run_get] at hrun
  cases hl : s.skipped.lookup (skipKey h.dhPublicKey h.messageNumber) with
  | some k' =>
    simp [hl] at hrun
    obtain ⟨rfl, rfl⟩ := hrun
    exact Or.inl ⟨rfl, rfl⟩
  | none =>
    refine Or.inr ?_
    by_cases hd : h.dhPublicKey = s.remotePublicKey
    · simp only [hl, ne_eq, hd, not_true_eq_false, if_false] at hrun
      obtain ⟨h1, h2, -, h4, h5⟩ := receive_inv hr hrun
      exact Or.inl ⟨rfl, hd, h1, h2, h4, h5⟩
    · simp only [hl, ne_eq, hd, not_false_eq_true, if_true] at hrun
      obtain ⟨_, u, h1, hrun⟩ := run_bind_ok hrun
      obtain ⟨rfl, -, hp⟩ := dhRatchet_inv hs hr h1
      obtain ⟨-, h2, -, h4, h5⟩ := receive_inv (RecvAt.ratcheted P _ h.dhPublicKey fresh.1) hrun
      exact Or.inr ⟨rfl, hd, h2, hp, h4, h5⟩

/-- Receiving leaves the SPQR seed alone. -/
theorem decrypt_spqrSeed {P : Primitives β} {s s' : SessionState β} {start : List β} {c : Nat} {fresh : X25519Seed β}
    {h : RatchetHeader} {k : MessageKeyBundle β} (hs : s.Ok P) (hr : RecvAt P s start c)
    (hrun : (decrypt P fresh h).run s = .ok k s') : s'.spqrSeed = s.spqrSeed := by
  rcases decrypt_cases hs hr hrun with ⟨-, rfl⟩ | ⟨-, -, -, -, -, rfl⟩ | ⟨-, -, -, -, -, rfl⟩ <;> rfl

end DoubleRatchet

/-! ## The triple ratchet -/

/-- The bundle that `_combine` builds. -/
def combined (P : Primitives β) (dhKey spqrKey : List β) (messageNumber spqrEpoch : Nat) : MessageKeyBundle β :=
  let suffix := u32be messageNumber ++ u32be spqrEpoch
  let messageKey := P.hkdf (dhKey ++ spqrKey) none (some (utf8Encode "Chhaya-triple-v1" ++ suffix)) 32
  { messageKey
    nonce := (Hkdf.block P messageKey (utf8Encode "Chhaya-nonce-v1" ++ suffix)).take 12
    messageKey_length := P.length_hkdf _ _ _ _
    nonce_length := by simp }

/-- What message `n` of the chain from `start` is sealed with. -/
def sealKeys (P : Primitives β) (spqrSeed start : List β) (n : Nat) : MessageKeyBundle β :=
  combined P (chainKeys P start n).messageKey (spqrKeyAt P spqrSeed (n / 10)) n (n / 10)

namespace TripleRatchet

theorem combine_ok (P : Primitives β) (dhKey spqrKey : List β) (n e : Nat) :
    combine P dhKey spqrKey n e = .ok (combined P dhKey spqrKey n e) := by
  have h := Hkdf.expand_le_block P (combined P dhKey spqrKey n e).messageKey
    (utf8Encode "Chhaya-nonce-v1" ++ (u32be n ++ u32be e)) (n := 12) (by decide) (by decide)
  simp only [combined] at h
  have hd : Hkdf.deriveKey P (dhKey ++ spqrKey) 32 none (some (utf8Encode "Chhaya-triple-v1" ++
      (u32be n ++ u32be e))) = .ok (combined P dhKey spqrKey n e).messageKey := rfl
  simp only [combine, MessageKeys.keyLength, MessageKeys.nonceLength, List.append_assoc, hd, bind, Except.bind,
    combined, h]
  rw [MessageKeyBundle.create_ok (P.length_hkdf _ _ _ _) (by simp)]

/-- Sending on a live chain. -/
theorem encrypt_run {P : Primitives β} {s : SessionState β} {start : List β} {n p : Nat} (fresh : X25519Seed β)
    (hi : s.sendInitialized = true) (hs : SendAt P s start n p) (hok : s.Ok P) (hn : n ≤ 0xFFFFFFFF) :
    (encrypt P fresh).run s =
      .ok (⟨⟨s.ourPublicKey, p, n, hok.ourPublicKey_length⟩, n / 10, by omega⟩, sealKeys P s.spqrSeed start n)
        { s.sent P start n with spqrEpoch := (n / 10 : Nat) } := by
  have h1 := DoubleRatchet.encrypt_run fresh hi hs hok.ourPublicKey_length hn
  have h2 : ((n : Int) + 1 - 1).tdiv SpqrChain.advanceEvery = (n / 10 : Nat) := by
    rw [SpqrChain.advanceEvery, Int.add_sub_cancel]; exact Int.ofNat_tdiv n 10 |>.symm
  have h3 := SpqrChain.chainKeyFor_ok P (show 32 ≤ s.spqrSeed.length by rw [hok.spqrSeed_length])
    (show n / 10 ≤ 0xFFFFFFFF by omega)
  have h4 : TripleHeader.create ⟨s.ourPublicKey, p, n, hok.ourPublicKey_length⟩ ((n / 10 : Nat) : Int) =
      .ok ⟨⟨s.ourPublicKey, p, n, hok.ourPublicKey_length⟩, n / 10, by omega⟩ := by
    have h : ¬(((n / 10 : Nat) : Int) < 0 ∨ ((n / 10 : Nat) : Int) > 0xFFFFFFFF) := by omega
    rw [TripleHeader.create, dif_neg h]
    rfl
  have h5 : ((n : Int) + 1 - 1).toNat = n := by omega
  simp only [encrypt, EStateM.run_bind, EStateM.run_get, EStateM.run_modify, h1, SessionState.sent, h2, h3, h4, h5,
    run_lift_ok, combine_ok, Int.toNat_natCast]
  rfl

/-- The first send of a responder. -/
theorem encrypt_first {P : Primitives β} {s : SessionState β} (fresh : X25519Seed β)
    (hi : s.sendInitialized = false) (hr : s.remotePublicKey.length = 32) :
    (encrypt P fresh).run s = (encrypt P fresh).run (s.firstSent P fresh.1) := by
  simp only [encrypt, EStateM.run_bind, DoubleRatchet.encrypt_first fresh hi hr]

/-- A send on a live chain that returns had a counter of 32 bits. -/
theorem encrypt_live_inv {P : Primitives β} {s s' : SessionState β} {start : List β} {n p : Nat} {fresh : X25519Seed β}
    {w : TripleHeader × MessageKeyBundle β} (hi : s.sendInitialized = true) (hs : SendAt P s start n p) (hok : s.Ok P)
    (hrun : (encrypt P fresh).run s = .ok w s') :
    n ≤ 0xFFFFFFFF ∧ w.1.dh.dhPublicKey = s.ourPublicKey ∧ w.1.dh.prevChainLength = p ∧ w.1.dh.messageNumber = n ∧
      w.1.spqrEpoch = n / 10 ∧ w.2 = sealKeys P s.spqrSeed start n ∧
      s' = { s.sent P start n with spqrEpoch := (n / 10 : Nat) } := by
  by_cases hn : n ≤ 0xFFFFFFFF
  · rw [encrypt_run fresh hi hs hok hn] at hrun
    cases hrun
    exact ⟨hn, rfl, rfl, rfl, rfl, rfl, rfl⟩
  · obtain ⟨e, he⟩ := DoubleRatchet.encrypt_overflow fresh hi hs (Nat.not_le.mp hn)
    simp [encrypt, he] at hrun

theorem decrypt_run {P : Primitives β} {s s' : SessionState β} {fresh : X25519Seed β} {h : TripleHeader}
    {k : MessageKeyBundle β} (hs : s'.spqrSeed.length = 32)
    (hd : (DoubleRatchet.decrypt P fresh h.dh).run s = .ok k s') :
    (decrypt P fresh h).run s =
      .ok (combined P k.messageKey (spqrKeyAt P s'.spqrSeed h.spqrEpoch) h.dh.messageNumber h.spqrEpoch) s' := by
  have h3 := SpqrChain.chainKeyFor_ok P (show 32 ≤ s'.spqrSeed.length by rw [hs]) h.spqrEpoch_le
  simp [decrypt, hd, h3, combine_ok]

/-- A `decrypt` that returns combines what the double ratchet returned. -/
theorem decrypt_inv {P : Primitives β} {s s' : SessionState β} {start : List β} {c : Nat} {fresh : X25519Seed β}
    {h : TripleHeader} {b : MessageKeyBundle β} (hs : s.Ok P) (hr : RecvAt P s start c)
    (hrun : (decrypt P fresh h).run s = .ok b s') :
    ∃ k, (DoubleRatchet.decrypt P fresh h.dh).run s = .ok k s' ∧
      b = combined P k.messageKey (spqrKeyAt P s.spqrSeed h.spqrEpoch) h.dh.messageNumber h.spqrEpoch := by
  obtain ⟨k, u, h1, hrun⟩ := run_bind_ok hrun
  have hu := DoubleRatchet.decrypt_spqrSeed hs hr h1
  have h3 := SpqrChain.chainKeyFor_ok P (show 32 ≤ u.spqrSeed.length by rw [hu, hs.spqrSeed_length]) h.spqrEpoch_le
  simp only [EStateM.run_bind, EStateM.run_get, h3, run_lift_ok, combine_ok, EStateM.Result.ok.injEq] at hrun
  obtain ⟨rfl, rfl⟩ := hrun
  exact ⟨k, h1, by rw [hu]⟩

end TripleRatchet

end Chhaya
