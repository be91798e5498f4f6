import Chhaya.Ratchet.Outcome

/-!
# Sessions that calls lead to

One session under any calls of `encrypt` and `decrypt`, of the double ratchet and of its facade, with any headers. A call that
throws leaves the session as it is by then, and the run goes on from there.

- `Healthy.call`: a call keeps what holds of every session.
- `Reachable.healthy`: every session that can be reached is healthy.
- `Healthy.outcome`: how it receives.
-/

namespace Chhaya

variable {β : Type}

/-! ## Calls -/

/-- A call on a session, with the key pair that is drawn if one is. -/
inductive SessionCall (β : Type)
  | encrypt (fresh : X25519Seed β)
  | decrypt (fresh : X25519Seed β) (header : RatchetHeader)
  | encryptTriple (fresh : X25519Seed β)
  | decryptTriple (fresh : X25519Seed β) (header : TripleHeader)

/-- What a call returns. -/
inductive Returned (β : Type)
  | sent (header : RatchetHeader) (keys : MessageKeyBundle β)
  | sentTriple (header : TripleHeader) (keys : MessageKeyBundle β)
  | received (keys : MessageKeyBundle β)

def SessionCall.run (P : Primitives β) : SessionCall β → RatchetM β (Returned β)
  | .encrypt fresh => do
    let (header, keys) ← DoubleRatchet.encrypt P fresh
    return .sent header keys
  | .decrypt fresh header => .received <$> DoubleRatchet.decrypt P fresh header
  | .encryptTriple fresh => do
    let (header, keys) ← TripleRatchet.encrypt P fresh
    return .sentTriple header keys
  | .decryptTriple fresh header => .received <$> TripleRatchet.decrypt P fresh header

/-- The session that a call leaves. -/
def leaves {α : Type} : EStateM.Result DartError (SessionState β) α → SessionState β
  | .ok _ s => s
  | .error _ s => s

@[simp] theorem leaves_ok {α : Type} (a : α) (s : SessionState β) :
    leaves (.ok a s : EStateM.Result DartError (SessionState β) α) = s := rfl

@[simp] theorem leaves_error {α : Type} (e : DartError) (s : SessionState β) :
    leaves (.error e s : EStateM.Result DartError (SessionState β) α) = s := rfl

def SessionCall.after (P : Primitives β) (c : SessionCall β) (s : SessionState β) : SessionState β :=
  leaves ((c.run P).run s)

/-- The sessions that calls lead to. -/
inductive Reachable (P : Primitives β) : SessionState β → Prop
  | opened {peerId : String} {initiator : Bool} {sharedSecret : List β} {remote : Bytes} {ours : Option (List β)}
    {fresh : X25519Seed β} {s : SessionState β}
    (h : DoubleRatchet.initSession P peerId initiator sharedSecret remote ours fresh = .ok s) : Reachable P s
  | call {s : SessionState β} (h : Reachable P s) (c : SessionCall β) : Reachable P (c.after P s)

/-! ## What holds of every session -/

structure Healthy (P : Primitives β) (s : SessionState β) : Prop where
  ok : s.Ok P
  recv : ∃ start c, RecvAt P s start c ∧ c ≤ 2 ^ 32
  send : s.sendInitialized = true → ∃ start n p, SendAt P s start n p ∧ n ≤ 2 ^ 32 ∧ p ≤ 2 ^ 32
  idle : s.sendInitialized = false → s.sendCounter = 0 ∧ s.prevSendChainLength = 0 ∧ s.sendChainKey.length = 32
  rootKey_length : s.rootKey.length = 32
  generation : int64 s.recvGeneration = s.recvGeneration
  epoch : 0 ≤ s.spqrEpoch ∧ s.spqrEpoch ≤ 2 ^ 32
  capped : s.skipped.keys.length ≤ DoubleRatchet.maxSkippedTotal

section Healthy

variable {P : Primitives β} {s : SessionState β} {start : List β} {c n : Nat}

theorem Healthy.opened {peerId : String} {initiator : Bool} {sharedSecret : List β} {remote : Bytes}
    {ours : Option (List β)} {fresh : X25519Seed β}
    (h : DoubleRatchet.initSession P peerId initiator sharedSecret remote ours fresh = .ok s) : Healthy P s := by
  obtain ⟨priv, hp, hr, rfl⟩ := DoubleRatchet.initSession_ok h
  refine ⟨openedSession_ok P _ _ _ hp hr, ?_, fun hi => ?_, fun hi => ?_, ?_, rfl, ⟨le_refl _, ?_⟩, Nat.zero_le _⟩
  · cases initiator with
    | true => exact ⟨_, 0, ⟨length_chainB _ _ _, rfl, rfl⟩, Nat.zero_le _⟩
    | false => exact ⟨_, 0, ⟨length_chainA _ _ _, rfl, rfl⟩, Nat.zero_le _⟩
  · obtain rfl : initiator = true := hi
    exact ⟨_, 0, 0, ⟨length_chainA _ _ _, rfl, rfl, rfl⟩, Nat.zero_le _, Nat.zero_le _⟩
  · obtain rfl : initiator = false := hi
    exact ⟨rfl, rfl, by simp [openedSession, zeros]⟩
  · simp [openedSession, initSeed]
  · show (0 : Int) ≤ 2 ^ 32
    decide

theorem length_fileKeys_succ_le (dh : Bytes) (c : Nat) (names : List String) (k : Nat) :
    (fileKeys dh c (k + 1) names).length ≤ (fileKeys dh c k names).length + 1 := by
  have := List.length_erase_le (a := skipKey dh (c + k : Nat)) (l := fileKeys dh c k names)
  simp only [fileKeys, List.length_cons]
  omega

/-- A staging loop keeps the cap. -/
theorem length_fileKeys_le {dh : Bytes} {names : List String} {k : Nat}
    (hn : names.length ≤ DoubleRatchet.maxSkippedTotal) (h : ∀ i < k, Roomy dh c names i) :
    (fileKeys dh c k names).length ≤ DoubleRatchet.maxSkippedTotal := by
  cases k with
  | zero => exact hn
  | succ k =>
    have h1 := (h k (Nat.lt_succ_self k)).1
    have h2 := length_fileKeys_succ_le dh c names k
    omega

/-- Keys are staged. -/
theorem Healthy.staged (h : Healthy P s) (hr : RecvAt P s start c) (hc : c ≤ 2 ^ 32) {k : Nat}
    (hk : ∀ i < k, Roomy s.remotePublicKey c s.skipped.keys i) : Healthy P (s.staged P start c k) where
  ok := ⟨h.ok.1, h.ok.2, h.ok.3, h.ok.4⟩
  recv := by
    refine ⟨start, c + k, hr.staged k, ?_⟩
    cases k with
    | zero => exact hc
    | succ k =>
      have := (hk k (Nat.lt_succ_self k)).2
      omega
  send hi := by
    obtain ⟨start', n, p, hs, h1, h2⟩ := h.send hi
    exact ⟨start', n, p, ⟨hs.1, hs.2, hs.3, hs.4⟩, h1, h2⟩
  idle := h.idle
  rootKey_length := h.rootKey_length
  generation := h.generation
  epoch := h.epoch
  capped := by
    rw [show (s.staged P start c k).skipped.keys = _ from keys_stageKeys P start s.remotePublicKey c s.skipped k]
    exact length_fileKeys_le h.capped hk

/-- A message is received on the current chain, or is not. -/
theorem Healthy.onChain (h : Healthy P s) (hr : RecvAt P s start c) (hc : c ≤ 2 ^ 32)
    {r : EStateM.Result DartError (SessionState β) (MessageKeyBundle β)} (ho : OnChain P s start c n r) :
    Healthy P (leaves r) := by
  cases ho with
  | duplicate => exact h
  | tooMany => exact h
  | stuck _ _ _ hroom _ => exact h.staged hr hc hroom
  | overflow _ _ hs _ => exact h.staged hr hc hs
  | received hcn hn hs hu =>
    have hst := h.staged hr hc hs
    exact ⟨⟨hst.ok.1, hst.ok.2, hst.ok.3, hst.ok.4⟩, ⟨start, n + 1, hr.received n, by omega⟩, fun hi => by
      obtain ⟨start', m, p, hs', h1, h2⟩ := hst.send hi
      exact ⟨start', m, p, ⟨hs'.1, hs'.2, hs'.3, hs'.4⟩, h1, h2⟩, hst.idle, hst.rootKey_length, hst.generation, hst.epoch,
      hst.capped⟩

theorem int64_int64 (n : Int) : int64 (int64 n) = int64 n := by
  simpa using int64_int64_add n 0

/-- A DH ratchet. -/
theorem Healthy.entered (h : Healthy P s) (hr : RecvAt P s start c) (hc : c ≤ 2 ^ 32) {header : RatchetHeader}
    (hs : Stages s.remotePublicKey c s.skipped.keys header.prevChainLength) (fresh : X25519Seed β) :
    Healthy P (s.entered P start c header fresh.1) := by
  have hst := h.staged hr hc hs
  refine ⟨⟨fresh.2, rfl, header.dhPublicKey_length, h.ok.4⟩, ⟨_, 0, RecvAt.entered P s start c header fresh.1, Nat.zero_le _⟩,
    fun hi => ?_, fun hi => ?_, length_kdfRoot _ _ _, int64_int64 _, h.epoch, hst.capped⟩
  · obtain ⟨start', n, p, hs', h1, h2⟩ := h.send hi
    exact ⟨_, 0, n, ⟨length_kdfChain _ _ _, rfl, rfl, hs'.counter⟩, Nat.zero_le _, h1⟩
  · obtain ⟨h1, -⟩ := h.idle hi
    exact ⟨rfl, h1, length_kdfChain _ _ _⟩

/-- How a healthy session receives. -/
theorem Healthy.outcome (h : Healthy P s) (fresh : X25519Seed β) (header : RatchetHeader) : ∃ start c, RecvAt P s start c ∧
    c ≤ 2 ^ 32 ∧ Outcome P s start c fresh.1 header ((DoubleRatchet.decrypt P fresh header).run s) := by
  obtain ⟨start, c, hr, hc⟩ := h.recv
  exact ⟨start, c, hr, hc, DoubleRatchet.decrypt_outcome fresh header h.ok hr⟩

theorem length_keys_erase_le {V : Type} (m : DartMap String V) (x : String) : (m.erase x).keys.length ≤ m.keys.length := by
  rw [AList.keys_erase]
  exact List.length_erase_le

/-- A `decrypt` keeps a session healthy, also where it throws. -/
theorem Healthy.decrypt (h : Healthy P s) (fresh : X25519Seed β) (header : RatchetHeader) :
    Healthy P (leaves ((DoubleRatchet.decrypt P fresh header).run s)) := by
  obtain ⟨start, c, hr, hc, ho⟩ := h.outcome fresh header
  generalize (DoubleRatchet.decrypt P fresh header).run s = r at ho
  cases ho with
  | cached =>
    refine ⟨⟨h.ok.1, h.ok.2, h.ok.3, h.ok.4⟩, ⟨start, c, ⟨hr.1, hr.2, hr.3⟩, hc⟩, fun hi => ?_, h.idle, h.rootKey_length,
      h.generation, h.epoch, (length_keys_erase_le _ _).trans h.capped⟩
    obtain ⟨start', n, p, hs', h1, h2⟩ := h.send hi
    exact ⟨start', n, p, ⟨hs'.1, hs'.2, hs'.3, hs'.4⟩, h1, h2⟩
  | current _ _ ho => exact h.onChain hr hc ho
  | stuck _ _ _ _ hroom _ => exact h.staged hr hc hroom
  | tooMany _ _ _ hroom => exact h.staged hr hc hroom
  | ratchet _ _ _ hs ho => exact (h.entered hr hc hs fresh).onChain (RecvAt.entered P s start c header fresh.1) (Nat.zero_le _) ho

/-- The session as it sends: a responder makes its first-send ratchet before. -/
def SessionState.live (P : Primitives β) (s : SessionState β) (fresh : List β) : SessionState β :=
  if s.sendInitialized then s else s.firstSent P fresh

/-- The sending chain of a healthy session. -/
theorem Healthy.sending (h : Healthy P s) (fresh : X25519Seed β) : ∃ start n p, SendAt P (s.live P fresh.1) start n p ∧
    n ≤ 2 ^ 32 ∧ p ≤ 2 ^ 32 ∧ s.sendCounter = n ∧ Healthy P (s.live P fresh.1) ∧
    (s.live P fresh.1).sendInitialized = true := by
  cases hi : s.sendInitialized with
  | true =>
    obtain ⟨start, n, p, hs, h1, h2⟩ := h.send hi
    rw [SessionState.live, if_pos hi]
    exact ⟨start, n, p, hs, h1, h2, hs.counter, h, hi⟩
  | false =>
    obtain ⟨h1, h2, -⟩ := h.idle hi
    obtain ⟨start, c, hr, hc⟩ := h.recv
    rw [SessionState.live, if_neg (by rw [hi]; decide)]
    have hs : SendAt P (s.firstSent P fresh.1) (kdfChain P s.rootKey (P.x25519 fresh.1 s.remotePublicKey)) 0 0 :=
      ⟨length_kdfChain _ _ _, rfl, h1, h1⟩
    refine ⟨_, 0, 0, hs, Nat.zero_le _, Nat.zero_le _, h1, ⟨⟨fresh.2, rfl, h.ok.3, h.ok.4⟩,
      ⟨start, c, ⟨hr.1, hr.2, hr.3⟩, hc⟩, fun _ => ⟨_, 0, 0, hs, Nat.zero_le _, Nat.zero_le _⟩, fun hf => ?_, length_kdfRoot _ _ _,
      h.generation, h.epoch, h.capped⟩, rfl⟩
    cases hf

theorem encrypt_live (h : Healthy P s) (fresh : X25519Seed β) :
    (DoubleRatchet.encrypt P fresh).run s = (DoubleRatchet.encrypt P fresh).run (s.live P fresh.1) ∧
      (TripleRatchet.encrypt P fresh).run s = (TripleRatchet.encrypt P fresh).run (s.live P fresh.1) := by
  cases hi : s.sendInitialized with
  | true =>
    rw [SessionState.live, if_pos hi]
    exact ⟨rfl, rfl⟩
  | false =>
    rw [SessionState.live, if_neg (by rw [hi]; decide)]
    exact ⟨DoubleRatchet.encrypt_first fresh hi h.ok.3, TripleRatchet.encrypt_first fresh hi h.ok.3⟩

/-- What a send returns and leaves, and that it fails only where the counter has left 32 bits. -/
theorem Healthy.encrypt_outcome (h : Healthy P s) (fresh : X25519Seed β) : ∃ start n p,
    SendAt P (s.live P fresh.1) start n p ∧ s.sendCounter = n ∧ p ≤ 2 ^ 32 ∧ Healthy P (s.live P fresh.1) ∧
    ((∃ (hn : n ≤ 0xFFFFFFFF) (hl : (s.live P fresh.1).ourPublicKey.length = 32),
      (DoubleRatchet.encrypt P fresh).run s =
        .ok (⟨(s.live P fresh.1).ourPublicKey, p, n, hl⟩, chainKeys P start n) ((s.live P fresh.1).sent P start n) ∧
      (TripleRatchet.encrypt P fresh).run s =
        .ok (⟨⟨(s.live P fresh.1).ourPublicKey, p, n, hl⟩, n / 10, by omega⟩, sealKeys P (s.live P fresh.1).spqrSeed start n)
          { (s.live P fresh.1).sent P start n with spqrEpoch := (n / 10 : Nat) }) ∨
    ∃ e, 0xFFFFFFFF < n ∧ (DoubleRatchet.encrypt P fresh).run s = .error e s ∧
      (TripleRatchet.encrypt P fresh).run s = .error e s) := by
  obtain ⟨start, n, p, hs, hn, hp, hcount, hl0, hlive⟩ := h.sending fresh
  refine ⟨start, n, p, hs, hcount, hp, hl0, ?_⟩
  obtain ⟨h1, h2⟩ := encrypt_live h fresh
  by_cases hn' : n ≤ 0xFFFFFFFF
  · refine Or.inl ⟨hn', hl0.ok.ourPublicKey_length, ?_, ?_⟩
    · rw [h1, DoubleRatchet.encrypt_run fresh hlive hs hl0.ok.ourPublicKey_length hn']
    · rw [h2, TripleRatchet.encrypt_run fresh hlive hs hl0.ok hn']
  · have hi : s.sendInitialized = true := by
      by_contra hi
      have h0 := (h.idle (Bool.eq_false_of_not_eq_true hi)).1
      omega
    rw [SessionState.live, if_pos hi] at hs
    obtain ⟨e, he⟩ := DoubleRatchet.encrypt_overflow fresh hi hs (Nat.not_le.mp hn')
    exact Or.inr ⟨e, Nat.not_le.mp hn', he, by simp [TripleRatchet.encrypt, he]⟩

/-- A message is sent. -/
theorem Healthy.sent (h : Healthy P s) {p : Nat} (hi : s.sendInitialized = true) (hs : SendAt P s start n p) (hp : p ≤ 2 ^ 32)
    (hn : n ≤ 0xFFFFFFFF) {e : Int} (he : 0 ≤ e ∧ e ≤ 2 ^ 32) :
    Healthy P { s.sent P start n with spqrEpoch := e } := by
  obtain ⟨start', c, hr, hc⟩ := h.recv
  refine ⟨⟨h.ok.1, h.ok.2, h.ok.3, h.ok.4⟩, ⟨start', c, ⟨hr.1, hr.2, hr.3⟩, hc⟩,
    fun _ => ⟨start, n + 1, p, hs.sent e, by omega, hp⟩, fun hf => ?_, h.rootKey_length, h.generation, he, h.capped⟩
  exact absurd (hi.symm.trans hf) (by decide)

theorem live_sendInitialized (P : Primitives β) (s : SessionState β) (fresh : List β) :
    (s.live P fresh).sendInitialized = true := by
  unfold SessionState.live
  split
  · assumption
  · rfl

/-- What is left of the facade's `decrypt` after that of the double ratchet changes nothing. -/
theorem TripleRatchet.leaves_decrypt (P : Primitives β) (s : SessionState β) (fresh : X25519Seed β) (header : TripleHeader) :
    leaves ((TripleRatchet.decrypt P fresh header).run s) = leaves ((DoubleRatchet.decrypt P fresh header.dh).run s) := by
  simp only [TripleRatchet.decrypt, EStateM.run_bind, EStateM.run_get]
  cases (DoubleRatchet.decrypt P fresh header.dh).run s with
  | error e u => rfl
  | ok k u =>
    cases h1 : SpqrChain.chainKeyFor P u.spqrSeed header.spqrEpoch with
    | error e => simp [h1]
    | ok spqrKey =>
      cases h2 : combine P k.messageKey spqrKey header.dh.messageNumber header.spqrEpoch with
      | error e => simp [h1, h2]
      | ok b => simp [h1, h2]

theorem leaves_map {α γ : Type} (f : α → γ) (x : RatchetM β α) (s : SessionState β) :
    leaves ((f <$> x).run s) = leaves (x.run s) := by
  rw [run_map_ok]
  cases x.run s <;> rfl

/-- A call keeps a session healthy. -/
theorem Healthy.call (h : Healthy P s) (call : SessionCall β) : Healthy P (call.after P s) := by
  cases call with
  | decrypt fresh header =>
    rw [SessionCall.after, SessionCall.run, leaves_map]
    exact h.decrypt fresh header
  | decryptTriple fresh header =>
    rw [SessionCall.after, SessionCall.run, leaves_map, TripleRatchet.leaves_decrypt]
    exact h.decrypt fresh header.dh
  | encrypt fresh =>
    obtain ⟨start, n, p, hs, -, hp, hl0, ⟨hn, hl, h1, -⟩ | ⟨e, -, h1, -⟩⟩ := h.encrypt_outcome fresh
    · simp only [SessionCall.after, SessionCall.run, EStateM.run_bind, h1]
      exact hl0.sent (live_sendInitialized P s fresh.1) hs hp hn hl0.epoch
    · simp only [SessionCall.after, SessionCall.run, EStateM.run_bind, h1]
      exact h
  | encryptTriple fresh =>
    obtain ⟨start, n, p, hs, -, hp, hl0, ⟨hn, hl, -, h1⟩ | ⟨e, -, -, h1⟩⟩ := h.encrypt_outcome fresh
    · simp only [SessionCall.after, SessionCall.run, EStateM.run_bind, h1]
      exact hl0.sent (live_sendInitialized P s fresh.1) hs hp hn (by omega)
    · simp only [SessionCall.after, SessionCall.run, EStateM.run_bind, h1]
      exact h

theorem Reachable.healthy (h : Reachable P s) : Healthy P s := by
  induction h with
  | opened h => exact .opened h
  | call _ c ih => exact ih.call c

end Healthy

end Chhaya
