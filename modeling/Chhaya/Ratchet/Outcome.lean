import Chhaya.Ratchet.Step

/-!
# Every outcome of a receive

A `decrypt` may throw before it has done anything, in the middle of a staging loop, or after a DH ratchet, and it throws with
the session as it is by then. `Outcome` lists all the ways, each with the condition under which it is taken; which keys a
staging loop files does not depend on the primitives, so these conditions are about headers, counters and names alone.

- `stageUntil_outcome`: how far a staging loop gets.
- `decrypt_outcome`: every `decrypt` has one of the outcomes.
-/

namespace Chhaya

variable {β : Type}

/-! ## Room in the cache -/

/-- The keys of a cache after the numbers `c`, ..., `c + k - 1` of the chain `dh` were filed. -/
def fileKeys (dh : Bytes) (c : Nat) : Nat → List String → List String
  | 0, names => names
  | k + 1, names => skipKey dh (c + k : Nat) :: (fileKeys dh c k names).erase (skipKey dh (c + k : Nat))

theorem keys_stageKeys (P : Primitives β) (start : List β) (dh : Bytes) (c : Nat)
    (m : DartMap String (MessageKeyBundle β)) : ∀ k, (stageKeys P start dh c k m).keys = fileKeys dh c k m.keys
  | 0 => rfl
  | k + 1 => by rw [stageKeys, AList.keys_insert, keys_stageKeys P start dh c m k, fileKeys]

/-- One number and then `k` more are `k + 1` numbers. -/
theorem fileKeys_succ (dh : Bytes) (c : Nat) (names : List String) :
    ∀ k, fileKeys dh (c + 1) k (fileKeys dh c 1 names) = fileKeys dh c (k + 1) names
  | 0 => rfl
  | k + 1 => by
    have h : c + 1 + k = c + (k + 1) := by omega
    show _ :: (fileKeys dh (c + 1) k (fileKeys dh c 1 names)).erase _ = _ :: (fileKeys dh c (k + 1) names).erase _
    rw [fileKeys_succ dh c names k, h]

/-- After `i` numbers from `c` on there is room to file one more. -/
def Roomy (dh : Bytes) (c : Nat) (names : List String) (i : Nat) : Prop :=
  (fileKeys dh c i names).length < DoubleRatchet.maxSkippedTotal ∧ c + i ≤ 0xFFFFFFFF

instance (dh : Bytes) (c : Nat) (names : List String) (i : Nat) : Decidable (Roomy dh c names i) :=
  inferInstanceAs (Decidable (_ ∧ _))

theorem roomy_succ {dh : Bytes} {c : Nat} {names : List String} {i : Nat} :
    Roomy dh (c + 1) (fileKeys dh c 1 names) i ↔ Roomy dh c names (i + 1) := by
  have h : c + 1 + i = c + (i + 1) := by omega
  rw [Roomy, Roomy, fileKeys_succ, h]

/-- All numbers from `c` up to `t` can be filed. -/
def Stages (dh : Bytes) (c : Nat) (names : List String) (t : Nat) : Prop := ∀ i < t - c, Roomy dh c names i

/-- What a staging loop throws in a session that has no room. -/
def stuck (s : SessionState β) : DartError :=
  if s.skipped.keys.length ≥ DoubleRatchet.maxSkippedTotal then
    .ratchet ("Skipped-key cache full (" ++ toString DoubleRatchet.maxSkippedTotal ++ ") — peer must ratchet")
  else .argument (toString s.recvCounter) "counter" "Counter must fit in u32"

/-- A counter beyond 32 bits is refused. -/
theorem MessageKeys.derive_overflow (P : Primitives β) {ck : List β} {n : Nat} (hck : ck.length = 32)
    (hn : 0xFFFFFFFF < n) :
    MessageKeys.derive P ck (n : Int) = .error (.argument (toString (n : Int)) "counter" "Counter must fit in u32") := by
  have hc : (n : Int) < 0 ∨ (n : Int) > 0xFFFFFFFF := by omega
  simp only [MessageKeys.derive, MessageKeys.keyLength, hck, ne_eq, not_true_eq_false, if_false, if_pos hc]
  rfl

namespace DoubleRatchet

theorem stageSkipped_stuck {P : Primitives β} {s : SessionState β} {start : List β} {c : Nat} (h : RecvAt P s start c)
    (hr : ¬Roomy s.remotePublicKey c s.skipped.keys 0) :
    (stageSkipped P s.recvCounter).run s = .error (stuck s) s := by
  by_cases hm : s.skipped.keys.length ≥ maxSkippedTotal
  · simp [stageSkipped, stuck, hm]
  · have hc : 0xFFFFFFFF < c := by
      by_contra hc
      exact hr ⟨Nat.not_le.mp hm, by omega⟩
    have hk := MessageKeys.derive_overflow P (length_chainKeyAt P h.start_length c) hc
    simp [stageSkipped, stuck, hm, h.key, h.counter, hk]

/-- How far a staging loop gets: to its target, or until there is no room, or until it has counted beyond its limit. -/
theorem stageUntil_outcome {P : Primitives β} {start : List β} (t : Nat) (limit : Option Int) :
    ∀ {k c : Nat} {s : SessionState β} (staged : Int), k = t - c → RecvAt P s start c →
    (Stages s.remotePublicKey c s.skipped.keys t ∧ (0 < k → ∀ l ∈ limit, staged + k ≤ l) ∧
      (stageUntil P t limit k staged).run s = .ok () (s.staged P start c k)) ∨
    (∃ j < k, (∀ i < j, Roomy s.remotePublicKey c s.skipped.keys i) ∧ ¬Roomy s.remotePublicKey c s.skipped.keys j ∧
      (0 < j → ∀ l ∈ limit, staged + j ≤ l) ∧
      (stageUntil P t limit k staged).run s = .error (stuck (s.staged P start c j)) (s.staged P start c j)) ∨
    ∃ j ≤ k, 0 < j ∧ (∀ i < j, Roomy s.remotePublicKey c s.skipped.keys i) ∧
      (∃ l ∈ limit, l < staged + j ∧ (1 < j → staged + j ≤ l + 1)) ∧
      (stageUntil P t limit k staged).run s = .error (tooManySkipped (staged + j)) (s.staged P start c j) := by
  intro k
  induction k with
  | zero =>
    intro c s staged hk h
    refine Or.inl ⟨fun i hi => absurd hi (by omega), fun h0 => absurd h0 (Nat.lt_irrefl 0), ?_⟩
    rw [SessionState.staged_zero h]
    rfl
  | succ k ih =>
    intro c s staged hk h
    have hct : s.recvCounter < (t : Int) := by rw [h.counter]; omega
    by_cases hroom : Roomy s.remotePublicKey c s.skipped.keys 0
    · have h1 := stageSkipped_run h hroom.2 hroom.1
      have hinc : ({ s.staged P start c 1 with recvCounter := (c : Int) + 1 } : SessionState β)
          = s.staged P start c 1 := rfl
      by_cases hlim : limit.any (fun l => decide (l < staged + 1)) = true
      · refine Or.inr (Or.inr ⟨1, by omega, Nat.one_pos, fun i hi => ?_, ?_, ?_⟩)
        · obtain rfl : i = 0 := by omega
          exact hroom
        · cases limit with
          | none => cases hlim
          | some l => exact ⟨l, rfl, by simpa using hlim, fun h1 => absurd h1 (Nat.lt_irrefl 1)⟩
        · simp only [stageUntil, EStateM.run_bind, EStateM.run_get, hct, if_true, h1, EStateM.run_modify, hlim, hinc]
          rfl
      · rw [Bool.not_eq_true] at hlim
        have hl : ∀ l ∈ limit, staged + 1 ≤ l := fun l hl => by
          rw [Option.mem_def] at hl
          rw [hl] at hlim
          simpa using hlim
        have hkeys : (s.staged P start c 1).skipped.keys = fileKeys s.remotePublicKey c 1 s.skipped.keys :=
          keys_stageKeys P start s.remotePublicKey c s.skipped 1
        have hrun : (stageUntil P t limit (k + 1) staged).run s =
            (stageUntil P t limit k (staged + 1)).run (s.staged P start c 1) := by
          simp only [stageUntil, EStateM.run_bind, EStateM.run_get, hct, if_true, h1, EStateM.run_modify, hlim, hinc,
            Bool.false_eq_true, if_false]
        have hrooms : ∀ j, (∀ i < j, Roomy s.remotePublicKey (c + 1) (s.staged P start c 1).skipped.keys i) →
            ∀ i < j + 1, Roomy s.remotePublicKey c s.skipped.keys i := fun j hj i hi => by
          cases i with
          | zero => exact hroom
          | succ i => exact roomy_succ.mp (hkeys ▸ hj i (by omega))
        rw [hrun]
        rcases ih (s := s.staged P start c 1) (staged + 1) (show k = t - (c + 1) by omega) (h.staged 1) with
          ⟨h2, h3, h4⟩ | ⟨j, hj, h2, h3, h4, h5⟩ | ⟨j, hj, h0, h2, ⟨l, hlm, h3, h4⟩, h5⟩
        · refine Or.inl ⟨fun i hi => ?_, fun _ l hlm => ?_, ?_⟩
          · exact hrooms k (fun i hi => h2 i (by omega)) i (by omega)
          · rcases Nat.eq_zero_or_pos k with rfl | hk0
            · exact hl l hlm
            · have := h3 hk0 l hlm
              push_cast
              omega
          · rw [h4, SessionState.staged_succ]
        · refine Or.inr (Or.inl ⟨j + 1, by omega, hrooms j h2, fun hr => h3 (hkeys ▸ roomy_succ.mpr hr), fun _ l hlm => ?_,
            ?_⟩)
          · rcases Nat.eq_zero_or_pos j with rfl | hj0
            · exact hl l hlm
            · have := h4 hj0 l hlm
              push_cast
              omega
          · rw [h5, SessionState.staged_succ]
        · refine Or.inr (Or.inr ⟨j + 1, by omega, Nat.succ_pos j, hrooms j h2, ⟨l, hlm, by push_cast; omega, fun _ => ?_⟩,
            ?_⟩)
          · rcases Nat.lt_or_ge 1 j with hj1 | hj1
            · have := h4 hj1
              push_cast
              omega
            · obtain rfl : j = 1 := by omega
              have := hl l hlm
              push_cast
              omega
          · rw [h5, SessionState.staged_succ]
            have he : staged + 1 + (j : Int) = staged + ((j + 1 : Nat) : Int) := by push_cast; omega
            rw [he]
    · refine Or.inr (Or.inl ⟨0, Nat.succ_pos k, fun i hi => absurd hi (Nat.not_lt_zero i), hroom,
        fun h0 => absurd h0 (Nat.lt_irrefl 0), ?_⟩)
      rw [SessionState.staged_zero h]
      simp only [stageUntil, EStateM.run_bind, EStateM.run_get, hct, if_true, stageSkipped_stuck h hroom]

end DoubleRatchet

/-! ## The current chain -/

/-- What `decrypt` throws for a number below the next expected one. -/
def duplicateMessage (messageNumber recvCounter : Int) : DartError :=
  .ratchet ("Duplicate or over-delayed message " ++ toString messageNumber ++ " (next expected " ++
    toString recvCounter ++ ")")

/-- How a message `n` is received on the chain from `start`, of which `c` is the next number expected. -/
inductive OnChain (P : Primitives β) (s : SessionState β) (start : List β) (c n : Nat) :
    EStateM.Result DartError (SessionState β) (MessageKeyBundle β) → Prop
  | duplicate (hn : n < c) : OnChain P s start c n (.error (duplicateMessage n c) s)
  | tooMany (hn : c + 1000 < n) : OnChain P s start c n (.error (tooManySkipped (n - c)) s)
  | stuck {j : Nat} (hc : c ≤ n) (hn : n ≤ c + 1000) (hj : j < n - c)
    (hroom : ∀ i < j, Roomy s.remotePublicKey c s.skipped.keys i) (hstuck : ¬Roomy s.remotePublicKey c s.skipped.keys j) :
    OnChain P s start c n (.error (Chhaya.stuck (s.staged P start c j)) (s.staged P start c j))
  | overflow {e : DartError} (hc : c ≤ n) (hn : n ≤ c + 1000) (hs : Stages s.remotePublicKey c s.skipped.keys n)
    (ho : 0xFFFFFFFF < n) : OnChain P s start c n (.error e (s.staged P start c (n - c)))
  | received (hc : c ≤ n) (hn : n ≤ c + 1000) (hs : Stages s.remotePublicKey c s.skipped.keys n)
    (ho : n ≤ 0xFFFFFFFF) : OnChain P s start c n (.ok (chainKeys P start n) (s.received P start c n))

theorem DoubleRatchet.receive_outcome {P : Primitives β} {s : SessionState β} {start : List β} {c : Nat} (hr : RecvAt P s start c)
    (n : Nat) : OnChain P s start c n ((receive P (n : Int)).run s) := by
  have hk : ((n : Int) - c).toNat = n - c := by omega
  simp only [receive, EStateM.run_bind, EStateM.run_get, hr.counter, hk]
  by_cases h1 : (n : Int) < c
  · simp only [h1, if_true]
    exact .duplicate (by omega)
  by_cases h2 : (n : Int) - c > maxSkip
  · simp only [h1, h2, if_false, if_true]
    exact .tooMany (by simp only [maxSkip] at h2; omega)
  have hc : c ≤ n := by omega
  have hn : n ≤ c + 1000 := by simp only [maxSkip] at h2; omega
  have hcn : c + (n - c) = n := by omega
  simp only [h1, h2, if_false]
  rcases stageUntil_outcome (P := P) n none 0 rfl hr with
    ⟨hs, -, h3⟩ | ⟨j, hj, hroom, hstuck, -, h3⟩ | ⟨j, -, -, -, ⟨l, hl, -⟩, -⟩
  · by_cases ho : n ≤ 0xFFFFFFFF
    · have h4 := derive_chainKeyAt P hr.start_length ho
      simp [h3, SessionState.staged, hcn, h4]
      exact .received hc hn hs ho
    · have h4 := MessageKeys.derive_overflow P (length_chainKeyAt P hr.start_length n) (Nat.not_le.mp ho)
      have hst : (s.staged P start c (n - c)).recvChainKey = chainKeyAt P start n := by
        rw [SessionState.staged, hcn]
      have hct : (s.staged P start c (n - c)).recvCounter = (n : Int) := by
        rw [SessionState.staged, hcn]
      simp only [EStateM.run_bind, h3, EStateM.run_get, hst, hct, h4, run_lift_error]
      exact .overflow hc hn hs (Nat.not_le.mp ho)
  · simp only [EStateM.run_bind, h3]
    exact .stuck hc hn hj hroom hstuck
  · cases hl

/-! ## Every outcome -/

/-- The session after the DH ratchet to the chain of a header. -/
def SessionState.entered (P : Primitives β) (s : SessionState β) (start : List β) (c : Nat) (h : RatchetHeader)
    (fresh : List β) : SessionState β :=
  (s.staged P start c (h.prevChainLength - c)).ratcheted P h.dhPublicKey fresh

theorem RecvAt.entered (P : Primitives β) (s : SessionState β) (start : List β) (c : Nat) (h : RatchetHeader)
    (fresh : List β) : RecvAt P (s.entered P start c h fresh) (s.nextStart P h.dhPublicKey) 0 :=
  RecvAt.ratcheted P _ h.dhPublicKey fresh

theorem SessionState.keys_entered (P : Primitives β) (s : SessionState β) (start : List β) (c : Nat) (h : RatchetHeader)
    (fresh : List β) : (s.entered P start c h fresh).skipped.keys =
      fileKeys s.remotePublicKey c (h.prevChainLength - c) s.skipped.keys :=
  keys_stageKeys P start s.remotePublicKey c s.skipped _

/-- How a header is received by a session whose receiving chain is that from `start`, with `c` the next number expected. -/
inductive Outcome (P : Primitives β) (s : SessionState β) (start : List β) (c : Nat) (fresh : List β) (h : RatchetHeader) :
    EStateM.Result DartError (SessionState β) (MessageKeyBundle β) → Prop
  | cached {k : MessageKeyBundle β} (hl : s.skipped.lookup (skipKey h.dhPublicKey h.messageNumber) = some k) :
    Outcome P s start c fresh h
      (.ok k { s with skipped := s.skipped.erase (skipKey h.dhPublicKey h.messageNumber) })
  | current {r : EStateM.Result DartError (SessionState β) (MessageKeyBundle β)}
    (hl : s.skipped.lookup (skipKey h.dhPublicKey h.messageNumber) = none) (hd : h.dhPublicKey = s.remotePublicKey)
    (hr : OnChain P s start c h.messageNumber r) : Outcome P s start c fresh h r
  | stuck {j : Nat} (hl : s.skipped.lookup (skipKey h.dhPublicKey h.messageNumber) = none)
    (hd : h.dhPublicKey ≠ s.remotePublicKey) (hj : j < h.prevChainLength - c) (hlim : j ≤ 1000)
    (hroom : ∀ i < j, Roomy s.remotePublicKey c s.skipped.keys i) (hstuck : ¬Roomy s.remotePublicKey c s.skipped.keys j) :
    Outcome P s start c fresh h (.error (Chhaya.stuck (s.staged P start c j)) (s.staged P start c j))
  | tooMany (hl : s.skipped.lookup (skipKey h.dhPublicKey h.messageNumber) = none)
    (hd : h.dhPublicKey ≠ s.remotePublicKey) (hp : c + 1000 < h.prevChainLength)
    (hroom : ∀ i < 1001, Roomy s.remotePublicKey c s.skipped.keys i) :
    Outcome P s start c fresh h (.error (tooManySkipped 1001) (s.staged P start c 1001))
  | ratchet {r : EStateM.Result DartError (SessionState β) (MessageKeyBundle β)}
    (hl : s.skipped.lookup (skipKey h.dhPublicKey h.messageNumber) = none) (hd : h.dhPublicKey ≠ s.remotePublicKey)
    (hp : h.prevChainLength ≤ c + 1000) (hs : Stages s.remotePublicKey c s.skipped.keys h.prevChainLength)
    (hr : OnChain P (s.entered P start c h fresh) (s.nextStart P h.dhPublicKey) 0 h.messageNumber r) :
    Outcome P s start c fresh h r

theorem DoubleRatchet.decrypt_outcome {P : Primitives β} {s : SessionState β} {start : List β} {c : Nat} (fresh : X25519Seed β)
    (h : RatchetHeader) (hs : s.Ok P) (hr : RecvAt P s start c) :
    Outcome P s start c fresh.1 h ((decrypt P fresh h).run s) := by
  simp only [decrypt, EStateM.run_bind, EStateM.run_get]
  cases hl : s.skipped.lookup (skipKey h.dhPublicKey h.messageNumber) with
  | some k => exact .cached hl
  | none =>
    by_cases hd : h.dhPublicKey = s.remotePublicKey
    · simp only [hd, ne_eq, not_true_eq_false, if_false]
      exact .current hl hd (receive_outcome hr _)
    · simp only [ne_eq, hd, not_false_eq_true, if_true, EStateM.run_bind]
      have hk : ((h.prevChainLength : Int) - s.recvCounter).toNat = h.prevChainLength - c := by rw [hr.counter]; omega
      have hd1 := X25519Kex.sharedSecret_ok P hs.ourPrivateKey_length h.dhPublicKey_length
      have hd2 := X25519Kex.sharedSecret_ok P fresh.2 h.dhPublicKey_length
      rcases stageUntil_outcome (P := P) h.prevChainLength (some maxSkip) 0 rfl hr with
        ⟨hst, hlim, h1⟩ | ⟨j, hj, hroom, hstuck, hlim, h1⟩ | ⟨j, hj, h0, hroom, ⟨l, hl', hlt, hle⟩, h1⟩
      · have hrun : (dhRatchet P fresh h).run s = .ok () (s.entered P start c h fresh.1) := by
          simp only [dhRatchet, EStateM.run_bind, EStateM.run_get, hk, h1]
          simp [SessionState.entered, SessionState.staged, hd1, hd2, X25519Kex.generateKeyPair, SessionState.ratcheted,
            kdfRoot, kdfChain]
        rw [hrun]
        refine .ratchet hl hd ?_ hst (receive_outcome (RecvAt.entered P s start c h fresh.1) _)
        rcases Nat.eq_zero_or_pos (h.prevChainLength - c) with h0 | h0
        · omega
        · have := hlim h0 maxSkip rfl
          simp only [maxSkip] at this
          omega
      · have hrun : (dhRatchet P fresh h).run s = .error (stuck (s.staged P start c j)) (s.staged P start c j) := by
          simp only [dhRatchet, EStateM.run_bind, EStateM.run_get, hk, h1]
        rw [hrun]
        refine .stuck hl hd hj ?_ hroom hstuck
        rcases Nat.eq_zero_or_pos j with h0 | h0
        · omega
        · have := hlim h0 maxSkip rfl
          simp only [maxSkip] at this
          omega
      · obtain rfl : maxSkip = l := Option.some.inj hl'
        simp only [maxSkip] at hlt hle
        obtain rfl : j = 1001 := by omega
        have hrun : (dhRatchet P fresh h).run s = .error (tooManySkipped 1001) (s.staged P start c 1001) := by
          simp only [dhRatchet, EStateM.run_bind, EStateM.run_get, hk, h1]
          rfl
        rw [hrun]
        exact .tooMany hl hd (by omega) hroom

end Chhaya
