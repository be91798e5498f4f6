import Chhaya.Ratchet.Loss
import Chhaya.Ratchet.Reachable

/-!
# What an error leaves behind

`decrypt` works on the session in place and undoes nothing. The guards of the current chain stand before its staging loop;
the limit on the old chain is looked at after a key was filed, the guards of a new chain after the DH ratchet, and room in the
cache before each key. Callers work on a copy: `RatchetMessageCodec` stores a session only after the message was authenticated.

- `OnChain.intact_iff`, `Outcome.untouched_iff`: on the current chain, and for every header.
- `error_untouched_iff`: exactly when a `decrypt` that throws has not touched the session.
-/

namespace Chhaya

variable {β : Type} {P : Primitives β} {s : SessionState β} {start : List β} {c n : Nat}

/-! ## Conditions -/

/-- Receiving the number `n` of the chain `dh`, of which `c` is the next number expected, either returns or throws before a key
is filed. -/
def Intact (dh : Bytes) (c : Nat) (names : List String) (n : Nat) : Prop :=
  n ≤ c ∨ c + 1000 < n ∨ ¬Roomy dh c names 0 ∨ (Stages dh c names n ∧ n ≤ 0xFFFFFFFF)

/-- Entering the chain of `h` from the chain `dh`, of which `c` is the next number expected, and receiving the number of `h`
either returns or throws before a key is filed. -/
def Enters (dh : Bytes) (c : Nat) (names : List String) (h : RatchetHeader) : Prop :=
  (c < h.prevChainLength ∧ ¬Roomy dh c names 0) ∨
  (h.prevChainLength ≤ c + 1000 ∧ Stages dh c names h.prevChainLength ∧ h.messageNumber ≤ 1000 ∧
    Stages h.dhPublicKey 0 (fileKeys dh c (h.prevChainLength - c) names) h.messageNumber)

/-- A `decrypt` of `h` either returns or throws before it has changed anything. -/
def Untouched (s : SessionState β) (h : RatchetHeader) : Prop :=
  skipKey h.dhPublicKey h.messageNumber ∈ s.skipped.keys ∨
  (h.dhPublicKey = s.remotePublicKey ∧
    Intact s.remotePublicKey s.recvCounter.toNat s.skipped.keys h.messageNumber) ∨
  (h.dhPublicKey ≠ s.remotePublicKey ∧ Enters s.remotePublicKey s.recvCounter.toNat s.skipped.keys h)

/-- Where a call throws, the session is what it was. -/
def Kept {α : Type} (s : SessionState β) (r : EStateM.Result DartError (SessionState β) α) : Prop :=
  ∀ e s', r = .error e s' → s' = s

theorem kept_ok {α : Type} (a : α) (s s' : SessionState β) :
    Kept s (.ok a s' : EStateM.Result DartError (SessionState β) α) := by
  rintro _ _ ⟨⟩

theorem kept_error {α : Type} {e : DartError} {s s' : SessionState β} :
    Kept s (.error e s' : EStateM.Result DartError (SessionState β) α) ↔ s' = s := by
  refine ⟨fun h => h e s' rfl, fun h => ?_⟩
  rintro _ _ ⟨⟩
  exact h

/-! ## The current chain -/

/-- Filing a key moves the counter. -/
theorem staged_eq_iff (hr : RecvAt P s start c) {j : Nat} : s.staged P start c j = s ↔ j = 0 := by
  refine ⟨fun h => ?_, ?_⟩
  · have hc := congrArg SessionState.recvCounter h
    rw [(hr.staged j).counter, hr.counter] at hc
    omega
  · rintro rfl
    exact SessionState.staged_zero hr

theorem OnChain.intact_iff (hr : RecvAt P s start c)
    {r : EStateM.Result DartError (SessionState β) (MessageKeyBundle β)} (ho : OnChain P s start c n r) :
    Kept s r ↔ Intact s.remotePublicKey c s.skipped.keys n := by
  cases ho with
  | duplicate hn => exact iff_of_true (kept_error.mpr rfl) (Or.inl (by omega))
  | tooMany hn => exact iff_of_true (kept_error.mpr rfl) (Or.inr (Or.inl hn))
  | @stuck j hc hn hj hroom hstuck =>
    rw [kept_error, staged_eq_iff hr]
    refine ⟨fun h0 => Or.inr (Or.inr (Or.inl (h0 ▸ hstuck))), ?_⟩
    rintro (h1 | h1 | h1 | ⟨h1, -⟩)
    · omega
    · omega
    · by_contra h0
      exact h1 (hroom 0 (by omega))
    · exact absurd (h1 j hj) hstuck
  | overflow hc hn hs ho =>
    rw [kept_error, staged_eq_iff hr]
    refine ⟨fun h0 => Or.inl (by omega), ?_⟩
    rintro (h1 | h1 | h1 | ⟨-, h1⟩)
    · omega
    · omega
    · by_contra h0
      exact h1 (hs 0 (by omega))
    · omega
  | received hc hn hs ho => exact iff_of_true (kept_ok _ _ _) (Or.inr (Or.inr (Or.inr ⟨hs, ho⟩)))

/-! ## Every header -/

/-- Behind a DH ratchet every error leaves another session. -/
theorem OnChain.entered_kept_iff {s' : SessionState β} (hne : s'.remotePublicKey ≠ s.remotePublicKey)
    {r : EStateM.Result DartError (SessionState β) (MessageKeyBundle β)} (ho : OnChain P s' start 0 n r) :
    Kept s r ↔ n ≤ 1000 ∧ Stages s'.remotePublicKey 0 s'.skipped.keys n := by
  have hk : ∀ {e : DartError} {t : SessionState β}, t.remotePublicKey = s'.remotePublicKey →
      ¬Kept s (.error e t : EStateM.Result DartError (SessionState β) (MessageKeyBundle β)) := fun ht h => by
    rw [kept_error] at h
    exact hne (ht ▸ congrArg SessionState.remotePublicKey h)
  cases ho with
  | duplicate hn => exact absurd hn (Nat.not_lt_zero n)
  | tooMany hn => exact iff_of_false (hk rfl) (by omega)
  | stuck _ _ hj _ hstuck => exact iff_of_false (hk rfl) fun h => hstuck (h.2 _ hj)
  | overflow _ hn hs ho => exact iff_of_false (hk rfl) (by omega)
  | received hc hn hs ho => exact iff_of_true (kept_ok _ _ _) ⟨by omega, hs⟩

theorem notMem_of_lookup_none {m : DartMap String (MessageKeyBundle β)} {k : String} (hl : m.lookup k = none) :
    k ∉ m.keys := fun hk => by
  obtain ⟨b, hb⟩ := Option.isSome_iff_exists.mp (AList.lookup_isSome.mpr hk)
  rw [hl] at hb
  cases hb

theorem Outcome.untouched_iff (hr : RecvAt P s start c) {fresh : List β} {h : RatchetHeader}
    {r : EStateM.Result DartError (SessionState β) (MessageKeyBundle β)} (ho : Outcome P s start c fresh h r) :
    Kept s r ↔ Untouched s h := by
  have hc : s.recvCounter.toNat = c := by rw [hr.counter, Int.toNat_natCast]
  rw [Untouched, hc]
  cases ho with
  | cached hl => exact iff_of_true (kept_ok _ _ _) (Or.inl (AList.lookup_isSome.mp (by rw [hl]; rfl)))
  | current hl hd hr' =>
    rw [hr'.intact_iff hr]
    refine ⟨fun h1 => Or.inr (Or.inl ⟨hd, h1⟩), ?_⟩
    rintro (h1 | ⟨-, h1⟩ | ⟨h1, -⟩)
    · exact absurd h1 (notMem_of_lookup_none hl)
    · exact h1
    · exact absurd hd h1
  | @stuck j hl hd hj hlim hroom hstuck =>
    rw [kept_error, staged_eq_iff hr]
    simp only [notMem_of_lookup_none hl, hd, ne_eq, not_false_eq_true, false_and, false_or, true_and]
    refine ⟨fun h0 => Or.inl ⟨by omega, h0 ▸ hstuck⟩, ?_⟩
    rintro (⟨-, h1⟩ | ⟨-, h1, -⟩)
    · by_contra h0
      exact h1 (hroom 0 (by omega))
    · exact absurd (h1 j hj) hstuck
  | tooMany hl hd hp hroom =>
    rw [kept_error, staged_eq_iff hr]
    simp only [notMem_of_lookup_none hl, hd, ne_eq, not_false_eq_true, false_and, false_or, true_and]
    refine iff_of_false (by decide) ?_
    rintro (⟨-, h1⟩ | ⟨h1, -⟩)
    · exact h1 (hroom 0 (by decide))
    · omega
  | ratchet hl hd hp hs hr' =>
    rw [hr'.entered_kept_iff (s := s) hd, SessionState.keys_entered]
    simp only [notMem_of_lookup_none hl, hd, ne_eq, not_false_eq_true, false_and, false_or, true_and]
    refine ⟨fun ⟨h1, h2⟩ => Or.inr ⟨hp, hs, h1, h2⟩, ?_⟩
    rintro (⟨h1, h2⟩ | ⟨-, -, h1, h2⟩)
    · exact absurd (hs 0 (by omega)) h2
    · exact ⟨h1, h2⟩

theorem Healthy.untouched_iff (hs : Healthy P s) (fresh : X25519Seed β) (h : RatchetHeader) :
    Kept s ((DoubleRatchet.decrypt P fresh h).run s) ↔ Untouched s h := by
  obtain ⟨start, c, hr, -, ho⟩ := hs.outcome fresh h
  exact ho.untouched_iff hr

/-- A `decrypt` that throws leaves the session exactly what it was for these headers, and for no others. -/
theorem error_untouched_iff (hs : Reachable P s) (fresh : X25519Seed β) (h : RatchetHeader) :
    (∀ e s', (DoubleRatchet.decrypt P fresh h).run s = .error e s' → s' = s) ↔ Untouched s h :=
  hs.healthy.untouched_iff fresh h

open Dialogue (octetKey octetKey_injective lossyInitiator)

theorem lossyInitiator_reachable : Reachable symbolic lossyInitiator :=
  .opened (DoubleRatchet.initSession_run symbolic "bob" true (octetSeed 0) (Nat.le_of_eq (octetSeed 7).2.symm)
    (symbolic.length_x25519Public (octetSeed 2).1) (octetSeed 1).2)

/-- A new session keeps its state when the number 1001 of its first chain comes. -/
theorem error_untouched_first : Reachable symbolic lossyInitiator ∧
    ∀ e s', (DoubleRatchet.decrypt symbolic (octetSeed 4) ⟨octetKey 2, 0, 1001, rfl⟩).run lossyInitiator = .error e s' →
      s' = lossyInitiator :=
  ⟨lossyInitiator_reachable, (error_untouched_iff lossyInitiator_reachable (octetSeed 4) _).mpr
    (Or.inr (Or.inl ⟨rfl, Or.inr (Or.inl (by decide))⟩))⟩

/-- A new session has made a DH ratchet when it throws over the number 1001 of an unknown chain. -/
theorem error_touched : ∃ e s',
    Reachable symbolic lossyInitiator ∧
    (DoubleRatchet.decrypt symbolic (octetSeed 4) ⟨octetKey 3, 0, 1001, rfl⟩).run lossyInitiator = .error e s' ∧
    s' ≠ lossyInitiator := by
  have hd : octetKey 3 ≠ lossyInitiator.remotePublicKey := octetKey_injective.ne (by decide)
  have h : ¬Untouched lossyInitiator ⟨octetKey 3, 0, 1001, rfl⟩ := by
    rintro (h | ⟨h, -⟩ | ⟨-, ⟨h, -⟩ | ⟨-, -, h, -⟩⟩)
    · cases h
    · exact hd h
    · exact absurd h (Nat.not_lt_zero _)
    · exact absurd h (by decide)
  rw [← lossyInitiator_reachable.healthy.untouched_iff (octetSeed 4), Kept] at h
  push Not at h
  obtain ⟨e, s', h1, h2⟩ := h
  exact ⟨e, s', lossyInitiator_reachable, h1, h2⟩

end Chhaya
