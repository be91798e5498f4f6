import Chhaya.Ratchet.Step

/-!
# What receiving depends on

The receiving half of a session: a send leaves it alone, and a `decrypt` reads nothing else until its DH ratchet, which
draws a key pair and makes the sending half from it.

- `TripleRatchet.encrypt_sameReceiving`: a send keeps the receiving half.
- `Blind.receive`: staging and receiving depend on the receiving half alone.
- `TripleRatchet.decrypt_fresh`: what a header decrypts to does not depend on the key pair that is drawn.
-/

namespace Chhaya

variable {β : Type}

/-! ## The receiving half -/

/-- Two sessions that receive alike: their key pairs and sending chains may differ. -/
structure SameReceiving (s t : SessionState β) : Prop where
  recvChainKey : s.recvChainKey = t.recvChainKey
  recvCounter : s.recvCounter = t.recvCounter
  remotePublicKey : s.remotePublicKey = t.remotePublicKey
  spqrSeed : s.spqrSeed = t.spqrSeed
  skipped : s.skipped = t.skipped

/-! ## Sending -/

section Send

variable {P : Primitives β} {s s' u : SessionState β} {fresh : X25519Seed β}

/-- What only throws or returns keeps the session. -/
theorem lift_run {α : Type} {x : Except DartError α} {a : α} (h : (liftM x : RatchetM β α).run s = .ok a s') : s' = s := by
  cases x with
  | error e => cases h
  | ok a => cases h; rfl

theorem SameReceiving.refl (s : SessionState β) : SameReceiving s s := ⟨rfl, rfl, rfl, rfl, rfl⟩

theorem SameReceiving.trans (h : SameReceiving s u) (h' : SameReceiving u s') : SameReceiving s s' :=
  ⟨h.1.trans h'.1, h.2.trans h'.2, h.3.trans h'.3, h.4.trans h'.4, h.5.trans h'.5⟩

theorem firstSendRatchet_sameReceiving (h : (DoubleRatchet.firstSendRatchet P fresh).run s = .ok () s') :
    SameReceiving s s' ∧ s'.sendInitialized = true := by
  obtain ⟨_, u, h1, h⟩ := run_bind_ok h
  cases h1
  obtain ⟨_, u, h1, h⟩ := run_bind_ok h
  cases h1
  obtain ⟨dhOut, v, h1, h⟩ := run_bind_ok h
  cases hx : X25519Kex.sharedSecret P (X25519Kex.generateKeyPair P fresh).2 s.remotePublicKey with
  | error e => simp only [hx] at h1; cases h1
  | ok dhOut' =>
    simp only [hx] at h1
    cases h1
    cases h
    exact ⟨⟨rfl, rfl, rfl, rfl, rfl⟩, rfl⟩

/-- A send keeps the receiving half. -/
theorem DoubleRatchet.encrypt_sameReceiving {a : RatchetHeader × MessageKeyBundle β}
    (h : (encrypt P fresh).run s = .ok a s') : SameReceiving s s' := by
  have htail : ∀ u, (encrypt P fresh).run u = .ok a s' → u.sendInitialized = true → SameReceiving u s' := by
    intro u h hu
    simp only [encrypt, EStateM.run_bind, EStateM.run_get, hu, Bool.true_eq_false, if_false] at h
    cases hd : MessageKeys.derive P u.sendChainKey u.sendCounter with
    | error e => simp [hd] at h
    | ok r =>
      cases hc : RatchetHeader.create u.ourPublicKey u.prevSendChainLength u.sendCounter with
      | error e => simp [hd, hc] at h
      | ok header =>
        simp [hd, hc] at h
        rw [← h.2]
        exact ⟨rfl, rfl, rfl, rfl, rfl⟩
  cases hi : s.sendInitialized with
  | true => exact htail s h hi
  | false =>
    cases h1 : (firstSendRatchet P fresh).run s with
    | error e v => simp [encrypt, hi, h1] at h
    | ok _ v =>
      obtain ⟨hv, hlive⟩ := firstSendRatchet_sameReceiving h1
      have hrun : (encrypt P fresh).run s = (encrypt P fresh).run v := by simp [encrypt, hi, h1, hlive]
      exact hv.trans (htail v (hrun.symm.trans h) hlive)

/-- So does a send of the triple ratchet. -/
theorem TripleRatchet.encrypt_sameReceiving {a : TripleHeader × MessageKeyBundle β}
    (h : (encrypt P fresh).run s = .ok a s') : SameReceiving s s' := by
  obtain ⟨⟨header, keys⟩, u, h1, h⟩ := run_bind_ok h
  refine (DoubleRatchet.encrypt_sameReceiving h1).trans ?_
  obtain ⟨_, v, h2, h⟩ := run_bind_ok h
  cases h2
  obtain ⟨_, v, h2, h⟩ := run_bind_ok h
  cases h2
  obtain ⟨_, v, h2, h⟩ := run_bind_ok h
  cases h2
  obtain ⟨spqrKey, v, h2, h⟩ := run_bind_ok h
  obtain ⟨bundle, w, h3, h⟩ := run_bind_ok h
  obtain ⟨header', w', h4, h⟩ := run_bind_ok h
  cases h
  rw [lift_run h4, lift_run h3, lift_run h2]
  exact ⟨rfl, rfl, rfl, rfl, rfl⟩

end Send

/-! ## Receiving -/

/-- What the first action returns the second one returns too, from every session that receives alike. -/
def Blind {α : Type} (x y : RatchetM β α) : Prop :=
  ∀ s t a s', SameReceiving s t → x.run s = .ok a s' → ∃ t', y.run t = .ok a t' ∧ SameReceiving s' t'

section Blind

variable {α γ : Type} {P : Primitives β}

theorem Blind.bind {x y : RatchetM β α} {f g : α → RatchetM β γ} (hx : Blind x y) (hf : ∀ a, Blind (f a) (g a)) :
    Blind (x >>= f) (y >>= g) := by
  intro s t c s' hst hr
  obtain ⟨a, u, h1, h2⟩ := run_bind_ok hr
  obtain ⟨v, h3, huv⟩ := hx s t a u hst h1
  obtain ⟨t', h4, ht'⟩ := hf a u v c s' huv h2
  exact ⟨t', by rw [EStateM.run_bind, h3]; exact h4, ht'⟩

theorem Blind.reading {f g : SessionState β → RatchetM β γ} (hf : ∀ s t, SameReceiving s t → Blind (f s) (g t)) :
    Blind (get >>= f) (get >>= g) :=
  fun s t a s' hst hr => hf s t hst s t a s' hst hr

theorem Blind.writing {s t : SessionState β} (h : SameReceiving s t) :
    Blind (set s : RatchetM β PUnit) (set t) := by
  intro _ _ a s' _ hr
  cases hr
  exact ⟨t, rfl, h⟩

theorem Blind.updating {f g : SessionState β → SessionState β}
    (hf : ∀ s t, SameReceiving s t → SameReceiving (f s) (g t)) : Blind (modify f : RatchetM β PUnit) (modify g) := by
  intro s t a s' hst hr
  cases hr
  exact ⟨g t, rfl, hf s t hst⟩

theorem Blind.returning (a : α) : Blind (pure a : RatchetM β α) (pure a) := by
  intro s t b s' hst hr
  cases hr
  exact ⟨t, rfl, hst⟩

theorem Blind.throwing (e : DartError) (f : α → RatchetM β γ) (y : RatchetM β γ) : Blind (throw e >>= f) y := by
  intro s t b s' hst hr
  cases hr

theorem Blind.lifting (x : Except DartError α) : Blind (liftM x : RatchetM β α) (liftM x) := by
  intro s t b s' hst hr
  cases x with
  | error e => cases hr
  | ok a =>
    cases hr
    exact ⟨t, rfl, hst⟩

theorem Blind.branch {c : Prop} [Decidable c] {x x' y y' : RatchetM β α} (hx : Blind x x') (hy : Blind y y') :
    Blind (if c then x else y) (if c then x' else y') := by
  split
  · exact hx
  · exact hy

/-- Staging a key depends on the receiving chain alone. -/
theorem Blind.stageSkipped (counter : Int) :
    Blind (DoubleRatchet.stageSkipped P counter) (DoubleRatchet.stageSkipped P counter) := by
  refine Blind.reading fun s t hst => ?_
  rw [hst.skipped, hst.recvChainKey, hst.remotePublicKey]
  refine Blind.branch (Blind.throwing _ _ _) ?_
  exact Blind.bind (Blind.lifting _) fun r => Blind.writing ⟨rfl, hst.recvCounter, rfl, hst.spqrSeed, rfl⟩

/-- So does the staging loop. -/
theorem Blind.stageUntil (target : Int) (limit : Option Int) : ∀ (fuel : Nat) (staged : Int),
    Blind (DoubleRatchet.stageUntil P target limit fuel staged) (DoubleRatchet.stageUntil P target limit fuel staged)
  | 0, _ => Blind.returning ()
  | fuel + 1, staged => by
    have hinc : ∀ s t : SessionState β, SameReceiving s t →
        SameReceiving { s with recvCounter := s.recvCounter + 1 } { t with recvCounter := t.recvCounter + 1 } :=
      fun s t h => ⟨h.recvChainKey, by rw [h.recvCounter], h.remotePublicKey, h.spqrSeed, h.skipped⟩
    refine Blind.reading fun s t hst => ?_
    rw [hst.recvCounter]
    refine Blind.branch ?_ (Blind.returning ())
    refine Blind.bind (Blind.stageSkipped _) fun _ => Blind.bind (Blind.updating hinc) fun _ => ?_
    exact Blind.branch (Blind.throwing _ _ _) (Blind.stageUntil target limit fuel _)

/-- The current chain. -/
theorem Blind.receive (n : Int) : Blind (DoubleRatchet.receive P n) (DoubleRatchet.receive P n) := by
  refine Blind.reading fun s t hst => ?_
  rw [hst.recvCounter]
  refine Blind.branch (Blind.throwing _ _ _) (Blind.branch (Blind.throwing _ _ _) ?_)
  refine Blind.bind (Blind.stageUntil _ _ _ _) fun _ => Blind.reading fun s t hst => ?_
  rw [hst.recvChainKey, hst.recvCounter]
  refine Blind.bind (Blind.lifting _) fun r => Blind.bind (Blind.writing ?_) fun _ => Blind.returning _
  exact ⟨rfl, rfl, hst.remotePublicKey, hst.spqrSeed, hst.skipped⟩

/-- A DH ratchet whose first part staged its keys. -/
theorem dhRatchet_staged {s v : SessionState β} {header : RatchetHeader} (fresh : X25519Seed β)
    (h : (DoubleRatchet.stageUntil P header.prevChainLength (some DoubleRatchet.maxSkip)
      (header.prevChainLength - s.recvCounter).toNat 0).run s = .ok () v) (hk : v.ourPrivateKey.length = 32) :
    (DoubleRatchet.dhRatchet P fresh header).run s = .ok () (v.ratcheted P header.dhPublicKey fresh.1) := by
  have h1 := X25519Kex.sharedSecret_ok P hk header.dhPublicKey_length
  have h2 := X25519Kex.sharedSecret_ok P fresh.2 header.dhPublicKey_length
  simp only [DoubleRatchet.dhRatchet, EStateM.run_bind, EStateM.run_get, h]
  simp [h1, h2, X25519Kex.generateKeyPair, SessionState.ratcheted, kdfRoot, kdfChain]

/-- A DH ratchet receives alike whatever key pair it draws. -/
theorem dhRatchet_fresh {s s' : SessionState β} {header : RatchetHeader} {fresh : X25519Seed β}
    (fresh' : X25519Seed β) (h : (DoubleRatchet.dhRatchet P fresh header).run s = .ok () s') :
    ∃ t', (DoubleRatchet.dhRatchet P fresh' header).run s = .ok () t' ∧ SameReceiving s' t' := by
  have hrun := h
  obtain ⟨_, u, h1, h⟩ := run_bind_ok h
  cases h1
  obtain ⟨_, v, h2, h⟩ := run_bind_ok h
  obtain ⟨_, v', h3, h⟩ := run_bind_ok h
  cases h3
  obtain ⟨dhOut, v', h3, -⟩ := run_bind_ok h
  cases hx : X25519Kex.sharedSecret P v.ourPrivateKey header.dhPublicKey with
  | error e => rw [hx] at h3; cases h3
  | ok dhOut' =>
    have hk := (X25519Kex.sharedSecret_inv hx).1
    rw [dhRatchet_staged fresh h2 hk] at hrun
    cases hrun
    exact ⟨_, dhRatchet_staged fresh' h2 hk, rfl, rfl, rfl, rfl, rfl⟩

/-- So does `decrypt`, which returns the same keys. -/
theorem DoubleRatchet.decrypt_fresh {s s' : SessionState β} {header : RatchetHeader} {fresh : X25519Seed β}
    (fresh' : X25519Seed β) {keys : MessageKeyBundle β} (h : (decrypt P fresh header).run s = .ok keys s') :
    ∃ t', (decrypt P fresh' header).run s = .ok keys t' ∧ SameReceiving s' t' := by
  simp only [decrypt, EStateM.run_bind, EStateM.run_get] at h ⊢
  cases hl : s.skipped.lookup (skipKey header.dhPublicKey header.messageNumber) with
  | some cached =>
    simp only [hl] at h ⊢
    exact ⟨s', h, rfl, rfl, rfl, rfl, rfl⟩
  | none =>
    simp only [hl] at h ⊢
    by_cases hd : header.dhPublicKey ≠ s.remotePublicKey
    · rw [if_pos hd] at h ⊢
      obtain ⟨_, u, h1, h2⟩ := run_bind_ok h
      obtain ⟨v, h3, huv⟩ := dhRatchet_fresh fresh' h1
      obtain ⟨t', h4, ht'⟩ := Blind.receive _ u v keys s' huv h2
      exact ⟨t', by rw [EStateM.run_bind, h3]; exact h4, ht'⟩
    · rw [if_neg hd] at h ⊢
      exact ⟨s', h, rfl, rfl, rfl, rfl, rfl⟩

theorem TripleRatchet.decrypt_fresh {s s' : SessionState β} {header : TripleHeader} {fresh : X25519Seed β}
    (fresh' : X25519Seed β) {keys : MessageKeyBundle β} (h : (decrypt P fresh header).run s = .ok keys s') :
    ∃ t', (decrypt P fresh' header).run s = .ok keys t' := by
  obtain ⟨dhKeys, u, h1, h2⟩ := run_bind_ok h
  obtain ⟨v, h3, huv⟩ := DoubleRatchet.decrypt_fresh fresh' h1
  have hrest : Blind (do
      let spqrKey ← SpqrChain.chainKeyFor P (← get).spqrSeed header.spqrEpoch
      combine P dhKeys.messageKey spqrKey header.dh.messageNumber header.spqrEpoch) (do
      let spqrKey ← SpqrChain.chainKeyFor P (← get).spqrSeed header.spqrEpoch
      combine P dhKeys.messageKey spqrKey header.dh.messageNumber header.spqrEpoch) := by
    refine Blind.reading fun s t hst => ?_
    rw [hst.spqrSeed]
    exact Blind.bind (Blind.lifting _) fun _ => Blind.lifting _
  obtain ⟨t', h4, -⟩ := hrest u v keys s' huv h2
  exact ⟨t', by rw [decrypt, EStateM.run_bind, h3]; exact h4⟩

end Blind

end Chhaya
