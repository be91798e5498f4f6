import Chhaya.Crypto.Ideal
import Chhaya.Ratchet.Pair

/-!
# Ratchet agreement

A `Dialogue` is two sessions with the messages each side has produced and the other not yet received. Any side may
encrypt at any time and any message under way may arrive at any time, once; a message that never arrives is dropped.
What the environment promises stands in `Dialogue.Step`: a key pair just generated is new to its owner, and a delivery
keeps within the skip bounds.

- `PairInv.decrypt_ok`, `PairInv.decrypt_keeps`: one delivery.
- `Dialogue.reachable_inv`: every dialogue that can be reached satisfies the invariant.
- `ratchet_agreement`: whatever is delivered decrypts to what `encrypt` returned with it.
-/

namespace Chhaya

variable {β : Type} {P : Primitives β}

/-! ## One delivery -/

/-- No gap exceeds `maxSkip`, and what the delivery stages fits the cache. -/
def WithinBounds (s : SessionState β) (h : RatchetHeader) : Prop :=
  s.skipped.lookup (skipKey h.dhPublicKey h.messageNumber) = none →
    if h.dhPublicKey = s.remotePublicKey then
      h.messageNumber - s.recvCounter ≤ DoubleRatchet.maxSkip ∧
        s.skipped.keys.length + (h.messageNumber - s.recvCounter).toNat ≤ DoubleRatchet.maxSkippedTotal
    else
      h.prevChainLength - s.recvCounter ≤ DoubleRatchet.maxSkip ∧ h.messageNumber ≤ DoubleRatchet.maxSkip ∧
        s.skipped.keys.length + (h.prevChainLength - s.recvCounter).toNat + h.messageNumber ≤
          DoubleRatchet.maxSkippedTotal

/-- The header of message `n` of the chain `c`. -/
structure HeaderOf (h : RatchetHeader) (c : Chain β) (n : Nat) : Prop where
  pub : h.dhPublicKey = c.pub
  prev : h.prevChainLength = c.prev
  number : h.messageNumber = n

/-- Chains stay on the lanes, and only `z` may have opened a new one, under the key `pub`. -/
structure Grown (l l' : Side → Lane β) (z : Side) (pub : Bytes) : Prop where
  keeps : ∀ y, ∀ d ∈ (l y).sent, ∃ d' ∈ (l' y).sent,
    d'.pub = d.pub ∧ d'.start = d.start ∧ d'.prev = d.prev ∧ d.len ≤ d'.len
  opens : ∀ y, ∀ d ∈ (l' y).sent, d.pub ∈ (l y).sent.map Chain.pub ∨ y = z ∧ d.pub = pub

/-- How a delivery changes the lanes: one message of `x` is taken, and the receiver may have opened a chain. -/
structure Taken (s' : SessionState β) (l l' : Side → Lane β) (x : Side) (c : Chain β) (n : Nat) : Prop where
  grown : Grown l l' x.other s'.ourPublicKey
  taken : (l' x).taken = insert (c.pub, n) (l x).taken
  other : (l' x.other).taken = (l x.other).taken

/-- Chains that are only added to. -/
theorem Grown.of_mem {l l' : Side → Lane β} {z : Side} {pub : Bytes} (h1 : ∀ y, ∀ d ∈ (l y).sent, d ∈ (l' y).sent)
    (h2 : ∀ y, ∀ d ∈ (l' y).sent, d ∈ (l y).sent ∨ y = z ∧ d.pub = pub) : Grown l l' z pub :=
  ⟨fun y d hd => ⟨d, h1 y d hd, rfl, rfl, rfl, Nat.le_refl _⟩,
    fun y d hd => (h2 y d hd).imp_left List.mem_map_of_mem⟩

theorem Grown.trans {l₁ l₂ l₃ : Side → Lane β} {z : Side} {pub : Bytes} (h₁ : Grown l₁ l₂ z pub)
    (h₂ : Grown l₂ l₃ z pub) : Grown l₁ l₃ z pub where
  keeps y d hd := by
    obtain ⟨e, he, h1, h2, h3, h4⟩ := h₁.keeps y d hd
    obtain ⟨f, hf, g1, g2, g3, g4⟩ := h₂.keeps y e he
    exact ⟨f, hf, g1.trans h1, g2.trans h2, g3.trans h3, h4.trans g4⟩
  opens y d hd := by
    rcases h₂.opens y d hd with h | h
    · obtain ⟨e, he, hp⟩ := List.mem_map.mp h
      rw [← hp]; exact h₁.opens y e he
    · exact Or.inr h

/-- A message taken without a ratchet. -/
theorem Taken.of_take (s' : SessionState β) (l : Side → Lane β) (x : Side) (c : Chain β) (n k : Nat) :
    Taken s' l (Function.update l x ((l x).take c n k)) x c n := by
  have hs : ∀ y, (Function.update l x ((l x).take c n k) y).sent = (l y).sent := fun y => by
    rcases Side.eq_or_other x y with rfl | rfl
    · rw [Function.update_self]; rfl
    · rw [Function.update_of_ne (Side.other_ne x)]
  refine ⟨Grown.of_mem (fun y d hd => (hs y).symm ▸ hd) (fun y d hd => Or.inl (hs y ▸ hd)), ?_, ?_⟩
  · rw [Function.update_self]; rfl
  · rw [Function.update_of_ne (Side.other_ne x)]

/-- A message taken by a ratchet. -/
theorem Taken.of_ratchet {s : Side → SessionState β} {s' : SessionState β} {l : Side → Lane β} {x : Side} {c : Chain β}
    {n prev : Nat} {fresh : List β} (hu : (l x).unseen = some c) (ho : (l x.other).unseen = none)
    (hprev : prev = (l x).cur.len) (hp : s'.ourPublicKey = P.x25519Public fresh) :
    Taken s' l (ratchetLanes P s l x c n prev fresh) x c n := by
  have h1 : ratchetLanes P s l x c n prev fresh x = ((l x).advance c prev).take c n (n + 1) := by
    rw [ratchetLanes, Function.update_of_ne (Side.ne_other x), Function.update_self]
  have hs1 : (ratchetLanes P s l x c n prev fresh x).sent = (l x).sent := by
    rw [h1]; simp [Lane.take, Lane.advance, Lane.sent, Lane.seen, hu]
  have hs2 : ∀ d, d ∈ (ratchetLanes P s l x c n prev fresh x.other).sent ↔
      d = ⟨P.x25519Public fresh, kdfChain P (kdfRoot P (s x.other).rootKey (P.x25519 (s x.other).ourPrivateKey c.pub))
        (P.x25519 fresh c.pub), 0, (l x.other).cur.len⟩ ∨ d ∈ (l x.other).sent := fun d => by
    rw [ratchetLanes, Function.update_self, (l x.other).mem_open ho]
  have ht : (ratchetLanes P s l x c n prev fresh x).taken = insert (c.pub, n) (l x).taken := by
    rw [h1]
    show insert (c.pub, n) ((l x).taken ∪ (l x).lost prev) = _
    rw [(l x).lost_eq_empty hprev, Set.union_empty]
  refine ⟨Grown.of_mem (fun y d hd => ?_) (fun y d hd => ?_), ht, ?_⟩
  · rcases Side.eq_or_other x y with rfl | rfl
    · rw [hs1]; exact hd
    · exact (hs2 d).mpr (Or.inr hd)
  · rcases Side.eq_or_other x y with rfl | rfl
    · rw [hs1] at hd; exact Or.inl hd
    · rcases (hs2 d).mp hd with rfl | hd
      · exact Or.inr ⟨rfl, hp.symm⟩
      · exact Or.inl hd
  · rw [ratchetLanes, Function.update_self]; rfl

section Delivery

variable {s : Side → SessionState β} {l : Side → Lane β} {x : Side} {c : Chain β} {h : RatchetHeader}

theorem PairInv.prev_le (hi : PairInv P s l) (hc : (l x).unseen = some c) : c.prev ≤ 2 ^ 32 := by
  rw [(hi.tx x).linked c hc]
  exact (hi.tx x).len_le _ ((l x).seen_subset_sent List.mem_cons_self)

/-- At most one side has an unseen chain. -/
theorem PairInv.other_unseen (hi : PairInv P s l) (hc : (l x).unseen = some c) : (l x.other).unseen = none := by
  cases hi.phase with
  | initial unseen _ _ _ => exact unseen _
  | ahead z d unseen other _ start _ =>
    rcases Side.eq_or_other x z with rfl | rfl
    · exact other
    · rw [Side.other_other, hc] at other; cases other

/-- An open message within the bounds decrypts to the keys of its chain. -/
theorem PairInv.decrypt_ok (hi : PairInv P s l) {n : Nat} (ho : (l x).Open c n) (hh : HeaderOf h c n)
    (hb : WithinBounds (s x.other) h) (fresh : X25519Seed β) :
    ∃ s', (DoubleRatchet.decrypt P fresh h).run (s x.other) = .ok (chainKeys P c.start n) s' := by
  obtain ⟨h1, h2, rfl⟩ := hh
  have hlt := ho.lt
  have hlen := (hi.tx x).len_le c ho.mem
  have hrx := hi.rx x
  rcases hi.position ho with hl | ⟨hl, ⟨rfl, hn⟩ | hu⟩ <;> rw [← h1] at hl
  · exact ⟨_, DoubleRatchet.decrypt_cached P fresh hl⟩
  · have hb := hb hl
    rw [if_pos (h1.trans hrx.remote.symm), hrx.recv.counter] at hb
    simp only [DoubleRatchet.maxSkip] at hb
    exact ⟨_, DoubleRatchet.decrypt_current fresh hl (h1.trans hrx.remote.symm) hrx.recv hn (by omega) (by omega)
      (by omega)⟩
  · have hne : h.dhPublicKey ≠ (s x.other).remotePublicKey := by
      rw [h1, hrx.remote]; exact ((hi.tx x).unseen_ne hu _ List.mem_cons_self).symm
    have hb := hb hl
    rw [if_neg hne, hrx.recv.counter] at hb
    simp only [DoubleRatchet.maxSkip] at hb
    have hp := hi.prev_le hu
    have hr := DoubleRatchet.decrypt_ratchet fresh hl hne (hi.ok _) hrx.recv (by omega) (by omega) (by omega) (by omega)
    rw [h1, ← hi.unseen_start hu] at hr
    exact ⟨_, hr⟩

/-- How a delivery of message `n` of the chain `c` of `x`, its header giving `prev` as the length of the chain before,
changes the receiver and the lanes. -/
inductive Received (P : Primitives β) (s : Side → SessionState β) (l : Side → Lane β) (x : Side) (c : Chain β)
    (n prev : Nat) (fresh : List β) : SessionState β → (Side → Lane β) → Prop
  | take (s' : SessionState β) (k : Nat) (root : s'.rootKey = (s x.other).rootKey)
      (pub : s'.ourPublicKey = (s x.other).ourPublicKey) (peerId : s'.peerId = (s x.other).peerId) :
      Received P s l x c n prev fresh s' (Function.update l x ((l x).take c n k))
  | ratchet (unseen : (l x).unseen = some c) :
      Received P s l x c n prev fresh
        ((((s x.other).staged P (l x).cur.start (l x).next (prev - (l x).next)).ratcheted P c.pub fresh).received P
          ((s x.other).nextStart P c.pub) 0 n)
        (ratchetLanes P s l x c n prev fresh)

/-- A delivery that decrypts gives the keys of the chain and keeps the invariant. -/
theorem PairInv.decrypt_received (hi : PairInv P s l) {n : Nat} (ho : (l x).Open c n) (h1 : h.dhPublicKey = c.pub)
    (h2 : h.prevChainLength ≤ c.prev) (h3 : h.messageNumber = n) {fresh : X25519Seed β}
    (hf : P.x25519Public fresh.1 ∉ (l x.other).sent.map Chain.pub) {k : MessageKeyBundle β} {s' : SessionState β}
    (hrun : (DoubleRatchet.decrypt P fresh h).run (s x.other) = .ok k s') :
    k = chainKeys P c.start n ∧
      ∃ l', PairInv P (Function.update s x.other s') l' ∧ Received P s l x c n h.prevChainLength fresh.1 s' l' := by
  subst h3
  have hrx := hi.rx x
  have hcase := DoubleRatchet.decrypt_cases (hi.ok x.other) hrx.recv hrun
  rcases hi.position ho with hl | ⟨hl, ⟨rfl, hn⟩ | hu⟩ <;> rw [← h1] at hl
  · rcases hcase with ⟨hk, rfl⟩ | ⟨hk, -⟩ | ⟨hk, -⟩ <;> rw [hl] at hk
    · rw [h1] at hl ⊢
      exact ⟨(Option.some.inj hk).symm, _, hi.takeCached hl, .take _ _ rfl rfl rfl⟩
    · cases hk
    · cases hk
  · have hremote := h1.trans hrx.remote.symm
    rcases hcase with ⟨hk, -⟩ | ⟨-, -, -, -, rfl, rfl⟩ | ⟨-, hd, -⟩
    · rw [hl] at hk; cases hk
    · exact ⟨rfl, _, hi.takeCurrent hn ho.lt, .take _ _ rfl rfl rfl⟩
    · exact absurd hremote hd
  · have hne : h.dhPublicKey ≠ (s x.other).remotePublicKey := by
      rw [h1, hrx.remote]; exact ((hi.tx x).unseen_ne hu _ List.mem_cons_self).symm
    rcases hcase with ⟨hk, -⟩ | ⟨-, hd, -⟩ | ⟨-, -, -, -, rfl, rfl⟩
    · rw [hl] at hk; cases hk
    · exact absurd hd hne
    · rw [h1]
      exact ⟨by rw [hi.unseen_start hu], _, hi.takeRatchet hu ho.lt h2 fresh hf, .ratchet hu⟩

/-- When the header gives the length of the chain before, nothing is lost. -/
theorem PairInv.taken_of_received (hi : PairInv P s l) {n : Nat} {fresh : List β} {s' : SessionState β}
    {l' : Side → Lane β} (hr : Received P s l x c n c.prev fresh s' l') : Taken s' l l' x c n := by
  cases hr with
  | take _ k _ _ _ => exact Taken.of_take _ _ _ _ _ _
  | ratchet hu => exact Taken.of_ratchet hu (hi.other_unseen hu) ((hi.tx x).linked c hu) rfl

/-- The same for the header that the sender made. -/
theorem PairInv.decrypt_keeps (hi : PairInv P s l) {n : Nat} (ho : (l x).Open c n) (hh : HeaderOf h c n)
    {fresh : X25519Seed β} (hf : P.x25519Public fresh.1 ∉ (l x.other).sent.map Chain.pub) {k : MessageKeyBundle β}
    {s' : SessionState β} (hrun : (DoubleRatchet.decrypt P fresh h).run (s x.other) = .ok k s') :
    k = chainKeys P c.start n ∧ ∃ l', PairInv P (Function.update s x.other s') l' ∧ Taken s' l l' x c n := by
  obtain ⟨hk, l', hp, hr⟩ := hi.decrypt_received ho hh.pub (Nat.le_of_eq hh.prev) hh.number hf hrun
  rw [hh.prev] at hr
  exact ⟨hk, l', hp, hi.taken_of_received hr⟩

end Delivery

/-! ## One send -/

section Sending

variable {s : Side → SessionState β} {l : Side → Lane β}

/-- A new chain on a lane whose chains are all seen. -/
theorem Grown.of_open {l : Side → Lane β} {x : Side} (hu : (l x).unseen = none) (pub : Bytes) (start : List β) :
    Grown l (Function.update l x ((l x).open pub start)) x pub := by
  refine Grown.of_mem (fun y d hd => ?_) (fun y d hd => ?_) <;> rcases Side.eq_or_other x y with rfl | rfl
  · rw [Function.update_self]; exact ((l y).mem_open hu).mpr (Or.inr hd)
  · rw [Function.update_of_ne (Side.other_ne x)]; exact hd
  · rw [Function.update_self] at hd
    rcases ((l y).mem_open hu).mp hd with rfl | hd
    · exact Or.inr ⟨rfl, rfl⟩
    · exact Or.inl hd
  · rw [Function.update_of_ne (Side.other_ne x)] at hd; exact Or.inl hd

/-- A message more on the newest chain. -/
theorem Grown.of_bump (l : Side → Lane β) (x z : Side) (pub : Bytes) :
    Grown l (Function.update l x (l x).bump) z pub where
  keeps y d hd := by
    rcases Side.eq_or_other x y with rfl | rfl
    · rw [Function.update_self]
      rcases Lane.bump_mem hd with h | rfl
      · exact ⟨d, h, rfl, rfl, rfl, Nat.le_refl _⟩
      · exact ⟨_, (l y).bump.top_mem_sent, by simp, by simp, by simp, by simp⟩
    · rw [Function.update_of_ne (Side.other_ne x)]
      exact ⟨d, hd, rfl, rfl, rfl, Nat.le_refl _⟩
  opens y d hd := by
    rcases Side.eq_or_other x y with rfl | rfl
    · rw [Function.update_self] at hd
      exact Or.inl ((l y).bump_pubs ▸ List.mem_map_of_mem hd)
    · rw [Function.update_of_ne (Side.other_ne x)] at hd
      exact Or.inl (List.mem_map_of_mem hd)

/-- What a send that returns does: the header and the keys are those of the next message of the newest chain. -/
structure Sent (P : Primitives β) (s : SessionState β) (l l' : Side → Lane β) (x : Side) (w : TripleHeader × MessageKeyBundle β)
    (c : Chain β) (n : Nat) : Prop where
  header : HeaderOf w.1.dh c n
  epoch : w.1.spqrEpoch = n / 10
  keys : w.2 = sealKeys P s.spqrSeed c.start n
  opened : (l' x).Open c n
  new : ∀ d ∈ (l x).sent, d.pub = c.pub → d.len ≤ n
  taken : ∀ y, (l' y).taken = (l y).taken

/-- The lanes when `x` opens a chain with the key pair `fresh`. -/
def firstLanes (P : Primitives β) (s : Side → SessionState β) (l : Side → Lane β) (x : Side) (fresh : List β) :
    Side → Lane β :=
  Function.update l x ((l x).open (P.x25519Public fresh)
    (kdfChain P (s x).rootKey (P.x25519 fresh (s x).remotePublicKey)))

/-- How a send changes the session of `x` and the lanes. -/
inductive Advanced (P : Primitives β) (s : Side → SessionState β) (l : Side → Lane β) (x : Side) (fresh : List β) :
    SessionState β → (Side → Lane β) → Prop
  | live (s' : SessionState β) (root : s'.rootKey = (s x).rootKey) (pub : s'.ourPublicKey = (s x).ourPublicKey)
    (peerId : s'.peerId = (s x).peerId) :
    Advanced P s l x fresh s' (Function.update l x (l x).bump)
  | first (s' : SessionState β) (unseen : (l x).unseen = none)
    (root : s'.rootKey = kdfRoot P (s x).rootKey (P.x25519 fresh (s x).remotePublicKey))
    (pub : s'.ourPublicKey = P.x25519Public fresh) (peerId : s'.peerId = (s x).peerId) :
    Advanced P s l x fresh s'
      (Function.update (firstLanes P s l x fresh) x (firstLanes P s l x fresh x).bump)

/-- What has not been sent has not been taken. -/
theorem PairInv.top_untaken (hi : PairInv P s l) (x : Side) : ((l x).top.pub, (l x).top.len) ∉ (l x).taken := by
  intro ht
  cases hu : (l x).unseen with
  | none =>
    rw [Lane.top, hu, Option.getD_none] at ht
    have h1 := (hi.rx x).taken_cur _ ht
    have h2 := (hi.rx x).next_le
    omega
  | some u =>
    rw [Lane.top, hu, Option.getD_some] at ht
    obtain ⟨d, hd, he⟩ := (hi.rx x).taken_seen _ _ ht
    exact (hi.tx x).unseen_ne hu d hd he

/-- A send on a live chain. -/
theorem PairInv.encrypt_live (hi : PairInv P s l) {x : Side} (hs : (s x).sendInitialized = true)
    {fresh : X25519Seed β} {w : TripleHeader × MessageKeyBundle β} {s' : SessionState β}
    (hrun : (TripleRatchet.encrypt P fresh).run (s x) = .ok w s') :
    PairInv P (Function.update s x s') (Function.update l x (l x).bump) ∧
      Sent P (s x) l (Function.update l x (l x).bump) x w (l x).top.bump (l x).top.len := by
  obtain ⟨hn, h1, h2, h3, h4, h5, rfl⟩ := TripleRatchet.encrypt_live_inv hs ((hi.tx x).live hs) (hi.ok x) hrun
  refine ⟨hi.encrypt x hs hn _, ⟨h1.trans (hi.tx x).pub, h2, h3⟩, h4, h5, ⟨?_, Nat.lt_succ_self _, ?_⟩, ?_, fun y => ?_⟩
  · rw [Function.update_self, ← Lane.bump_top]; exact (l x).bump.top_mem_sent
  · rw [Function.update_self, Lane.bump_taken]; exact hi.top_untaken x
  · intro d hd he
    rw [(hi.tx x).pub_inj hd (l x).top_mem_sent he]
  · rcases Side.eq_or_other x y with rfl | rfl
    · rw [Function.update_self, Lane.bump_taken]
    · rw [Function.update_of_ne (Side.other_ne x)]

/-- The responder's first send cannot overflow. -/
theorem PairInv.sendAt_firstSent (hi : PairInv P s l) {x : Side} (hs : (s x).sendInitialized = false) (fresh : List β) :
    SendAt P ((s x).firstSent P fresh) (kdfChain P (s x).rootKey (P.x25519 fresh (s x).remotePublicKey)) 0 0 :=
  have hc := ((hi.tx x).idle hs).2.2.2
  ⟨length_kdfChain _ _ _, rfl, hc, hc⟩

/-- A send that throws leaves the session as it was. -/
theorem PairInv.encrypt_throws (hi : PairInv P s l) {x : Side} {fresh : X25519Seed β} {e : DartError}
    {s' : SessionState β} (hrun : (TripleRatchet.encrypt P fresh).run (s x) = .error e s') : s' = s x := by
  cases hs : (s x).sendInitialized with
  | true =>
    have hlive := (hi.tx x).live hs
    by_cases hn : (l x).top.len ≤ 0xFFFFFFFF
    · rw [TripleRatchet.encrypt_run fresh hs hlive (hi.ok x) hn] at hrun
      cases hrun
    · obtain ⟨e, he⟩ := DoubleRatchet.encrypt_overflow fresh hs hlive (Nat.not_le.mp hn)
      simp [TripleRatchet.encrypt, he] at hrun
      exact hrun.2.symm
  | false =>
    have hok : ((s x).firstSent P fresh.1).Ok P := ⟨fresh.2, rfl, (hi.ok x).3, (hi.ok x).4⟩
    rw [TripleRatchet.encrypt_first fresh hs (hi.ok x).remotePublicKey_length,
      TripleRatchet.encrypt_run fresh rfl (hi.sendAt_firstSent hs fresh.1) hok (Nat.zero_le _)] at hrun
    cases hrun

/-- A send that returns keeps the invariant. -/
theorem PairInv.encrypt_keeps (hi : PairInv P s l) {x : Side} {fresh : X25519Seed β}
    (hf : P.x25519Public fresh.1 ∉ (l x).sent.map Chain.pub) {w : TripleHeader × MessageKeyBundle β}
    {s' : SessionState β} (hrun : (TripleRatchet.encrypt P fresh).run (s x) = .ok w s') :
    ∃ l' c n, PairInv P (Function.update s x s') l' ∧ Sent P (s x) l l' x w c n ∧ Grown l l' x s'.ourPublicKey ∧
      Advanced P s l x fresh.1 s' l' := by
  cases hs : (s x).sendInitialized with
  | true =>
    obtain ⟨h1, h2⟩ := hi.encrypt_live hs hrun
    obtain ⟨-, -, -, -, -, -, rfl⟩ := TripleRatchet.encrypt_live_inv hs ((hi.tx x).live hs) (hi.ok x) hrun
    exact ⟨_, _, _, h1, h2, Grown.of_bump l x x _, .live _ rfl rfl rfl⟩
  | false =>
    obtain ⟨hun, -⟩ := (hi.tx x).idle hs
    rw [TripleRatchet.encrypt_first fresh hs (hi.ok x).remotePublicKey_length] at hrun
    have h1 := hi.firstSend x hs fresh hf
    have hgo := Grown.of_open hun (P.x25519Public fresh.1)
      (kdfChain P (s x).rootKey (P.x25519 fresh.1 (s x).remotePublicKey))
    change PairInv P _ (firstLanes P s l x fresh.1) at h1
    change Grown l (firstLanes P s l x fresh.1) x _ at hgo
    have hl1 : ∀ y, (firstLanes P s l x fresh.1 y).taken = (l y).taken := fun y => by
      rcases Side.eq_or_other x y with rfl | rfl
      · rw [firstLanes, Function.update_self]; rfl
      · rw [firstLanes, Function.update_of_ne (Side.other_ne x)]
    have hlive : (Function.update s x ((s x).firstSent P fresh.1) x).sendInitialized = true := by
      rw [Function.update_self]; rfl
    have hseed : (Function.update s x ((s x).firstSent P fresh.1) x).spqrSeed = (s x).spqrSeed := by
      rw [Function.update_self]; rfl
    rw [← Function.update_self x ((s x).firstSent P fresh.1) s] at hrun
    obtain ⟨h2, h3⟩ := h1.encrypt_live hlive hrun
    obtain ⟨-, -, -, -, -, -, hs'⟩ := TripleRatchet.encrypt_live_inv hlive ((h1.tx x).live hlive) (h1.ok x) hrun
    rw [Function.update_self] at hs'
    rw [Function.update_idem] at h2
    have hpub : s'.ourPublicKey = P.x25519Public fresh.1 := by rw [hs']; rfl
    have hroot : s'.rootKey = kdfRoot P (s x).rootKey (P.x25519 fresh.1 (s x).remotePublicKey) := by rw [hs']; rfl
    refine ⟨_, _, _, h2, ⟨h3.header, h3.epoch, hseed ▸ h3.keys, h3.opened, fun d hd he => ?_, fun y => ?_⟩, ?_,
      .first s' hun hroot hpub (by rw [hs']; rfl)⟩
    · obtain ⟨d', hd', hp, -, -, hle⟩ := hgo.keeps x d hd
      exact hle.trans (h3.new d' hd' (hp.trans he))
    · exact (h3.taken y).trans (hl1 y)
    · rw [hpub]; exact hgo.trans (Grown.of_bump _ x x _)

end Sending

/-! ## Two fresh sessions -/

/-- The lanes of two sessions just opened. -/
def initialLanes (P : Primitives β) (sharedSecret dhOut : List β) (s : Side → SessionState β) : Side → Lane β
  | .initiator => ⟨none, ⟨(s .initiator).ourPublicKey, chainA P sharedSecret dhOut, 0, 0⟩, [], 0, ∅⟩
  | .responder => ⟨none, ⟨(s .responder).ourPublicKey, chainB P sharedSecret dhOut, 0, 0⟩, [], 0, ∅⟩

/-- Two sides as a function of the role. -/
def bySide {α : Type} (i r : α) : Side → α
  | .initiator => i
  | .responder => r

/-- Two sessions opened with opposite roles, one shared secret and each other's keys belong together. -/
theorem PairInv.opened (idI idR : String) (sharedSecret : List β) {a b : List β} (ha : a.length = 32) (hb : b.length = 32) :
    let s := bySide (openedSession P idI true sharedSecret (P.x25519Public b) a)
      (openedSession P idR false sharedSecret (P.x25519Public a) b)
    PairInv P s (initialLanes P sharedSecret (P.x25519 a (P.x25519Public b)) s) := by
  intro s
  have hdh := P.x25519_comm b a
  refine ⟨fun x => ?_, fun x => ?_, fun x => ?_, fun x => ?_, ?_⟩
  · cases x with
    | initiator => exact openedSession_ok P _ _ _ ha (P.length_x25519Public b)
    | responder => exact openedSession_ok P _ _ _ hb (P.length_x25519Public a)
  · cases x with
    | initiator =>
      exact ⟨rfl, fun _ => ⟨length_chainA _ _ _, rfl, rfl, rfl⟩, fun hf => (by cases hf), List.nodup_singleton _,
        fun _ hu => (by cases hu), by simp [initialLanes, Lane.sent, Lane.seen],
        by simp [initialLanes, Lane.sent, Lane.seen]⟩
    | responder =>
      exact ⟨rfl, fun hf => (by cases hf), fun _ => ⟨rfl, rfl, rfl, rfl⟩, List.nodup_singleton _,
        fun _ hu => (by cases hu), by simp [initialLanes, Lane.sent, Lane.seen],
        by simp [initialLanes, Lane.sent, Lane.seen]⟩
  · have hc : ∀ d, Cached P ∅ ∅ d 0 := fun d => Cached.of_unknown fun n => AList.lookup_empty _
    cases x with
    | initiator =>
      refine ⟨rfl, ⟨length_chainA _ _ _, ?_, rfl⟩, Nat.zero_le _, hc _, fun _ hd => (by cases hd),
        fun _ _ _ hv => (by cases hv), fun _ hn => (by cases hn), fun _ _ hn => (by cases hn)⟩
      show chainA P sharedSecret (P.x25519 b (P.x25519Public a)) = chainA P sharedSecret (P.x25519 a (P.x25519Public b))
      rw [hdh]
    | responder =>
      exact ⟨rfl, ⟨length_chainB _ _ _, rfl, rfl⟩, Nat.zero_le _, hc _, fun _ hd => (by cases hd),
        fun _ _ _ hv => (by cases hv), fun _ hn => (by cases hn), fun _ _ hn => (by cases hn)⟩
  · cases x <;> rfl
  · refine .initial (fun x => by cases x <;> rfl) ?_ rfl rfl
    show (initSeed P sharedSecret (P.x25519 a (P.x25519Public b))).take 32
      = (initSeed P sharedSecret (P.x25519 b (P.x25519Public a))).take 32
    rw [hdh]

/-! ## Dialogues -/

/-- What `encrypt` returned: the header goes to the peer. -/
structure Wire (β : Type) where
  header : TripleHeader
  keys : MessageKeyBundle β

/-- Which message of which chain `w` is. -/
def Wire.id (w : Wire β) : Bytes × Nat := (w.header.dh.dhPublicKey, w.header.dh.messageNumber)

/-- Two sessions, what each side has sent and the other not yet received, and the public keys each side has had. -/
structure Dialogue (β : Type) where
  session : Side → SessionState β
  inFlight : Side → List (Wire β)
  publics : Side → List Bytes

namespace Dialogue

/-- Two sessions before any message. -/
def start (i r : SessionState β) : Dialogue β where
  session := bySide i r
  inFlight _ := []
  publics x := [(bySide i r x).ourPublicKey]

/-- Side `x` encrypts. -/
def encrypt (P : Primitives β) (d : Dialogue β) (x : Side) (fresh : X25519Seed β) : Dialogue β :=
  match (TripleRatchet.encrypt P fresh).run (d.session x) with
  | .ok (header, keys) s' =>
    { session := Function.update d.session x s'
      inFlight := Function.update d.inFlight x (⟨header, keys⟩ :: d.inFlight x)
      publics := Function.update d.publics x (s'.ourPublicKey :: d.publics x) }
  | .error _ s' => { d with session := Function.update d.session x s' }

theorem encrypt_ok {d : Dialogue β} {x : Side} {fresh : X25519Seed β} {w : TripleHeader × MessageKeyBundle β}
    {s' : SessionState β} (h : (TripleRatchet.encrypt P fresh).run (d.session x) = .ok w s') :
    d.encrypt P x fresh = ⟨Function.update d.session x s', Function.update d.inFlight x (⟨w.1, w.2⟩ :: d.inFlight x),
      Function.update d.publics x (s'.ourPublicKey :: d.publics x)⟩ := by
  unfold encrypt
  rw [h]

/-- The message `w` of `x` arrives; `rest` stays under way. -/
def deliver (P : Primitives β) (d : Dialogue β) (x : Side) (w : Wire β) (rest : List (Wire β)) (fresh : X25519Seed β) :
    Dialogue β :=
  let s' := match (TripleRatchet.decrypt P fresh w.header).run (d.session x.other) with
    | .ok _ s' | .error _ s' => s'
  { session := Function.update d.session x.other s'
    inFlight := Function.update d.inFlight x rest
    publics := Function.update d.publics x.other (s'.ourPublicKey :: d.publics x.other) }

/-- One event. A key pair that is generated has a public key its owner has not had. -/
inductive Step (P : Primitives β) : Dialogue β → Dialogue β → Prop
  | encrypt (d : Dialogue β) (x : Side) (fresh : X25519Seed β) (new : P.x25519Public fresh.1 ∉ d.publics x) :
    Step P d (d.encrypt P x fresh)
  | deliver (d : Dialogue β) (x : Side) (w : Wire β) (before after : List (Wire β)) (fresh : X25519Seed β)
      (underway : d.inFlight x = before ++ w :: after) (new : P.x25519Public fresh.1 ∉ d.publics x.other)
      (bounds : WithinBounds (d.session x.other) w.header.dh) :
    Step P d (d.deliver P x w (before ++ after) fresh)

/-- The dialogues that two sessions can reach. -/
inductive Reachable (P : Primitives β) (i r : SessionState β) : Dialogue β → Prop
  | start : Reachable P i r (start i r)
  | step {d d' : Dialogue β} (h : Reachable P i r d) (hs : Step P d d') : Reachable P i r d'

/-- `w` is an open message of its lane, with the keys it was sealed with. -/
def Issued (P : Primitives β) (seed : List β) (l : Lane β) (w : Wire β) : Prop :=
  ∃ c n, l.Open c n ∧ HeaderOf w.header.dh c n ∧ w.header.spqrEpoch = n / 10 ∧ w.keys = sealKeys P seed c.start n

/-- The invariant of dialogues. -/
structure Inv (P : Primitives β) (d : Dialogue β) (l : Side → Lane β) : Prop where
  pair : PairInv P d.session l
  issued : ∀ x, ∀ w ∈ d.inFlight x, Issued P (d.session .initiator).spqrSeed (l x) w
  distinct : ∀ x, ((d.inFlight x).map Wire.id).Nodup
  publics : ∀ x, ∀ c ∈ (l x).sent, c.pub ∈ d.publics x

/-- An open message stays open while lanes grow and other messages are taken. -/
theorem Issued.grow {seed : List β} {l l' : Side → Lane β} {z y : Side} {pub : Bytes} {w : Wire β}
    (h : Issued P seed (l y) w) (hg : Grown l l' z pub)
    (ht : w.id ∈ (l' y).taken → w.id ∈ (l y).taken) : Issued P seed (l' y) w := by
  obtain ⟨c, n, ho, hh, he, hk⟩ := h
  obtain ⟨c', hc', h1, h2, h3, h4⟩ := hg.keeps y c ho.mem
  refine ⟨c', n, ⟨hc', Nat.lt_of_lt_of_le ho.lt h4, fun hm => ho.untaken ?_⟩, ⟨hh.pub.trans h1.symm,
    hh.prev.trans h3.symm, hh.number⟩, he, by rw [h2]; exact hk⟩
  rw [h1, ← hh.pub, ← hh.number] at hm
  have := ht hm
  rwa [Wire.id, hh.pub, hh.number] at this

/-- The public keys recorded cover a lane that has grown. -/
theorem publics_grow {l l' : Side → Lane β} {z : Side} {pub : Bytes} {p : Side → List Bytes} (hg : Grown l l' z pub)
    (hp : ∀ y, ∀ c ∈ (l y).sent, c.pub ∈ p y) :
    ∀ y, ∀ c ∈ (l' y).sent, c.pub ∈ Function.update p z (pub :: p z) y := by
  intro y c hc
  have hsub : c.pub ∈ p y ∨ y = z ∧ c.pub = pub := (hg.opens y c hc).imp_left fun h => by
    obtain ⟨e, he, hep⟩ := List.mem_map.mp h
    exact hep ▸ hp y e he
  by_cases hyz : y = z
  · subst hyz
    rw [Function.update_self]
    rcases hsub with h | ⟨-, h⟩
    · exact List.mem_cons_of_mem _ h
    · rw [h]; exact List.mem_cons_self
  · rw [Function.update_of_ne hyz]
    exact hsub.resolve_right fun h => hyz h.1

/-- A send keeps the invariant. -/
theorem Inv.encrypt {d : Dialogue β} {l : Side → Lane β} (h : Inv P d l) (x : Side) {fresh : X25519Seed β}
    (hf : P.x25519Public fresh.1 ∉ d.publics x) : ∃ l', Inv P (d.encrypt P x fresh) l' := by
  have hnew : P.x25519Public fresh.1 ∉ (l x).sent.map Chain.pub := fun hm => by
    obtain ⟨c, hc, he⟩ := List.mem_map.mp hm
    exact hf (he ▸ h.publics x c hc)
  cases hr : (TripleRatchet.encrypt P fresh).run (d.session x) with
  | error e s' =>
    obtain rfl := h.pair.encrypt_throws hr
    unfold Dialogue.encrypt
    rw [hr]
    dsimp only
    rw [Function.update_eq_self]
    exact ⟨l, h⟩
  | ok w s' =>
    rw [encrypt_ok hr]
    obtain ⟨l', c, n, hp, hs, hg, -⟩ := h.pair.encrypt_keeps hnew hr
    have hseed : (Function.update d.session x s' .initiator).spqrSeed = (d.session .initiator).spqrSeed := by
      rw [← hp.seed x.other, Function.update_of_ne (Side.other_ne x), h.pair.seed]
    have hold : ∀ y, ∀ v ∈ d.inFlight y, Issued P (d.session .initiator).spqrSeed (l' y) v := fun y v hv =>
      (h.issued y v hv).grow hg (fun ht => hs.taken y ▸ ht)
    refine ⟨l', hp, fun y v hv => ?_, fun y => ?_, publics_grow hg h.publics⟩
    · dsimp only at hv ⊢
      rw [hseed]
      rcases Side.eq_or_other x y with rfl | rfl
      · rw [Function.update_self] at hv
        rcases List.mem_cons.mp hv with rfl | hv
        · exact ⟨c, n, hs.opened, hs.header, hs.epoch, by rw [← h.pair.seed y]; exact hs.keys⟩
        · exact hold y v hv
      · rw [Function.update_of_ne (Side.other_ne x)] at hv
        exact hold _ v hv
    · dsimp only
      rcases Side.eq_or_other x y with rfl | rfl
      · rw [Function.update_self, List.map_cons, List.nodup_cons]
        refine ⟨fun hm => ?_, h.distinct y⟩
        -- an older message with the same id would be a message of the same chain, and `n` is new there
        obtain ⟨v, hv, he⟩ := List.mem_map.mp hm
        obtain ⟨c', n', ho, hh, -⟩ := h.issued y v hv
        obtain ⟨h1, h2⟩ := Prod.mk.inj he
        have hle := hs.new c' ho.mem (hh.pub.symm.trans (h1.trans hs.header.pub))
        have hlt := ho.lt
        have : n' = n := hh.number.symm.trans (h2.trans hs.header.number)
        omega
      · rw [Function.update_of_ne (Side.other_ne x)]; exact h.distinct _

/-- An open message within the bounds decrypts, through the facade, to the keys it was sealed with. -/
theorem Inv.decrypt {d : Dialogue β} {l : Side → Lane β} (h : Inv P d l) {x : Side} {w : Wire β}
    (hw : w ∈ d.inFlight x) (hb : WithinBounds (d.session x.other) w.header.dh) (fresh : X25519Seed β) :
    ∃ s', (TripleRatchet.decrypt P fresh w.header).run (d.session x.other) = .ok w.keys s' ∧
      ∃ k, (DoubleRatchet.decrypt P fresh w.header.dh).run (d.session x.other) = .ok k s' := by
  obtain ⟨c, n, ho, hh, he, hk⟩ := h.issued x w hw
  obtain ⟨s', hr⟩ := h.pair.decrypt_ok ho hh hb fresh
  have hseed : s'.spqrSeed = (d.session .initiator).spqrSeed :=
    (DoubleRatchet.decrypt_spqrSeed (h.pair.ok _) (h.pair.rx x).recv hr).trans (h.pair.seed _)
  have h32 : s'.spqrSeed.length = 32 := by rw [hseed]; exact (h.pair.ok _).spqrSeed_length
  refine ⟨s', ?_, _, hr⟩
  rw [TripleRatchet.decrypt_run h32 hr, hk, hseed, he, hh.number]
  rfl

/-- A delivery within the bounds keeps the invariant. -/
theorem Inv.deliver {d : Dialogue β} {l : Side → Lane β} (h : Inv P d l) {x : Side} {w : Wire β}
    {before after : List (Wire β)} {fresh : X25519Seed β} (hw : d.inFlight x = before ++ w :: after)
    (hf : P.x25519Public fresh.1 ∉ d.publics x.other) (hb : WithinBounds (d.session x.other) w.header.dh) :
    ∃ l', Inv P (d.deliver P x w (before ++ after) fresh) l' := by
  have hnew : P.x25519Public fresh.1 ∉ (l x.other).sent.map Chain.pub := fun hm => by
    obtain ⟨c, hc, he⟩ := List.mem_map.mp hm
    exact hf (he ▸ h.publics _ c hc)
  have hmem : w ∈ d.inFlight x := by rw [hw]; simp
  obtain ⟨c, n, ho, hh, -⟩ := h.issued x w hmem
  obtain ⟨s', hr, k, hr'⟩ := h.decrypt hmem hb fresh
  obtain ⟨-, l', hp, ht⟩ := h.pair.decrypt_keeps ho hh hnew hr'
  have hseed : (Function.update d.session x.other s' .initiator).spqrSeed = (d.session .initiator).spqrSeed := by
    rw [← hp.seed x, Function.update_of_ne (Side.ne_other x), h.pair.seed]
  have hdist := h.distinct x
  rw [hw, List.map_append, List.map_cons, List.nodup_middle, ← List.map_append, List.nodup_cons] at hdist
  have hsub : ∀ v ∈ before ++ after, v ∈ d.inFlight x := fun v hv => by
    rw [hw]; simp only [List.mem_append, List.mem_cons] at hv ⊢; tauto
  unfold Dialogue.deliver
  simp only [hr]
  refine ⟨l', hp, fun y v hv => ?_, fun y => ?_, publics_grow ht.grown h.publics⟩
  · dsimp only at hv ⊢
    rw [hseed]
    rcases Side.eq_or_other x y with rfl | rfl
    · rw [Function.update_self] at hv
      refine (h.issued y v (hsub v hv)).grow ht.grown fun hm => ?_
      rw [ht.taken] at hm
      refine (Set.mem_insert_iff.mp hm).resolve_left fun he => hdist.1 ?_
      rw [show w.id = v.id by rw [he, Wire.id, hh.pub, hh.number]]
      exact List.mem_map_of_mem hv
    · rw [Function.update_of_ne (Side.other_ne x)] at hv
      exact (h.issued _ v hv).grow ht.grown fun hm => ht.other ▸ hm
  · dsimp only
    rcases Side.eq_or_other x y with rfl | rfl
    · rw [Function.update_self]; exact hdist.2
    · rw [Function.update_of_ne (Side.other_ne x)]; exact h.distinct _

/-- Every reachable dialogue of two sessions that belong together satisfies the invariant. -/
theorem reachable_inv {i r : SessionState β} {l : Side → Lane β} (hi : PairInv P (bySide i r) l)
    (hpub : ∀ x, ∀ c ∈ (l x).sent, c.pub = (bySide i r x).ourPublicKey) {d : Dialogue β} (h : Reachable P i r d) :
    ∃ l', Inv P d l' := by
  induction h with
  | start =>
    refine ⟨l, hi, fun _ _ hw => (by cases hw), fun _ => List.nodup_nil, fun x c hc => ?_⟩
    rw [hpub x c hc]; exact List.mem_singleton_self _
  | step _ hs ih =>
    obtain ⟨l', hl⟩ := ih
    cases hs with
    | encrypt x fresh new => exact hl.encrypt x new
    | deliver x w before after fresh underway new bounds => exact hl.deliver underway new bounds

end Dialogue

/-! ## Agreement -/

/-- Two sessions that `initSession` made with opposite roles, the same shared secret and each other's keys. -/
theorem PairInv.initiated {i r : SessionState β} {idI idR : String} {sharedSecret : List β}
    {oursI oursR : Option (List β)} {freshI freshR : X25519Seed β}
    (hi : DoubleRatchet.initSession P idI true sharedSecret r.ourPublicKey oursI freshI = .ok i)
    (hr : DoubleRatchet.initSession P idR false sharedSecret i.ourPublicKey oursR freshR = .ok r) :
    ∃ l, PairInv P (bySide i r) l ∧ (∀ x, ∀ c ∈ (l x).sent, c.pub = (bySide i r x).ourPublicKey) ∧
      ∀ x, (bySide i r x).skipped = ∅ := by
  obtain ⟨a, ha, -, hsi⟩ := DoubleRatchet.initSession_ok hi
  obtain ⟨b, hb', -, hsr⟩ := DoubleRatchet.initSession_ok hr
  have hA : i.ourPublicKey = P.x25519Public a := by rw [hsi]; rfl
  have hB : r.ourPublicKey = P.x25519Public b := by rw [hsr]; rfl
  rw [hB] at hsi
  rw [hA] at hsr
  subst hsi hsr
  refine ⟨_, PairInv.opened (P := P) idI idR sharedSecret ha hb', fun y c hc => ?_, fun y => ?_⟩
  · cases y <;> simp [initialLanes, Lane.sent, Lane.seen] at hc <;> rw [hc]
  · cases y <;> rfl

/-- Two sessions that `startSession` opened with opposite roles, the same shared secret and each other's keys. -/
theorem PairInv.started {i r : SessionState β} {peerI peerR : Contact} {sharedSecret : List β}
    {oursI oursR : Option (List β)} {freshI freshR : X25519Seed β}
    (hi : TripleRatchet.startSession P peerI r.ourPublicKey sharedSecret true oursI freshI = .ok i)
    (hr : TripleRatchet.startSession P peerR i.ourPublicKey sharedSecret false oursR freshR = .ok r) :
    ∃ l, PairInv P (bySide i r) l ∧ (∀ x, ∀ c ∈ (l x).sent, c.pub = (bySide i r x).ourPublicKey) ∧
      ∀ x, (bySide i r x).skipped = ∅ := by
  unfold TripleRatchet.startSession at hi hr
  split at hi
  case isFalse => cases hi
  split at hr
  case isFalse => cases hr
  exact PairInv.initiated hi hr

/-- Two sessions opened with opposite roles, the same shared secret and each other's keys: in every dialogue they can
reach, each message under way decrypts, within the skip bounds, to the key and nonce that `encrypt` returned with it. -/
theorem ratchet_agreement {i r : SessionState β} {peerI peerR : Contact} {sharedSecret : List β}
    {oursI oursR : Option (List β)} {freshI freshR : X25519Seed β}
    (hi : TripleRatchet.startSession P peerI r.ourPublicKey sharedSecret true oursI freshI = .ok i)
    (hr : TripleRatchet.startSession P peerR i.ourPublicKey sharedSecret false oursR freshR = .ok r)
    {d : Dialogue β} (hd : Dialogue.Reachable P i r d) {x : Side} {w : Wire β} (hw : w ∈ d.inFlight x)
    (hb : WithinBounds (d.session x.other) w.header.dh) (fresh : X25519Seed β) :
    ∃ s', (TripleRatchet.decrypt P fresh w.header).run (d.session x.other) = .ok w.keys s' := by
  obtain ⟨l, hopen, hpub, -⟩ := PairInv.started hi hr
  obtain ⟨l', hl⟩ := Dialogue.reachable_inv hopen hpub hd
  obtain ⟨s', hrun, -⟩ := hl.decrypt hw hb fresh
  exact ⟨s', hrun⟩

/-- A verified contact. -/
def verifiedPeer (id : String) : Contact := { id, chhayaId := { publicKey := "" }, displayName := id, isVerified := true }

/-- The first message of the initiator, over symbolic primitives. -/
theorem ratchet_agreement_first :
    let i := openedSession symbolic "bob" true (octetSeed 3).1 (symbolic.x25519Public (octetSeed 2).1) (octetSeed 1).1
    let r := openedSession symbolic "alice" false (octetSeed 3).1 (symbolic.x25519Public (octetSeed 1).1)
      (octetSeed 2).1
    let d := (Dialogue.start i r).encrypt symbolic .initiator (octetSeed 4)
    ∃ w ∈ d.inFlight .initiator, ∃ s',
      (TripleRatchet.decrypt symbolic (octetSeed 5) w.header).run (d.session .responder) = .ok w.keys s' := by
  intro i r d
  have hs : SendAt symbolic i (chainA symbolic (octetSeed 3).1
      (symbolic.x25519 (octetSeed 1).1 (symbolic.x25519Public (octetSeed 2).1))) 0 0 :=
    ⟨length_chainA _ _ _, rfl, rfl, rfl⟩
  have hi : i.Ok symbolic := openedSession_ok _ _ _ _ (octetSeed 1).2 (symbolic.length_x25519Public _)
  obtain ⟨w, s', hrun, hpub, hnum⟩ : ∃ w s', (TripleRatchet.encrypt symbolic (octetSeed 4)).run i = .ok w s' ∧
      w.1.dh.dhPublicKey = r.remotePublicKey ∧ w.1.dh.messageNumber = 0 :=
    ⟨_, _, TripleRatchet.encrypt_run (octetSeed 4) rfl hs hi (by decide), rfl, rfl⟩
  have hd := Dialogue.encrypt_ok (d := Dialogue.start i r) (x := .initiator) hrun
  have hw : ⟨w.1, w.2⟩ ∈ d.inFlight .initiator := by
    show _ ∈ (Dialogue.encrypt _ _ _ _).inFlight _
    rw [hd]; exact List.mem_cons_self
  have hr : d.session .responder = r := by
    show (Dialogue.encrypt _ _ _ _).session _ = r
    rw [hd]; rfl
  have hreach : Dialogue.Reachable symbolic i r d := .step .start (.encrypt _ .initiator (octetSeed 4) (by decide))
  have hb : WithinBounds (d.session .responder) w.1.dh := by
    intro _
    rw [hr, if_pos hpub, hnum]
    decide
  have hsi := TripleRatchet.startSession_run symbolic (verifiedPeer "bob") rfl true (octetSeed 0)
    (show 32 ≤ (octetSeed 3).1.length by decide) (symbolic.length_x25519Public (octetSeed 2).1) (octetSeed 1).2
  have hsr := TripleRatchet.startSession_run symbolic (verifiedPeer "alice") rfl false (octetSeed 0)
    (show 32 ≤ (octetSeed 3).1.length by decide) (symbolic.length_x25519Public (octetSeed 1).1) (octetSeed 2).2
  exact ⟨_, hw, ratchet_agreement hsi hsr hreach hw hb (octetSeed 5)⟩

end Chhaya
