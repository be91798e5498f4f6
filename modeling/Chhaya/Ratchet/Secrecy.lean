import Chhaya.Ratchet.Agreement
import Chhaya.Ratchet.Separation

/-!
# Two sessions against an attacker

`Traced` adds to `PairInv` where the chains of two sessions come from: no root key and no first key of a chain is known
to the attacker, the public keys of the two sides are different, and a chain made by a DH ratchet remembers the public
key of the peer it was made with. Once the peer has seen the chain, its own key has changed since.

- `Traced.encrypt`, `Traced.received`: sending and receiving keep this.
- `Traced.messageKey_secret`: whatever header is decrypted, the key is unknown to the attacker.
- `Traced.open_of_messageKey`: when a header of either side decrypts to the key of its message, it is the peer's, and it
  was not taken before. An old header makes the receiver ratchet, but with another key pair than the one it was made for.
-/

namespace Chhaya

variable {β : Type} {P : Primitives β} {known : Set (List β)}

/-! ## What stays secret -/

/-- A first chain of a session, by its label. -/
def IsFirst (P : Primitives β) (start : List β) : Prop :=
  ∃ secret dhOut i, 32 * (i + 1) ≤ 96 ∧ start = hkdfBlock P secret (some dhOut) (some (utf8Encode "Chhaya-DR-init-v1")) 96 i

theorem IsFirst.ne_kdfChain (hc : CollisionFree P) {start r d : List β} (h : IsFirst P start) : start ≠ kdfChain P r d := by
  obtain ⟨secret, dhOut, i, hi, rfl⟩ := h
  intro he
  rw [kdfChain_eq_block] at he
  have h3 := (hc.hkdf hi (by decide) he).2.2.1
  exact absurd h3 (by decide)

section OneWay

variable (hw : OneWay P known)

include hw

theorem chainKeyAt_secret {start : List β} (h : start ∉ known) : ∀ n, chainKeyAt P start n ∉ known
  | 0 => h
  | n + 1 => fun hk => chainKeyAt_secret h n (hw.hmac hk)

theorem chainKeys_secret {start : List β} (h : start ∉ known) (n : Nat) : (chainKeys P start n).messageKey ∉ known :=
  fun hk => chainKeyAt_secret hw h n (hw.hmac hk)

theorem combined_secret {k q : List β} (h : k ∉ known) (n e : Nat) : (combined P k q n e).messageKey ∉ known := by
  intro hk
  rw [show (combined P k q n e).messageKey = _ from hkdf_eq_block _ _ _ _] at hk
  exact h (hw.append (hw.hkdf (by decide) hk))

theorem kdfRoot_secret {root d : List β} (h : root ∉ known) : kdfRoot P root d ∉ known :=
  fun hk => h (hw.hkdf (by decide) (kdfRoot_eq_block P root d ▸ hk))

theorem kdfChain_secret {root d : List β} (h : root ∉ known) : kdfChain P root d ∉ known :=
  fun hk => h (hw.hkdf (by decide) (kdfChain_eq_block P root d ▸ hk))

end OneWay

/-! ## Where chains come from -/

/-- A chain of the side `x`: a first chain, or one made by a DH ratchet with the public key `R` of the peer, who has
another key by now if the chain has reached it. -/
def Origin (P : Primitives β) (publics : Side → List Bytes) (s : Side → SessionState β) (l : Side → Lane β) (x : Side)
    (pub : Bytes) (start : List β) : Prop :=
  IsFirst P start ∨ ∃ root f R, start = kdfChain P root (P.x25519 f R) ∧ P.x25519Public f = pub ∧ R ∈ publics x.other ∧
    (pub ∈ (l x).seen.map Chain.pub → R ≠ (s x.other).ourPublicKey)

/-- Two sessions whose chains come from where they should and are unknown to the attacker. -/
structure Traced (P : Primitives β) (known : Set (List β)) (publics : Side → List Bytes) (s : Side → SessionState β)
    (l : Side → Lane β) : Prop where
  root : ∀ x, (s x).rootKey ∉ known
  start : ∀ x, ∀ c ∈ (l x).sent, c.start ∉ known
  own : ∀ x, (s x).ourPublicKey ∈ publics x
  pub : ∀ x, ∀ c ∈ (l x).sent, c.pub ∈ publics x
  origin : ∀ x, ∀ c ∈ (l x).sent, Origin P publics s l x c.pub c.start

/-- The two sides have different public keys. -/
def Apart (publics : Side → List Bytes) : Prop := ∀ x, ∀ A ∈ publics x, A ∉ publics x.other

section Traced

variable {publics : Side → List Bytes} {s s' : Side → SessionState β} {l l' : Side → Lane β}

/-- More public keys are recorded. -/
theorem Traced.mono (h : Traced P known publics s l) {publics' : Side → List Bytes}
    (hp : ∀ x, ∀ A ∈ publics x, A ∈ publics' x) : Traced P known publics' s l where
  root := h.root
  start := h.start
  own x := hp x _ (h.own x)
  pub x c hc := hp x _ (h.pub x c hc)
  origin x c hc := (h.origin x c hc).imp_right fun ⟨root, f, R, h1, h2, h3, h4⟩ => ⟨root, f, R, h1, h2, hp _ _ h3, h4⟩

/-- Neither the roots and public keys nor the chains have changed. -/
theorem Traced.congr (h : Traced P known publics s l) (hr : ∀ x, (s' x).rootKey = (s x).rootKey)
    (ho : ∀ x, (s' x).ourPublicKey = (s x).ourPublicKey)
    (hl : ∀ x, ∀ c' ∈ (l' x).sent, ∃ c ∈ (l x).sent, c.pub = c'.pub ∧ c.start = c'.start)
    (hseen : ∀ x, (l' x).seen.map Chain.pub = (l x).seen.map Chain.pub) : Traced P known publics s' l' where
  root x := (hr x).symm ▸ h.root x
  start x c' hc' := by
    obtain ⟨c, hc, -, he⟩ := hl x c' hc'
    exact he ▸ h.start x c hc
  own x := (ho x).symm ▸ h.own x
  pub x c' hc' := by
    obtain ⟨c, hc, he, -⟩ := hl x c' hc'
    exact he ▸ h.pub x c hc
  origin x c' hc' := by
    obtain ⟨c, hc, hp, hs⟩ := hl x c' hc'
    rw [← hp, ← hs, Origin, hseen x, ho]
    exact h.origin x c hc

/-- The side `z` has drawn a new key pair and opened a chain with it. -/
theorem Traced.opened (h : Traced P known publics s l) (z : Side) {f : List β} {root : List β} {R : Bytes}
    (hf : P.x25519Public f ∉ publics z) (hs : kdfChain P root (P.x25519 f R) ∉ known) (hR : R ∈ publics z.other)
    (hr : (s' z).rootKey ∉ known) (hr' : (s' z.other).rootKey = (s z.other).rootKey)
    (ho : (s' z).ourPublicKey = P.x25519Public f) (ho' : (s' z.other).ourPublicKey = (s z.other).ourPublicKey)
    (hl : ∀ c' ∈ (l' z).sent, c'.pub = P.x25519Public f ∧ c'.start = kdfChain P root (P.x25519 f R) ∨
      ∃ c ∈ (l z).sent, c.pub = c'.pub ∧ c.start = c'.start)
    (hseen : (l' z).seen.map Chain.pub = (l z).seen.map Chain.pub)
    (hl' : ∀ c' ∈ (l' z.other).sent, ∃ c ∈ (l z.other).sent, c.pub = c'.pub ∧ c.start = c'.start) :
    Traced P known (Function.update publics z (P.x25519Public f :: publics z)) s' l' := by
  have hmem : ∀ x, ∀ A ∈ publics x, A ∈ Function.update publics z (P.x25519Public f :: publics z) x := by
    intro x A hA
    rcases Side.eq_or_other z x with rfl | rfl
    · rw [Function.update_self]; exact List.mem_cons_of_mem _ hA
    · rw [Function.update_of_ne (Side.other_ne z)]; exact hA
  have hself : P.x25519Public f ∈ Function.update publics z (P.x25519Public f :: publics z) z := by
    rw [Function.update_self]; exact List.mem_cons_self
  have hnot : P.x25519Public f ∉ (l z).seen.map Chain.pub := fun hm => by
    obtain ⟨c, hc, he⟩ := List.mem_map.mp hm
    exact hf (he ▸ h.pub z c ((l z).seen_subset_sent hc))
  refine ⟨fun x => ?_, fun x c' hc' => ?_, fun x => ?_, fun x c' hc' => ?_, fun x c' hc' => ?_⟩ <;>
    rcases Side.eq_or_other z x with rfl | rfl
  · exact hr
  · exact hr'.symm ▸ h.root _
  · rcases hl c' hc' with ⟨-, he⟩ | ⟨c, hc, -, he⟩
    · exact he ▸ hs
    · exact he ▸ h.start _ c hc
  · obtain ⟨c, hc, -, he⟩ := hl' c' hc'
    exact he ▸ h.start _ c hc
  · exact ho ▸ hself
  · exact ho'.symm ▸ hmem _ _ (h.own _)
  · rcases hl c' hc' with ⟨he, -⟩ | ⟨c, hc, he, -⟩
    · exact he ▸ hself
    · exact he ▸ hmem _ _ (h.pub _ c hc)
  · obtain ⟨c, hc, he, -⟩ := hl' c' hc'
    exact he ▸ hmem _ _ (h.pub _ c hc)
  · rcases hl c' hc' with ⟨hp, hs⟩ | ⟨c, hc, hp, hs⟩
    · exact Or.inr ⟨root, f, R, hs, hp.symm, hmem _ _ hR, fun hm => absurd (hseen ▸ hp ▸ hm) hnot⟩
    · rw [← hp, ← hs, Origin, hseen, ho']
      exact (h.origin _ c hc).imp_right fun ⟨root, f, R, h1, h2, h3, h4⟩ => ⟨root, f, R, h1, h2, hmem _ _ h3, h4⟩
  · -- the peer of the other side has a key that is new to all its chains
    obtain ⟨c, hc, hp, hs⟩ := hl' c' hc'
    rw [← hp, ← hs, Origin, Side.other_other, ho]
    refine (h.origin _ c hc).imp_right fun ⟨root, f', R', h1, h2, h3, h4⟩ => ?_
    rw [Side.other_other] at h3
    exact ⟨root, f', R', h1, h2, hmem _ _ h3, fun _ he => hf (he ▸ h3)⟩

end Traced

/-! ## Sending and receiving -/

section Steps

variable {publics : Side → List Bytes} {s : Side → SessionState β} {l l' : Side → Lane β} {x : Side}
  {s' : SessionState β} {fresh : X25519Seed β}

theorem Lane.bump_seen_pubs (l : Lane β) : l.bump.seen.map Chain.pub = l.seen.map Chain.pub := by
  cases h : l.unseen <;> simp [bump, seen, h]

/-- The chains of a bumped lane start as those of the lane. -/
theorem Lane.bump_start {l : Lane β} {c' : Chain β} (h : c' ∈ l.bump.sent) :
    ∃ c ∈ l.sent, c.pub = c'.pub ∧ c.start = c'.start := by
  rcases Lane.mem_bump h with h | rfl
  · exact ⟨c', h, rfl, rfl⟩
  · exact ⟨l.top, l.top_mem_sent, rfl, rfl⟩

/-- The peer's key that a session knows is one of the peer's. -/
theorem Traced.remote_mem (ht : Traced P known publics s l) (hi : PairInv P s l) (x : Side) :
    (s x).remotePublicKey ∈ publics x.other := by
  have hr := (hi.rx x.other).remote
  rw [Side.other_other] at hr
  rw [hr]
  exact ht.pub x.other _ ((l x.other).seen_subset_sent List.mem_cons_self)

theorem mem_update_cons (publics : Side → List Bytes) (z : Side) (B : Bytes) :
    ∀ x, ∀ A ∈ publics x, A ∈ Function.update publics z (B :: publics z) x := fun x A hA => by
  rcases Side.eq_or_other z x with rfl | rfl
  · rw [Function.update_self]; exact List.mem_cons_of_mem _ hA
  · rw [Function.update_of_ne (Side.other_ne z)]; exact hA

/-- A send keeps what is traced. -/
theorem Traced.encrypt (hw : OneWay P known) (ht : Traced P known publics s l) (hi : PairInv P s l)
    (hf : P.x25519Public fresh.1 ∉ publics x) (ha : Advanced P s l x fresh.1 s' l') :
    Traced P known (Function.update publics x (P.x25519Public fresh.1 :: publics x)) (Function.update s x s') l' := by
  cases ha with
  | live root pub _ =>
    have h1 : Traced P known publics (Function.update s x s') (Function.update l x (l x).bump) := by
      refine ht.congr (fun y => ?_) (fun y => ?_) (fun y c' hc' => ?_) (fun y => ?_) <;>
        rcases Side.eq_or_other x y with rfl | rfl
      · rw [Function.update_self, root]
      · rw [Function.update_of_ne (Side.other_ne x)]
      · rw [Function.update_self, pub]
      · rw [Function.update_of_ne (Side.other_ne x)]
      · rw [Function.update_self] at hc'; exact Lane.bump_start hc'
      · rw [Function.update_of_ne (Side.other_ne x)] at hc'; exact ⟨c', hc', rfl, rfl⟩
      · rw [Function.update_self, Lane.bump_seen_pubs]
      · rw [Function.update_of_ne (Side.other_ne x)]
    exact h1.mono (mem_update_cons publics x _)
  | first unseen root pub _ =>
    have hx : firstLanes P s l x fresh.1 x = (l x).open (P.x25519Public fresh.1)
        (kdfChain P (s x).rootKey (P.x25519 fresh.1 (s x).remotePublicKey)) := by rw [firstLanes, Function.update_self]
    refine ht.opened x hf (kdfChain_secret hw (ht.root x)) (ht.remote_mem hi x) ?_ ?_ ?_ ?_ (fun c' hc' => ?_) ?_
      (fun c' hc' => ?_)
    · rw [Function.update_self, root]; exact kdfRoot_secret hw (ht.root x)
    · rw [Function.update_of_ne (Side.other_ne x)]
    · rw [Function.update_self, pub]
    · rw [Function.update_of_ne (Side.other_ne x)]
    · rw [Function.update_self, hx] at hc'
      obtain ⟨c, hc, h1, h2⟩ := Lane.bump_start hc'
      rcases ((l x).mem_open unseen).mp hc with rfl | hc
      · exact Or.inl ⟨h1.symm, h2.symm⟩
      · exact Or.inr ⟨c, hc, h1, h2⟩
    · rw [Function.update_self, hx, Lane.bump_seen_pubs]; rfl
    · rw [Function.update_of_ne (Side.other_ne x), firstLanes, Function.update_of_ne (Side.other_ne x)] at hc'
      exact ⟨c', hc', rfl, rfl⟩

/-- A delivery keeps what is traced. -/
theorem Traced.received (hw : OneWay P known) (ht : Traced P known publics s l) (hi : PairInv P s l) {c : Chain β}
    {n prev : Nat} (hf : P.x25519Public fresh.1 ∉ publics x.other) (hr : Received P s l x c n prev fresh.1 s' l') :
    Traced P known (Function.update publics x.other (P.x25519Public fresh.1 :: publics x.other))
      (Function.update s x.other s') l' := by
  cases hr with
  | take _ k root pub _ =>
    have h1 : Traced P known publics (Function.update s x.other s') (Function.update l x ((l x).take c n k)) := by
      refine ht.congr (fun y => ?_) (fun y => ?_) (fun y c' hc' => ⟨c', ?_, rfl, rfl⟩) (fun y => ?_) <;>
        rcases Side.eq_or_other x y with rfl | rfl
      · rw [Function.update_of_ne (Side.ne_other y)]
      · rw [Function.update_self, root]
      · rw [Function.update_of_ne (Side.ne_other y)]
      · rw [Function.update_self, pub]
      · rw [Function.update_self] at hc'; exact hc'
      · rw [Function.update_of_ne (Side.other_ne x)] at hc'; exact hc'
      · rw [Function.update_self]; rfl
      · rw [Function.update_of_ne (Side.other_ne x)]
    exact h1.mono (mem_update_cons publics x.other _)
  | ratchet unseen =>
    have hroot := kdfRoot_secret (d := P.x25519 (s x.other).ourPrivateKey c.pub) hw (ht.root x.other)
    have hcs : c ∈ (l x).sent := List.mem_append_left _ (Option.mem_toList.mpr unseen)
    have hx : ratchetLanes P s l x c n prev fresh.1 x = ((l x).advance c prev).take c n (n + 1) := by
      rw [ratchetLanes, Function.update_of_ne (Side.ne_other x), Function.update_self]
    have hR : c.pub ∈ publics x.other.other := by rw [Side.other_other]; exact ht.pub x c hcs
    refine ht.opened x.other hf (kdfChain_secret hw hroot) hR ?_ ?_ ?_ ?_ (fun c' hc' => ?_) ?_ (fun c' hc' => ?_)
    · rw [Function.update_self]; exact kdfRoot_secret hw hroot
    · rw [Function.update_of_ne (by simp)]
    · rw [Function.update_self]; rfl
    · rw [Function.update_of_ne (by simp)]
    · rw [ratchetLanes, Function.update_self] at hc'
      rcases ((l x.other).mem_open (hi.other_unseen unseen)).mp hc' with rfl | hc
      · exact Or.inl ⟨rfl, rfl⟩
      · exact Or.inr ⟨c', hc, rfl, rfl⟩
    · rw [ratchetLanes, Function.update_self]; rfl
    · rw [Side.other_other, hx] at hc'
      rw [Side.other_other]
      exact ⟨c', (Lane.advance_sent unseen prev) ▸ hc', rfl, rfl⟩

end Steps

/-! ## What decrypts -/

section Accept

variable {publics : Side → List Bytes} {s : Side → SessionState β} {l : Side → Lane β} {x : Side}
  {s' : SessionState β} {fresh : X25519Seed β} {h : RatchetHeader} {k : MessageKeyBundle β}

/-- A cached key is that of an untaken message of a chain that was seen. -/
theorem RxOk.cached (hrx : RxOk P s' (l x)) {n : Nat} {A : Bytes} (hl : s'.skipped.lookup (skipKey A n) = some k) :
    ∃ d ∈ (l x).seen, d.pub = A ∧ k = chainKeys P d.start n ∧ (A, n) ∉ (l x).taken := by
  obtain ⟨d, hd, rfl⟩ := hrx.known _ _ _ hl
  have hc : ∃ b, Cached P s'.skipped (l x).taken d b := by
    rcases List.mem_cons.mp hd with rfl | hd
    · exact ⟨_, hrx.cached_cur⟩
    · exact ⟨_, hrx.cached_old d hd⟩
  obtain ⟨b, hc⟩ := hc
  have hn : n < b ∧ (d.pub, n) ∉ (l x).taken := by
    by_contra hn
    have := hc.none n (by rw [not_and_or, not_not] at hn; exact hn.imp_left Nat.not_lt.mp)
    rw [hl] at this
    cases this
  have hv := hc.some n hn.1 hn.2
  rw [hl] at hv
  exact ⟨d, hd, rfl, Option.some.inj hv, hn.2⟩

/-- Whatever header the session of `x.other` decrypts, the attacker does not know the key. -/
theorem Traced.messageKey_secret (hw : OneWay P known) (ht : Traced P known publics s l) (hi : PairInv P s l)
    (hrun : (DoubleRatchet.decrypt P fresh h).run (s x.other) = .ok k s') : k.messageKey ∉ known := by
  have hrx := hi.rx x
  rcases DoubleRatchet.decrypt_cases (hi.ok x.other) hrx.recv hrun with ⟨hl, -⟩ | ⟨-, -, -, -, rfl, -⟩ | ⟨-, -, -, -, rfl, -⟩
  · obtain ⟨d, hd, -, rfl, -⟩ := hrx.cached hl
    exact chainKeys_secret hw (ht.start x d ((l x).seen_subset_sent hd)) _
  · exact chainKeys_secret hw (ht.start x _ ((l x).seen_subset_sent List.mem_cons_self)) _
  · exact chainKeys_secret hw (kdfChain_secret hw (ht.root x.other)) _

/-- A header of a message that `y` sent, decrypted by `x.other` to the key of this message: `y` is its peer, and the
message was not taken before. -/
theorem Traced.open_of_messageKey (hc : CollisionFree P) (ht : Traced P known publics s l) (hi : PairInv P s l)
    (ha : Apart publics) {y : Side} {c : Chain β} {n : Nat} (hm : c ∈ (l y).sent) (hn : n < c.len)
    (hpub : h.dhPublicKey = c.pub) (hnum : h.messageNumber = n)
    (hrun : (DoubleRatchet.decrypt P fresh h).run (s x.other) = .ok k s')
    (hk : k.messageKey = (chainKeys P c.start n).messageKey) : y = x ∧ (l x).Open c n := by
  subst hnum
  have hrx := hi.rx x
  have hcp := ht.pub y c hm
  have hcl := (hi.tx y).start_length c hm
  -- a key that both sides had does not exist
  have hxy : c.pub ∈ publics x → y = x := fun hp => by
    rcases Side.eq_or_other x y with rfl | rfl
    · rfl
    · exact absurd hcp (ha x _ hp)
  rcases DoubleRatchet.decrypt_cases (hi.ok x.other) hrx.recv hrun with ⟨hl, -⟩ | ⟨-, hd, hle, -⟩ | ⟨-, -, -, -, rfl, -⟩
  · obtain ⟨d, hd, he, -, hnt⟩ := hrx.cached hl
    have hds := (l x).seen_subset_sent hd
    obtain rfl := hxy (hpub ▸ he ▸ ht.pub x d hds)
    exact ⟨rfl, hm, hn, hpub ▸ hnt⟩
  · have he : c.pub = (l x).cur.pub := hpub.symm.trans (hd.trans hrx.remote)
    obtain rfl := hxy (he ▸ ht.pub x _ ((l x).seen_subset_sent List.mem_cons_self))
    refine ⟨rfl, hm, hn, fun htk => ?_⟩
    rw [he] at htk
    have := hrx.taken_cur _ htk
    omega
  · have hs := chainKeys_inj hc (length_kdfChain _ _ _) hcl hk
    rcases ht.origin y c hm with hf | ⟨root, f, R, h1, h2, h3, h4⟩
    · exact absurd hs.symm (hf.ne_kdfChain hc)
    rw [h1] at hs
    rcases kdfChain_dh_inj hc hs with ⟨-, h5⟩ | ⟨h5, h6⟩
    · -- the header's own key was the peer's key when the chain was made
      exact absurd ((hpub.symm.trans h5).symm ▸ h3) (ha y _ hcp)
    · have hown : R = (s x.other).ourPublicKey := by rw [h6, (hi.ok x.other).ourPublicKey_eq]
      have hy : y = x := by
        rcases Side.eq_or_other x y with rfl | rfl
        · rfl
        · rw [Side.other_other] at h3
          exact absurd (hown ▸ ht.own x.other) (ha x _ h3)
      subst hy
      refine ⟨rfl, hm, hn, fun htk => ?_⟩
      obtain ⟨d, hd, he⟩ := hrx.taken_seen _ _ htk
      exact h4 (he ▸ List.mem_map_of_mem hd) hown

end Accept
/-! ## Two fresh sessions -/

/-- Two sessions opened from a secret that the attacker does not know. -/
theorem Traced.ofNew (hw : OneWay P known) (idI idR : String) {sharedSecret : List β} (hs : sharedSecret ∉ known)
    (a b : List β) {publics : Side → List Bytes} (ha : P.x25519Public a ∈ publics .initiator)
    (hb : P.x25519Public b ∈ publics .responder) :
    let s := bySide (openedSession P idI true sharedSecret (P.x25519Public b) a)
      (openedSession P idR false sharedSecret (P.x25519Public a) b)
    Traced P known publics s (initialLanes P sharedSecret (P.x25519 a (P.x25519Public b)) s) := by
  intro s
  have hblock : ∀ d i, 32 * (i + 1) ≤ 96 →
      hkdfBlock P sharedSecret (some d) (some (utf8Encode "Chhaya-DR-init-v1")) 96 i ∉ known :=
    fun d i hi hk => hs (hw.hkdf hi hk)
  refine ⟨fun x => ?_, fun x c hc => ?_, fun x => ?_, fun x c hc => ?_, fun x c hc => Or.inl ?_⟩ <;> cases x
  · exact hblock (P.x25519 a (P.x25519Public b)) 0 (by decide)
  · exact hblock (P.x25519 b (P.x25519Public a)) 0 (by decide)
  · obtain rfl := List.mem_singleton.mp hc
    exact hblock (P.x25519 a (P.x25519Public b)) 1 (by decide)
  · obtain rfl := List.mem_singleton.mp hc
    exact hblock (P.x25519 a (P.x25519Public b)) 2 (by decide)
  · exact ha
  · exact hb
  · obtain rfl := List.mem_singleton.mp hc
    exact ha
  · obtain rfl := List.mem_singleton.mp hc
    exact hb
  · obtain rfl := List.mem_singleton.mp hc
    exact ⟨_, _, 1, by decide, rfl⟩
  · obtain rfl := List.mem_singleton.mp hc
    exact ⟨_, _, 2, by decide, rfl⟩

end Chhaya
