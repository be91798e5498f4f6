import Chhaya.Ratchet.Step

/-!
# Two sessions of one conversation

What relates the sessions of two parties that talk to each other. A `Lane` records what one side has sent, cut into the
sending chains it has used: at most one of them (`unseen`) is not yet known to the other side, `cur` is the other
side's receiving chain and `olds` are the chains retired before it. `TxOk` ties the lane to the sender's session, `RxOk`
to the receiver's.

The two root keys are equal until the responder first sends; from then on the side whose newest chain is still unseen
is one root step ahead (`Phase`).

- `PairInv.encrypt`, `PairInv.firstSend`: a send keeps the invariant.
- `PairInv.position`: where a message that was sent and not yet taken stands with the receiver.
- `PairInv.takeCached`, `PairInv.takeCurrent`, `PairInv.takeRatchet`: receiving it there keeps the invariant.
- `PairInv.stage`, `PairInv.enter`: so do the parts of a receive that ends half way.
-/

namespace Chhaya

variable {β : Type}

/-- The two roles of `TripleRatchet.startSession`. -/
inductive Side
  | initiator | responder
  deriving DecidableEq, Repr

/-- The peer. -/
def Side.other : Side → Side
  | .initiator => .responder
  | .responder => .initiator

@[simp] theorem Side.other_other (x : Side) : x.other.other = x := by cases x <;> rfl

@[simp] theorem Side.other_ne (x : Side) : x.other ≠ x := by cases x <;> decide

@[simp] theorem Side.ne_other (x : Side) : x ≠ x.other := by cases x <;> decide

theorem Side.eq_or_other (x y : Side) : y = x ∨ y = x.other := by cases x <;> cases y <;> decide

/-! ## Lanes -/

/-- A sending chain: the public key its headers carry, its first key, how many messages it has and how many the chain
before it had. -/
structure Chain (β : Type) where
  pub : Bytes
  start : List β
  len : Nat
  prev : Nat

/-- The chain with one message more. -/
def Chain.bump (c : Chain β) : Chain β := { c with len := c.len + 1 }

@[simp] theorem Chain.bump_pub (c : Chain β) : c.bump.pub = c.pub := rfl
@[simp] theorem Chain.bump_start (c : Chain β) : c.bump.start = c.start := rfl
@[simp] theorem Chain.bump_prev (c : Chain β) : c.bump.prev = c.prev := rfl
@[simp] theorem Chain.bump_len (c : Chain β) : c.bump.len = c.len + 1 := rfl

/-- One direction of a conversation. -/
structure Lane (β : Type) where
  unseen : Option (Chain β)
  cur : Chain β
  olds : List (Chain β)
  /-- The next number the receiver expects on `cur`. -/
  next : Nat
  /-- What the receiver has taken or can no longer take, by chain and number. -/
  taken : Set (Bytes × Nat)

namespace Lane

/-- The chains that the receiver knows. -/
def seen (l : Lane β) : List (Chain β) := l.cur :: l.olds

/-- All chains, newest first. -/
def sent (l : Lane β) : List (Chain β) := l.unseen.toList ++ l.seen

/-- The chain the sender sends on. -/
def top (l : Lane β) : Chain β := l.unseen.getD l.cur

/-- One message more on the newest chain. -/
def bump (l : Lane β) : Lane β :=
  match l.unseen with
  | some u => { l with unseen := some u.bump }
  | none => { l with cur := l.cur.bump }

theorem top_mem_sent (l : Lane β) : l.top ∈ l.sent := by
  cases h : l.unseen <;> simp [top, sent, seen, h]

theorem seen_subset_sent (l : Lane β) {c : Chain β} (h : c ∈ l.seen) : c ∈ l.sent := List.mem_append_right _ h

@[simp] theorem bump_top (l : Lane β) : l.bump.top = l.top.bump := by
  cases h : l.unseen <;> simp [bump, top, h]

@[simp] theorem bump_taken (l : Lane β) : l.bump.taken = l.taken := by cases h : l.unseen <;> simp [bump, h]

@[simp] theorem bump_pubs (l : Lane β) : l.bump.sent.map Chain.pub = l.sent.map Chain.pub := by
  cases h : l.unseen <;> simp [bump, sent, seen, h]

/-- A chain of the bumped lane is a chain of the lane, possibly with one message more. -/
theorem mem_bump {l : Lane β} {c : Chain β} (h : c ∈ l.bump.sent) : c ∈ l.sent ∨ c = l.top.bump := by
  cases hu : l.unseen <;> simp [bump, sent, seen, top, hu] at h ⊢ <;> tauto

/-- A message that was sent is still there in the bumped lane. -/
theorem bump_mem {l : Lane β} {c : Chain β} (h : c ∈ l.sent) : c ∈ l.bump.sent ∨ c = l.top := by
  cases hu : l.unseen <;> simp [bump, sent, seen, top, hu] at h ⊢ <;> tauto

/-- Message `n` of the chain `c` was sent on this lane and has not been taken. -/
structure Open (l : Lane β) (c : Chain β) (n : Nat) : Prop where
  mem : c ∈ l.sent
  lt : n < c.len
  untaken : (c.pub, n) ∉ l.taken

end Lane

/-- The skipped keys held of the chain `d`, of which the messages below `b` have been staged or taken. -/
structure Cached (P : Primitives β) (m : DartMap String (MessageKeyBundle β)) (taken : Set (Bytes × Nat))
    (d : Chain β) (b : Nat) : Prop where
  some : ∀ n, n < b → (d.pub, n) ∉ taken → m.lookup (skipKey d.pub n) = Option.some (chainKeys P d.start n)
  none : ∀ n, b ≤ n ∨ (d.pub, n) ∈ taken → m.lookup (skipKey d.pub n) = Option.none

/-- The sender's session follows its lane. -/
structure TxOk (P : Primitives β) (tx : SessionState β) (l : Lane β) : Prop where
  pub : tx.ourPublicKey = l.top.pub
  live : tx.sendInitialized = true → SendAt P tx l.top.start l.top.len l.top.prev
  idle : tx.sendInitialized = false → l.unseen = none ∧ l.cur.len = 0 ∧ l.olds = [] ∧ tx.sendCounter = 0
  nodup : (l.sent.map Chain.pub).Nodup
  linked : ∀ u ∈ l.unseen, u.prev = l.cur.len
  start_length : ∀ c ∈ l.sent, c.start.length = 32
  len_le : ∀ c ∈ l.sent, c.len ≤ 2 ^ 32

/-- The receiver's session follows its peer's lane. -/
structure RxOk (P : Primitives β) (rx : SessionState β) (l : Lane β) : Prop where
  remote : rx.remotePublicKey = l.cur.pub
  recv : RecvAt P rx l.cur.start l.next
  next_le : l.next ≤ l.cur.len
  cached_cur : Cached P rx.skipped l.taken l.cur l.next
  cached_old : ∀ d ∈ l.olds, Cached P rx.skipped l.taken d d.len
  known : ∀ A (n : Nat) v, rx.skipped.lookup (skipKey A n) = some v → ∃ d ∈ l.seen, d.pub = A
  taken_cur : ∀ n, (l.cur.pub, n) ∈ l.taken → n < l.next
  taken_seen : ∀ A n, (A, n) ∈ l.taken → ∃ d ∈ l.seen, d.pub = A

/-- How the two root keys stand to each other. -/
inductive Phase (P : Primitives β) (s : Side → SessionState β) (l : Side → Lane β) : Prop
  /-- The responder has not sent. -/
  | initial (unseen : ∀ x, (l x).unseen = none) (root : (s .initiator).rootKey = (s .responder).rootKey)
      (live : (s .initiator).sendInitialized = true) (idle : (s .responder).sendInitialized = false)
  /-- The chain `c` of `x` has not reached the peer. -/
  | ahead (x : Side) (c : Chain β) (unseen : (l x).unseen = some c) (other : (l x.other).unseen = none)
      (root : (s x).rootKey = kdfRoot P (s x.other).rootKey (P.x25519 (s x.other).ourPrivateKey c.pub))
      (start : c.start = (s x.other).nextStart P c.pub) (live : ∀ y, (s y).sendInitialized = true)

/-- Two sessions that belong together. -/
structure PairInv (P : Primitives β) (s : Side → SessionState β) (l : Side → Lane β) : Prop where
  ok : ∀ x, (s x).Ok P
  tx : ∀ x, TxOk P (s x) (l x)
  rx : ∀ x, RxOk P (s x.other) (l x)
  seed : ∀ x, (s x).spqrSeed = (s .initiator).spqrSeed
  phase : Phase P s l

/-! ## The skipped cache -/

section Cached

variable {P : Primitives β} {m : DartMap String (MessageKeyBundle β)} {taken : Set (Bytes × Nat)} {d : Chain β} {b : Nat}

/-- Taking a cached key. -/
theorem Cached.erase (h : Cached P m taken d b) (A : Bytes) (k : Nat) :
    Cached P (m.erase (skipKey A k)) (insert (A, k) taken) d b := by
  have hne : ∀ n, (d.pub, n) ≠ (A, k) → skipKey d.pub n ≠ skipKey A k := fun n hn e => hn (by
    obtain ⟨h1, h2⟩ := skipKey_inj e
    rw [h1, h2])
  refine ⟨fun n hn ht => ?_, fun n hn => ?_⟩
  · rw [Set.mem_insert_iff, not_or] at ht
    rw [AList.lookup_erase_ne (hne n ht.1)]
    exact h.some n hn ht.2
  · by_cases he : (d.pub, n) = (A, k)
    · obtain ⟨rfl, rfl⟩ := Prod.mk.inj he
      exact AList.lookup_erase _ _
    · rw [AList.lookup_erase_ne (hne n he)]
      exact h.none n (hn.imp_right fun hm => (Set.mem_insert_iff.mp hm).resolve_left he)

/-- Staging keys of another chain. -/
theorem Cached.stage_other (h : Cached P m taken d b) {start : List β} {A : Bytes} (hA : d.pub ≠ A) (c k : Nat) :
    Cached P (stageKeys P start A c k m) taken d b := by
  refine ⟨fun n hn ht => ?_, fun n hn => ?_⟩ <;> rw [lookup_stageKeys, if_neg (fun hc => hA hc.1)]
  · exact h.some n hn ht
  · exact h.none n hn

/-- Staging the next `k` keys of the chain. -/
theorem Cached.stage (h : Cached P m taken d b) (ht : ∀ n, (d.pub, n) ∈ taken → n < b) (k : Nat) :
    Cached P (stageKeys P d.start d.pub b k m) taken d (b + k) := by
  refine ⟨fun n hn hnt => ?_, fun n hn => ?_⟩ <;> rw [lookup_stageKeys]
  · by_cases hb : b ≤ n
    · rw [if_pos ⟨rfl, hb, hn⟩]
    · rw [if_neg (fun hc => hb hc.2.1)]
      exact h.some n (by omega) hnt
  · have hc : ¬(d.pub = d.pub ∧ b ≤ n ∧ n < b + k) := fun hc => by
      rcases hn with hn | hn
      · omega
      · have := ht n hn; omega
    rw [if_neg hc]
    exact h.none n (hn.imp_left (by omega))

/-- The message at the bound is taken without going through the cache. -/
theorem Cached.take (h : Cached P m taken d b) : Cached P m (insert (d.pub, b) taken) d (b + 1) := by
  refine ⟨fun n hn ht => ?_, fun n hn => ?_⟩
  · rw [Set.mem_insert_iff, not_or] at ht
    have hnb : n ≠ b := fun e => ht.1 (by rw [e])
    exact h.some n (by omega) ht.2
  · rcases hn with hn | hn
    · exact h.none n (Or.inl (by omega))
    · rcases Set.mem_insert_iff.mp hn with he | he
      · exact h.none n (Or.inl (by have := congrArg Prod.snd he; simp only at this; omega))
      · exact h.none n (Or.inr he)

/-- A message of another chain is taken. -/
theorem Cached.take_other (h : Cached P m taken d b) {A : Bytes} (hA : d.pub ≠ A) (n : Nat) :
    Cached P m (insert (A, n) taken) d b := by
  have hne : ∀ k, (d.pub, k) ≠ (A, n) := fun k e => hA (Prod.mk.inj e).1
  refine ⟨fun k hk ht => h.some k hk (fun hm => ht (Set.mem_insert_of_mem _ hm)), fun k hk => h.none k ?_⟩
  exact hk.imp_right fun hm => (Set.mem_insert_iff.mp hm).resolve_left (hne k)

/-- Messages of other chains, or at the bound and above, do not matter. -/
theorem Cached.lose (h : Cached P m taken d b) {lost : Set (Bytes × Nat)} {b' : Nat}
    (hlost : ∀ n, (d.pub, n) ∈ lost → b ≤ n) (hb : ∀ n, b ≤ n → n < b' → (d.pub, n) ∈ lost) (hle : b ≤ b') :
    Cached P m (taken ∪ lost) d b' := by
  refine ⟨fun n hn ht => ?_, fun n hn => ?_⟩
  · rw [Set.mem_union, not_or] at ht
    exact h.some n (Nat.not_le.mp fun hbn => ht.2 (hb n hbn hn)) ht.1
  · rcases hn with hn | hn | hn
    · exact h.none n (Or.inl (by omega))
    · exact h.none n (Or.inr hn)
    · exact h.none n (Or.inl (hlost n hn))

/-- Nothing is cached of a chain that is not known. -/
theorem Cached.of_unknown (h : ∀ n : Nat, m.lookup (skipKey d.pub n) = Option.none) : Cached P m taken d 0 :=
  ⟨fun _ hn => absurd hn (Nat.not_lt_zero _), fun n _ => h n⟩

end Cached

/-! ## Sending -/

section Send

variable {P : Primitives β} {s s' : SessionState β} {l : Lane β}

/-- `RxOk` reads the receiving half of a session only. -/
theorem RxOk.congr (h : RxOk P s l) (h1 : s'.remotePublicKey = s.remotePublicKey)
    (h2 : s'.recvChainKey = s.recvChainKey) (h3 : s'.recvCounter = s.recvCounter) (h4 : s'.skipped = s.skipped) :
    RxOk P s' l :=
  { h with
    remote := h1.trans h.remote
    recv := ⟨h.recv.start_length, h2.trans h.recv.key, h3.trans h.recv.counter⟩
    cached_cur := h4 ▸ h.cached_cur
    cached_old := h4 ▸ h.cached_old
    known := h4 ▸ h.known }

/-- A message more on the sender's newest chain. -/
theorem RxOk.bump (h : RxOk P s l) : RxOk P s l.bump := by
  cases hu : l.unseen with
  | some u =>
    have hb : l.bump = { l with unseen := some u.bump } := by simp [Lane.bump, hu]
    rw [hb]
    exact { h with }
  | none =>
    have hb : l.bump = { l with cur := l.cur.bump } := by simp [Lane.bump, hu]
    have hseen : ∀ A, (∃ d ∈ l.seen, d.pub = A) → ∃ d ∈ { l with cur := l.cur.bump }.seen, d.pub = A := by
      rintro A ⟨d, hd, rfl⟩
      rcases List.mem_cons.mp hd with rfl | hd
      · exact ⟨_, List.mem_cons_self, rfl⟩
      · exact ⟨d, List.mem_cons_of_mem _ hd, rfl⟩
    rw [hb]
    exact {
      remote := h.remote
      recv := h.recv
      next_le := Nat.le_succ_of_le h.next_le
      cached_cur := ⟨h.cached_cur.some, h.cached_cur.none⟩
      cached_old := h.cached_old
      known := fun A n v hv => hseen A (h.known A n v hv)
      taken_cur := h.taken_cur
      taken_seen := fun A n hn => hseen A (h.taken_seen A n hn) }

theorem TxOk.length_top (h : TxOk P s l) : l.top.start.length = 32 := h.start_length _ l.top_mem_sent

/-- The session after a send on its live chain follows the bumped lane. -/
theorem TxOk.sent (h : TxOk P s l) (hi : s.sendInitialized = true) (hn : l.top.len ≤ 0xFFFFFFFF) (e : Int) :
    TxOk P { s.sent P l.top.start l.top.len with spqrEpoch := e } l.bump where
  pub := by simpa [SessionState.sent] using h.pub
  live _ := by
    rw [Lane.bump_top]
    exact (h.live hi).sent e
  idle hf := by simp [SessionState.sent, hi] at hf
  nodup := by simpa using h.nodup
  linked u hu := by
    cases hl : l.unseen with
    | none => simp [Lane.bump, hl] at hu
    | some v =>
      simp only [Lane.bump, hl, Option.mem_def, Option.some.injEq] at hu ⊢
      subst hu
      exact h.linked v (by simp [hl])
  start_length c hc := by
    rcases Lane.mem_bump hc with hc | rfl
    · exact h.start_length c hc
    · exact h.length_top
  len_le c hc := by
    rcases Lane.mem_bump hc with hc | rfl
    · exact h.len_le c hc
    · rw [Chain.bump_len]; omega

end Send

section Step

variable {P : Primitives β} {s s' : Side → SessionState β} {l l' : Side → Lane β}

/-- The phase looks at roots, private keys, the first-send flags and the unseen chains. -/
theorem Phase.congr (h : Phase P s l)
    (hs : ∀ y, (s' y).rootKey = (s y).rootKey ∧ (s' y).ourPrivateKey = (s y).ourPrivateKey ∧
      (s' y).sendInitialized = (s y).sendInitialized)
    (hnone : ∀ y, (l y).unseen = none → (l' y).unseen = none)
    (hsome : ∀ y c, (l y).unseen = some c → ∃ c', (l' y).unseen = some c' ∧ c'.pub = c.pub ∧ c'.start = c.start) :
    Phase P s' l' := by
  cases h with
  | initial unseen root live idle =>
    exact .initial (fun y => hnone y (unseen y)) (by rw [(hs _).1, (hs _).1, root]) (by rw [(hs _).2.2, live])
      (by rw [(hs _).2.2, idle])
  | ahead x c unseen other root start live =>
    obtain ⟨c', h1, h2, h3⟩ := hsome x c unseen
    refine .ahead x c' h1 (hnone _ other) ?_ ?_ (fun y => by rw [(hs y).2.2, live y])
    · rw [(hs _).1, (hs _).1, (hs _).2.1, h2, root]
    · simp only [h3, start, h2, SessionState.nextStart, (hs _).1, (hs _).2.1]

/-- The peer's key, when the peer has no unseen chain. -/
theorem PairInv.remote_eq (h : PairInv P s l) (x : Side) (hu : (l x.other).unseen = none) :
    (s x).remotePublicKey = (s x.other).ourPublicKey := by
  have h1 := (h.rx x.other).remote
  rw [Side.other_other] at h1
  rw [h1, (h.tx x.other).pub, Lane.top, hu, Option.getD_none]

/-- A send on a live chain keeps the invariant. -/
theorem PairInv.encrypt (h : PairInv P s l) (x : Side) (hi : (s x).sendInitialized = true)
    (hn : (l x).top.len ≤ 0xFFFFFFFF) (e : Int) :
    PairInv P (Function.update s x { (s x).sent P (l x).top.start (l x).top.len with spqrEpoch := e })
      (Function.update l x (l x).bump) where
  ok y := by
    by_cases hy : y = x
    · subst hy; rw [Function.update_self]
      exact ⟨(h.ok y).1, (h.ok y).2, (h.ok y).3, (h.ok y).4⟩
    · rw [Function.update_of_ne hy]; exact h.ok y
  tx y := by
    by_cases hy : y = x
    · subst hy; rw [Function.update_self, Function.update_self]
      exact (h.tx y).sent hi hn e
    · rw [Function.update_of_ne hy, Function.update_of_ne hy]; exact h.tx y
  rx y := by
    by_cases hy : y = x
    · subst hy; rw [Function.update_self, Function.update_of_ne (Side.other_ne y)]
      exact (h.rx y).bump
    · obtain rfl : y = x.other := (Side.eq_or_other x y).resolve_left hy
      rw [Side.other_other, Function.update_self, Function.update_of_ne hy]
      have := h.rx x.other
      rw [Side.other_other] at this
      exact this.congr rfl rfl rfl rfl
  seed y := by
    have key : ∀ z, (Function.update s x { (s x).sent P (l x).top.start (l x).top.len with spqrEpoch := e } z).spqrSeed
        = (s z).spqrSeed := by
      intro z
      by_cases hz : z = x
      · subst hz; rw [Function.update_self]; rfl
      · rw [Function.update_of_ne hz]
    rw [key, key]; exact h.seed y
  phase := by
    refine h.phase.congr (fun y => ?_) (fun y hy => ?_) (fun y c hy => ?_)
    · by_cases hy : y = x
      · subst hy; rw [Function.update_self]; exact ⟨rfl, rfl, rfl⟩
      · rw [Function.update_of_ne hy]; exact ⟨rfl, rfl, rfl⟩
    · by_cases hyx : y = x
      · subst hyx; rw [Function.update_self]; simp [Lane.bump, hy]
      · rw [Function.update_of_ne hyx]; exact hy
    · by_cases hyx : y = x
      · subst hyx; rw [Function.update_self]
        exact ⟨c.bump, by simp [Lane.bump, hy], rfl, rfl⟩
      · rw [Function.update_of_ne hyx]; exact ⟨c, hy, rfl, rfl⟩

/-- The lane after its sender opened a new chain. -/
def Lane.open (l : Lane β) (pub : Bytes) (start : List β) : Lane β :=
  { l with unseen := some ⟨pub, start, 0, l.cur.len⟩ }

/-- The chains after opening one, when all were seen. -/
theorem Lane.mem_open (l : Lane β) (hu : l.unseen = none) {pub : Bytes} {start : List β} {d : Chain β} :
    d ∈ (l.open pub start).sent ↔ d = ⟨pub, start, 0, l.cur.len⟩ ∨ d ∈ l.sent := by
  simp [Lane.open, Lane.sent, Lane.seen, hu]

/-- A new chain on a lane whose chains are all seen. -/
theorem TxOk.open_new {t : SessionState β} (t' : SessionState β) {m : Lane β} (h : TxOk P t m) (hu : m.unseen = none)
    (hpub : t'.ourPublicKey ∉ m.sent.map Chain.pub) {start : List β} (hlen : start.length = 32)
    (hkey : t'.sendChainKey = start) (hc : t'.sendCounter = 0) (hp : t'.prevSendChainLength = m.cur.len)
    (hi : t'.sendInitialized = true) : TxOk P t' (m.open t'.ourPublicKey start) where
  pub := rfl
  live _ := ⟨hlen, hkey, hc, hp⟩
  idle hf := by rw [hi] at hf; cases hf
  nodup := by
    have h0 : m.sent = m.seen := by simp [Lane.sent, hu]
    have h1 := h.nodup
    rw [h0] at h1 hpub
    show ((⟨t'.ourPublicKey, start, 0, m.cur.len⟩ :: m.seen).map Chain.pub).Nodup
    exact List.nodup_cons.mpr ⟨hpub, h1⟩
  linked u hm := by
    simp only [Lane.open, Option.mem_def, Option.some.injEq] at hm
    subst hm; rfl
  start_length c hcm := by
    simp only [Lane.open, Lane.sent, Option.toList_some, List.singleton_append, List.mem_cons] at hcm
    rcases hcm with rfl | hcm
    · exact hlen
    · exact h.start_length c (m.seen_subset_sent hcm)
  len_le c hcm := by
    simp only [Lane.open, Lane.sent, Option.toList_some, List.singleton_append, List.mem_cons] at hcm
    rcases hcm with rfl | hcm
    · exact Nat.zero_le _
    · exact h.len_le c (m.seen_subset_sent hcm)

theorem RxOk.open_new {t : SessionState β} {m : Lane β} (h : RxOk P t m) (pub : Bytes) (start : List β) :
    RxOk P t (m.open pub start) := { h with }

/-- The responder's first send keeps the invariant: its new chain is ahead. -/
theorem PairInv.firstSend (h : PairInv P s l) (x : Side) (hi : (s x).sendInitialized = false) (fresh : X25519Seed β)
    (hf : P.x25519Public fresh.1 ∉ (l x).sent.map Chain.pub) :
    PairInv P (Function.update s x ((s x).firstSent P fresh.1)) (Function.update l x
      ((l x).open (P.x25519Public fresh.1) (kdfChain P (s x).rootKey (P.x25519 fresh.1 (s x).remotePublicKey)))) := by
  obtain ⟨hun, hlen, -, hcnt⟩ := (h.tx x).idle hi
  cases h.phase with
  | ahead _ _ _ _ _ _ live => rw [live x] at hi; cases hi
  | initial unseen root live idle =>
  obtain rfl : x = .responder := by
    cases x with
    | initiator => rw [live] at hi; cases hi
    | responder => rfl
  have hremote := h.remote_eq .responder (unseen _)
  have hroot : (s Side.responder.other).rootKey = (s .responder).rootKey := root
  have hdh : P.x25519 fresh.1 (s .responder).remotePublicKey =
      P.x25519 (s Side.responder.other).ourPrivateKey (P.x25519Public fresh.1) := by
    rw [hremote, (h.ok _).ourPublicKey_eq, P.x25519_comm]
  refine ⟨fun y => ?_, fun y => ?_, fun y => ?_, fun y => ?_, ?_⟩
  · cases y with
    | initiator => exact h.ok .initiator
    | responder => exact ⟨fresh.2, rfl, (h.ok .responder).3, (h.ok .responder).4⟩
  · cases y with
    | initiator => exact h.tx .initiator
    | responder =>
      exact (h.tx .responder).open_new ((s .responder).firstSent P fresh.1) hun hf (length_kdfChain _ _ _) rfl
        hcnt (by rw [hlen]; exact hcnt) rfl
  · cases y with
    | initiator => exact (h.rx .initiator).congr rfl rfl rfl rfl
    | responder => exact (h.rx .responder).open_new _ _
  · cases y with
    | initiator => rfl
    | responder => exact h.seed .responder
  · refine .ahead .responder _ rfl (unseen .initiator) ?_ ?_ (fun y => ?_)
    · show kdfRoot P (s .responder).rootKey _ = kdfRoot P (s Side.responder.other).rootKey _
      rw [hdh, hroot]; rfl
    · show kdfChain P (s .responder).rootKey _ = kdfChain P (s Side.responder.other).rootKey _
      rw [hdh, hroot]; rfl
    · cases y with
      | initiator => exact live
      | responder => rfl

/-! ## Receiving -/

/-- Two chains of a lane with one public key are one chain. -/
theorem TxOk.pub_inj {t : SessionState β} {m : Lane β} (h : TxOk P t m) {c d : Chain β} (hc : c ∈ m.sent)
    (hd : d ∈ m.sent) (he : c.pub = d.pub) : c = d := List.inj_on_of_nodup_map h.nodup hc hd he

/-- The unseen chain is not among those that the receiver knows. -/
theorem TxOk.unseen_ne {t : SessionState β} {m : Lane β} (h : TxOk P t m) {c : Chain β} (hc : m.unseen = some c) :
    ∀ d ∈ m.seen, d.pub ≠ c.pub := by
  intro d hd he
  have hn := h.nodup
  rw [Lane.sent, hc, Option.toList_some, List.singleton_append, List.map_cons, List.nodup_cons] at hn
  exact hn.1 (he ▸ List.mem_map_of_mem hd)

/-- The retired chains of a lane have other keys than the current one. -/
theorem TxOk.olds_ne {t : SessionState β} {m : Lane β} (h : TxOk P t m) : ∀ d ∈ m.olds, d.pub ≠ m.cur.pub := by
  intro d hd he
  have hn := h.nodup
  rw [Lane.sent, List.map_append, List.nodup_append] at hn
  have hs := hn.2.1
  rw [Lane.seen, List.map_cons, List.nodup_cons] at hs
  exact hs.1 (he ▸ List.mem_map_of_mem hd)

/-- Where an open message stands: its key is cached, or its chain is the receiver's current one, or it is unseen. -/
theorem PairInv.position (h : PairInv P s l) {x : Side} {c : Chain β} {n : Nat} (ho : (l x).Open c n) :
    (s x.other).skipped.lookup (skipKey c.pub n) = some (chainKeys P c.start n) ∨
    (s x.other).skipped.lookup (skipKey c.pub n) = none ∧
      (c = (l x).cur ∧ (l x).next ≤ n ∨ (l x).unseen = some c) := by
  have hrx := h.rx x
  rcases List.mem_append.mp ho.mem with hm | hm
  · rw [Option.mem_toList] at hm
    refine Or.inr ⟨?_, Or.inr hm⟩
    cases hl : (s x.other).skipped.lookup (skipKey c.pub n) with
    | none => rfl
    | some v =>
      obtain ⟨d, hd, he⟩ := hrx.known _ _ _ hl
      exact absurd he ((h.tx x).unseen_ne hm d hd)
  · rcases List.mem_cons.mp hm with rfl | hm
    · by_cases hn : n < (l x).next
      · exact Or.inl (hrx.cached_cur.some n hn ho.untaken)
      · exact Or.inr ⟨hrx.cached_cur.none n (Or.inl (by omega)), Or.inl ⟨rfl, by omega⟩⟩
    · exact Or.inl ((hrx.cached_old c hm).some n ho.lt ho.untaken)

/-- The lane after the receiver took message `n` of the chain `c` and expects `next` on its current chain. -/
def Lane.take (m : Lane β) (c : Chain β) (n next : Nat) : Lane β :=
  { m with next, taken := insert (c.pub, n) m.taken }

/-- Receiving changes neither the chains of a lane nor what its sender's session must satisfy. -/
theorem TxOk.receive {t : SessionState β} {m : Lane β} (h : TxOk P t m) (k : Nat) (taken : Set (Bytes × Nat)) :
    TxOk P t { m with next := k, taken := taken } := { h with }

/-- An update of the receiver's session and of the sender's lane that only concerns what is received. -/
theorem PairInv.receive (h : PairInv P s l) (x : Side) {t : SessionState β} {k : Nat} {taken : Set (Bytes × Nat)}
    (h1 : t.rootKey = (s x.other).rootKey) (h2 : t.ourPrivateKey = (s x.other).ourPrivateKey)
    (h3 : t.ourPublicKey = (s x.other).ourPublicKey) (h4 : t.sendInitialized = (s x.other).sendInitialized)
    (h5 : t.sendChainKey = (s x.other).sendChainKey) (h6 : t.sendCounter = (s x.other).sendCounter)
    (h7 : t.prevSendChainLength = (s x.other).prevSendChainLength) (h8 : t.spqrSeed = (s x.other).spqrSeed)
    (h9 : t.remotePublicKey = (s x.other).remotePublicKey) (hrx : RxOk P t { l x with next := k, taken := taken }) :
    PairInv P (Function.update s x.other t) (Function.update l x { l x with next := k, taken := taken }) where
  ok y := by
    by_cases hy : y = x.other
    · subst hy; rw [Function.update_self]
      have ho := h.ok x.other
      exact ⟨h2 ▸ ho.1, by rw [h3, h2]; exact ho.2, h9 ▸ ho.3, h8 ▸ ho.4⟩
    · rw [Function.update_of_ne hy]; exact h.ok y
  tx y := by
    by_cases hy : y = x
    · subst hy; rw [Function.update_self, Function.update_of_ne (Side.ne_other y)]
      exact (h.tx y).receive k taken
    · obtain rfl : y = x.other := (Side.eq_or_other x y).resolve_left hy
      rw [Function.update_self, Function.update_of_ne hy]
      have ht := h.tx x.other
      exact {
        pub := h3.trans ht.pub
        live := fun hi => by
          obtain ⟨g1, g2, g3, g4⟩ := ht.live (h4 ▸ hi)
          exact ⟨g1, h5.trans g2, h6.trans g3, h7.trans g4⟩
        idle := fun hi => by rw [h6]; exact ht.idle (h4 ▸ hi)
        nodup := ht.nodup, linked := ht.linked, start_length := ht.start_length, len_le := ht.len_le }
  rx y := by
    by_cases hy : y = x
    · subst hy; rw [Function.update_self, Function.update_self]; exact hrx
    · obtain rfl : y = x.other := (Side.eq_or_other x y).resolve_left hy
      rw [Function.update_of_ne hy, Function.update_of_ne (by simp)]
      exact h.rx x.other
  seed y := by
    have key : ∀ z, (Function.update s x.other t z).spqrSeed = (s z).spqrSeed := fun z => by
      by_cases hz : z = x.other
      · subst hz; rw [Function.update_self, h8]
      · rw [Function.update_of_ne hz]
    rw [key, key]; exact h.seed y
  phase := by
    refine h.phase.congr (fun y => ?_) (fun y hy => ?_) (fun y d hy => ?_)
    · by_cases hy : y = x.other
      · subst hy; rw [Function.update_self]; exact ⟨h1, h2, h4⟩
      · rw [Function.update_of_ne hy]; exact ⟨rfl, rfl, rfl⟩
    · by_cases hyx : y = x
      · subst hyx; rw [Function.update_self]; exact hy
      · rw [Function.update_of_ne hyx]; exact hy
    · by_cases hyx : y = x
      · subst hyx; rw [Function.update_self]; exact ⟨d, hy, rfl, rfl⟩
      · rw [Function.update_of_ne hyx]; exact ⟨d, hy, rfl, rfl⟩

/-- Taking a cached key keeps the invariant. -/
theorem PairInv.takeCached (h : PairInv P s l) {x : Side} {c : Chain β} {n : Nat} {v : MessageKeyBundle β}
    (hl : (s x.other).skipped.lookup (skipKey c.pub n) = some v) :
    PairInv P
      (Function.update s x.other { s x.other with skipped := (s x.other).skipped.erase (skipKey c.pub n) })
      (Function.update l x ((l x).take c n (l x).next)) := by
  have hrx := h.rx x
  refine h.receive x rfl rfl rfl rfl rfl rfl rfl rfl rfl ?_
  exact {
    remote := hrx.remote
    recv := ⟨hrx.recv.1, hrx.recv.2, hrx.recv.3⟩
    next_le := hrx.next_le
    cached_cur := hrx.cached_cur.erase _ _
    cached_old := fun d hd => (hrx.cached_old d hd).erase _ _
    known := fun A k w hw => by
      by_cases he : skipKey A k = skipKey c.pub n
      · rw [he, AList.lookup_erase] at hw; cases hw
      · rw [AList.lookup_erase_ne he] at hw; exact hrx.known A k w hw
    taken_cur := fun k hk => by
      rcases Set.mem_insert_iff.mp hk with he | hk
      · obtain ⟨h1, rfl⟩ := Prod.mk.inj he
        by_contra hn
        have := hrx.cached_cur.none k (Or.inl (Nat.not_lt.mp hn))
        rw [show (l x).cur.pub = c.pub from h1, hl] at this
        cases this
      · exact hrx.taken_cur k hk
    taken_seen := fun A k hk => by
      rcases Set.mem_insert_iff.mp hk with he | hk
      · obtain ⟨rfl, rfl⟩ := Prod.mk.inj he
        exact hrx.known _ _ _ hl
      · exact hrx.taken_seen A k hk }

/-- Receiving message `n` on the current chain, the skipped ones staged. -/
theorem RxOk.received {t : SessionState β} {m : Lane β} {n : Nat} (h : RxOk P t m)
    (holds : ∀ d ∈ m.olds, d.pub ≠ m.cur.pub) (hn : m.next ≤ n) (hlt : n < m.cur.len) :
    RxOk P (t.received P m.cur.start m.next n) (m.take m.cur n (n + 1)) where
  remote := h.remote
  recv := h.recv.received n
  next_le := hlt
  cached_cur := by
    have hc := h.cached_cur.stage h.taken_cur (n - m.next)
    rw [← h.remote, show m.next + (n - m.next) = n by omega] at hc
    exact hc.take
  cached_old d hd := ((h.cached_old d hd).stage_other (h.remote ▸ holds d hd) _ _).take_other (holds d hd) n
  known A k v hv := by
    rcases lookup_stageKeys_some hv with ⟨j, -, -, he, -⟩ | hv
    · exact ⟨m.cur, List.mem_cons_self, by rw [(skipKey_inj he).1, h.remote]⟩
    · exact h.known A k v hv
  taken_cur k hk := by
    rcases Set.mem_insert_iff.mp hk with he | hk
    · have := congrArg Prod.snd he
      simp only at this
      show k < n + 1; omega
    · have := h.taken_cur k hk
      show k < n + 1; omega
  taken_seen A k hk := by
    rcases Set.mem_insert_iff.mp hk with he | hk
    · exact ⟨m.cur, List.mem_cons_self, (Prod.mk.inj he).1.symm⟩
    · exact h.taken_seen A k hk

/-- The messages of the current chain that are lost when the receiver leaves it after staging those below `prev`. -/
def Lane.lost (m : Lane β) (prev : Nat) : Set (Bytes × Nat) :=
  {p | p.1 = m.cur.pub ∧ m.next + (prev - m.next) ≤ p.2 ∧ p.2 < m.cur.len}

/-- Nothing is lost when the whole chain is staged. -/
theorem Lane.lost_eq_empty (m : Lane β) {prev : Nat} (h : prev = m.cur.len) : m.lost prev = ∅ :=
  Set.eq_empty_of_forall_notMem fun p hp => by
    have h1 := hp.2.1
    have h2 := hp.2.2
    omega

/-- The lane when the receiver, told that the current chain has `prev` messages, starts on its unseen chain. -/
def Lane.advance (m : Lane β) (c : Chain β) (prev : Nat) : Lane β :=
  { m with unseen := none, cur := c, olds := m.cur :: m.olds, next := 0, taken := m.taken ∪ m.lost prev }

theorem Lane.advance_sent {m : Lane β} {c : Chain β} (hc : m.unseen = some c) (prev : Nat) :
    (m.advance c prev).sent = m.sent := by simp [Lane.advance, Lane.sent, Lane.seen, hc]

theorem TxOk.advance {t : SessionState β} {m : Lane β} {c : Chain β} (h : TxOk P t m) (hc : m.unseen = some c)
    (prev : Nat) : TxOk P t (m.advance c prev) := by
  have hs := Lane.advance_sent hc prev
  have ht : (m.advance c prev).top = m.top := by simp [Lane.advance, Lane.top, hc]
  exact {
    pub := ht ▸ h.pub
    live := fun hi => ht ▸ h.live hi
    idle := fun hi => by rw [(h.idle hi).1] at hc; cases hc
    nodup := hs ▸ h.nodup
    linked := fun u hu => by cases hu
    start_length := hs ▸ h.start_length
    len_le := hs ▸ h.len_le }

/-- The receiver ratchets to the unseen chain: the rest of its current chain, up to `prev`, is staged. -/
theorem RxOk.ratcheted {t tx : SessionState β} {m : Lane β} {c : Chain β} (h : RxOk P t m) (htx : TxOk P tx m)
    (hc : m.unseen = some c) (hstart : c.start = t.nextStart P c.pub) {prev : Nat} (hp : prev ≤ c.prev)
    (fresh : List β) :
    RxOk P ((t.staged P m.cur.start m.next (prev - m.next)).ratcheted P c.pub fresh) (m.advance c prev) := by
  have hne := htx.unseen_ne hc
  have hprev : c.prev = m.cur.len := htx.linked c hc
  have hle := h.next_le
  have holds := htx.olds_ne
  exact {
    remote := rfl
    recv := hstart ▸ RecvAt.ratcheted P (t.staged P m.cur.start m.next (prev - m.next)) c.pub fresh
    next_le := Nat.zero_le _
    cached_cur := Cached.of_unknown fun n => by
      show (stageKeys P m.cur.start t.remotePublicKey m.next (prev - m.next) t.skipped).lookup (skipKey c.pub n) = none
      rw [lookup_stageKeys, if_neg (fun hx => hne m.cur List.mem_cons_self (by rw [hx.1, h.remote]))]
      cases hl : t.skipped.lookup (skipKey c.pub n) with
      | none => rfl
      | some v =>
        obtain ⟨d, hd, he⟩ := h.known _ _ _ hl
        exact absurd he (hne d hd)
    cached_old := fun d hd => by
      rcases List.mem_cons.mp hd with rfl | hd
      · have hs := h.cached_cur.stage h.taken_cur (prev - m.next)
        rw [← h.remote] at hs
        exact hs.lose (fun n hn => hn.2.1) (fun n h1 h2 => ⟨rfl, h1, h2⟩) (by omega)
      · exact ((h.cached_old d hd).stage_other (h.remote ▸ holds d hd) _ _).lose
          (fun n hn => absurd hn.1 (holds d hd)) (fun n h1 h2 => by omega) (Nat.le_refl _)
    known := fun A k v hv => by
      rcases lookup_stageKeys_some hv with ⟨j, -, -, he, -⟩ | hv
      · exact ⟨m.cur, List.mem_cons_of_mem _ List.mem_cons_self, by rw [(skipKey_inj he).1, h.remote]⟩
      · obtain ⟨d, hd, he⟩ := h.known A k v hv
        exact ⟨d, List.mem_cons_of_mem _ hd, he⟩
    taken_cur := fun k hk => by
      rcases hk with hk | hk
      · obtain ⟨d, hd, he⟩ := h.taken_seen _ k hk
        exact absurd he (hne d hd)
      · exact absurd hk.1.symm (hne _ List.mem_cons_self)
    taken_seen := fun A k hk => by
      rcases hk with hk | hk
      · obtain ⟨d, hd, he⟩ := h.taken_seen A k hk
        exact ⟨d, List.mem_cons_of_mem _ hd, he⟩
      · exact ⟨m.cur, List.mem_cons_of_mem _ List.mem_cons_self, hk.1.symm⟩ }

/-- Receiving on the current chain keeps the invariant. -/
theorem PairInv.takeCurrent (h : PairInv P s l) {x : Side} {n : Nat} (hn : (l x).next ≤ n)
    (hlt : n < (l x).cur.len) :
    PairInv P (Function.update s x.other ((s x.other).received P (l x).cur.start (l x).next n))
      (Function.update l x ((l x).take (l x).cur n (n + 1))) :=
  h.receive x rfl rfl rfl rfl rfl rfl rfl rfl rfl ((h.rx x).received (h.tx x).olds_ne hn hlt)

/-- The lanes after the receiver of `x` ratcheted to the chain `c` and opened its own next chain. -/
def ratchetLanes (P : Primitives β) (s : Side → SessionState β) (l : Side → Lane β) (x : Side) (c : Chain β)
    (n prev : Nat) (fresh : List β) : Side → Lane β :=
  Function.update (Function.update l x (((l x).advance c prev).take c n (n + 1))) x.other
    ((l x.other).open (P.x25519Public fresh)
      (kdfChain P (kdfRoot P (s x.other).rootKey (P.x25519 (s x.other).ourPrivateKey c.pub)) (P.x25519 fresh c.pub)))

/-- The lanes when the receiver of `x` has ratcheted to the chain `c` and opened its own next chain. -/
def enterLanes (P : Primitives β) (s : Side → SessionState β) (l : Side → Lane β) (x : Side) (c : Chain β)
    (prev : Nat) (fresh : List β) : Side → Lane β :=
  Function.update (Function.update l x ((l x).advance c prev)) x.other
    ((l x.other).open (P.x25519Public fresh)
      (kdfChain P (kdfRoot P (s x.other).rootKey (P.x25519 (s x.other).ourPrivateKey c.pub)) (P.x25519 fresh c.pub)))

/-- The ratchet to the unseen chain keeps the invariant: now the receiver is ahead. -/
theorem PairInv.enter (h : PairInv P s l) {x : Side} {c : Chain β} {prev : Nat} (hc : (l x).unseen = some c)
    (hprev : prev ≤ c.prev) (fresh : X25519Seed β) (hf : P.x25519Public fresh.1 ∉ (l x.other).sent.map Chain.pub) :
    PairInv P
      (Function.update s x.other
        (((s x.other).staged P (l x).cur.start (l x).next (prev - (l x).next)).ratcheted P c.pub fresh.1))
      (enterLanes P s l x c prev fresh.1) := by
  cases hp : h.phase with
  | initial unseen root live idle => rw [unseen x] at hc; cases hc
  | ahead z d unseen other root start live =>
  obtain rfl : z = x := by
    rcases Side.eq_or_other x z with rfl | rfl
    · rfl
    · rw [Side.other_other, hc] at other; cases other
  obtain rfl : d = c := by rw [hc] at unseen; exact (Option.some.inj unseen).symm
  have hdpub : d.pub = P.x25519Public (s z).ourPrivateKey := by
    rw [← (h.ok z).ourPublicKey_eq, (h.tx z).pub, Lane.top, hc, Option.getD_some]
  have hdlen : d.pub.length = 32 := by rw [hdpub]; simp
  have hty := h.tx z.other
  have hlive := hty.live (live z.other)
  have hcnt : (s z.other).sendCounter = (l z.other).cur.len := by rw [hlive.counter, Lane.top, other, Option.getD_none]
  have hl1 : enterLanes P s l z d prev fresh.1 z = (l z).advance d prev := by
    rw [enterLanes, Function.update_of_ne (Side.ne_other z), Function.update_self]
  have hl2 : enterLanes P s l z d prev fresh.1 z.other = (l z.other).open (P.x25519Public fresh.1)
      (kdfChain P (kdfRoot P (s z.other).rootKey (P.x25519 (s z.other).ourPrivateKey d.pub))
        (P.x25519 fresh.1 d.pub)) := by
    rw [enterLanes, Function.update_self]
  have hrx := (h.rx z).ratcheted (h.tx z) hc start hprev fresh.1
  have hdh : P.x25519 fresh.1 d.pub = P.x25519 (s z).ourPrivateKey (P.x25519Public fresh.1) := by
    rw [hdpub, P.x25519_comm]
  refine ⟨fun y => ?_, fun y => ?_, fun y => ?_, fun y => ?_, ?_⟩
  · rcases Side.eq_or_other z y with rfl | rfl
    · rw [Function.update_of_ne (Side.ne_other y)]; exact h.ok y
    · rw [Function.update_self]; exact ⟨fresh.2, rfl, hdlen, (h.ok z.other).4⟩
  · rcases Side.eq_or_other z y with rfl | rfl
    · rw [Function.update_of_ne (Side.ne_other y), hl1]
      exact (h.tx y).advance hc prev
    · rw [Function.update_self, hl2]
      exact hty.open_new (((s z.other).staged P (l z).cur.start (l z).next (prev - (l z).next)).ratcheted P
        d.pub fresh.1) other hf (length_kdfChain _ _ _) rfl rfl hcnt (live z.other)
  · rcases Side.eq_or_other z y with rfl | rfl
    · rw [Function.update_self, hl1]; exact hrx
    · rw [Side.other_other, Function.update_of_ne (Side.ne_other z), hl2]
      have := h.rx z.other
      rw [Side.other_other] at this
      exact this.open_new _ _
  · have key : ∀ y, (Function.update s z.other
        (((s z.other).staged P (l z).cur.start (l z).next (prev - (l z).next)).ratcheted P d.pub fresh.1) y).spqrSeed =
          (s y).spqrSeed := fun y => by
      rcases Side.eq_or_other z y with rfl | rfl
      · rw [Function.update_of_ne (Side.ne_other y)]
      · rw [Function.update_self]; rfl
    rw [key, key]; exact h.seed y
  · refine .ahead z.other _ (by rw [hl2]; rfl) (by rw [Side.other_other, hl1]; rfl) ?_ ?_ (fun y => ?_)
    · rw [Function.update_self, Side.other_other, Function.update_of_ne (Side.ne_other z), root]
      show kdfRoot P (kdfRoot P (s z.other).rootKey _) (P.x25519 fresh.1 d.pub) = _
      rw [hdh]
      rfl
    · rw [Side.other_other, Function.update_of_ne (Side.ne_other z), SessionState.nextStart, root, ← hdh]
    · rcases Side.eq_or_other z y with rfl | rfl
      · rw [Function.update_of_ne (Side.ne_other y)]; exact live y
      · rw [Function.update_self]; exact live z.other

/-- The receiver finds the unseen chain. -/
theorem PairInv.unseen_start (h : PairInv P s l) {x : Side} {c : Chain β} (hc : (l x).unseen = some c) :
    c.start = (s x.other).nextStart P c.pub := by
  cases h.phase with
  | initial unseen _ _ _ => rw [unseen x] at hc; cases hc
  | ahead z d unseen other _ start _ =>
    rcases Side.eq_or_other x z with rfl | rfl
    · rw [hc] at unseen; cases unseen; exact start
    · rw [Side.other_other, hc] at other; cases other

/-- Receiving the first message of the unseen chain keeps the invariant. -/
theorem PairInv.takeRatchet (h : PairInv P s l) {x : Side} {c : Chain β} {n prev : Nat} (hc : (l x).unseen = some c)
    (hlt : n < c.len) (hprev : prev ≤ c.prev) (fresh : X25519Seed β)
    (hf : P.x25519Public fresh.1 ∉ (l x.other).sent.map Chain.pub) :
    PairInv P
      (Function.update s x.other
        ((((s x.other).staged P (l x).cur.start (l x).next (prev - (l x).next)).ratcheted P c.pub fresh.1).received P
          ((s x.other).nextStart P c.pub) 0 n))
      (ratchetLanes P s l x c n prev fresh.1) := by
  have hx : enterLanes P s l x c prev fresh.1 x = (l x).advance c prev := by
    rw [enterLanes, Function.update_of_ne (Side.ne_other x), Function.update_self]
  have he := (h.enter hc hprev fresh hf).takeCurrent (x := x) (n := n) (by rw [hx]; exact Nat.zero_le n)
    (by rw [hx]; exact hlt)
  rw [Function.update_self, Function.update_idem, hx, enterLanes, Function.update_comm (Side.ne_other x),
    Function.update_idem] at he
  rw [← h.unseen_start hc, ratchetLanes, Function.update_comm (Side.ne_other x)]
  exact he

/-- The next numbers of the current chain are staged. -/
theorem RxOk.staged {t : SessionState β} {m : Lane β} (h : RxOk P t m) (holds : ∀ d ∈ m.olds, d.pub ≠ m.cur.pub) {j : Nat}
    (hj : m.next + j ≤ m.cur.len) :
    RxOk P (t.staged P m.cur.start m.next j) { m with next := m.next + j, taken := m.taken } where
  remote := h.remote
  recv := h.recv.staged j
  next_le := hj
  cached_cur := by
    have hc := h.cached_cur.stage h.taken_cur j
    rwa [← h.remote] at hc
  cached_old d hd := (h.cached_old d hd).stage_other (h.remote ▸ holds d hd) _ _
  known A k v hv := by
    rcases lookup_stageKeys_some hv with ⟨j, -, -, he, -⟩ | hv
    · exact ⟨m.cur, List.mem_cons_self, by rw [(skipKey_inj he).1, h.remote]⟩
    · exact h.known A k v hv
  taken_cur k hk := (h.taken_cur k hk).trans_le (Nat.le_add_right _ _)
  taken_seen := h.taken_seen

/-- A staging loop that ends on the way keeps the invariant. -/
theorem PairInv.stage (h : PairInv P s l) {x : Side} {j : Nat} (hj : (l x).next + j ≤ (l x).cur.len) :
    PairInv P (Function.update s x.other ((s x.other).staged P (l x).cur.start (l x).next j))
      (Function.update l x { l x with next := (l x).next + j, taken := (l x).taken }) :=
  h.receive x rfl rfl rfl rfl rfl rfl rfl rfl rfl ((h.rx x).staged (h.tx x).olds_ne hj)

end Step

end Chhaya
