import Chhaya.Ratchet.Agreement
import Chhaya.Ratchet.Headers
import Chhaya.Ratchet.Loss

/-!
# Replayed headers

Two parties exchange messages in any order, a delivery may throw, and a header that was consumed may arrive again.

- `PairInv.stale_rejected`: a consumed header of the chain on which its receiver is, is rejected.
- `PairInv.not_rejected`: another one makes a DH ratchet, or stages keys.
- `PairInv.decrypt_throws`: a delivery that throws keeps the invariant of the two sessions.
- `replay_rejected_iff`: exactly which consumed headers are rejected.
-/

namespace Chhaya

variable {β : Type} {P : Primitives β}

/-! ## Rejection -/

/-- No ratchet step has been made: root key, chains, key pair and counters keep their values. -/
structure Unstepped (s s' : SessionState β) : Prop where
  rootKey : s'.rootKey = s.rootKey
  sendChainKey : s'.sendChainKey = s.sendChainKey
  recvChainKey : s'.recvChainKey = s.recvChainKey
  ourPrivateKey : s'.ourPrivateKey = s.ourPrivateKey
  ourPublicKey : s'.ourPublicKey = s.ourPublicKey
  sendCounter : s'.sendCounter = s.sendCounter
  recvCounter : s'.recvCounter = s.recvCounter
  prevSendChainLength : s'.prevSendChainLength = s.prevSendChainLength
  recvGeneration : s'.recvGeneration = s.recvGeneration

/-- `decrypt` throws a `RatchetException` on the header, whatever key pair it would draw, and makes no ratchet step. -/
def Rejects (P : Primitives β) (s : SessionState β) (h : RatchetHeader) : Prop :=
  ∀ fresh : X25519Seed β, ∃ message s',
    (DoubleRatchet.decrypt P fresh h).run s = .error (.ratchet message) s' ∧ Unstepped s s'

/-- The session receives on the chain of the header, or it has no room for what a ratchet to that chain would stage. -/
def Stale (s : SessionState β) (h : RatchetHeader) : Prop :=
  h.dhPublicKey = s.remotePublicKey ∨
    s.recvCounter < h.prevChainLength ∧ DoubleRatchet.maxSkippedTotal ≤ s.skipped.keys.length

theorem int64_succ_ne (n : Int) : int64 (n + 1) ≠ n := by
  rw [int64, Int.bmod_def]
  omega

/-- Receiving on a chain is no DH ratchet. -/
theorem OnChain.recvGeneration {s : SessionState β} {start : List β} {c n : Nat}
    {r : EStateM.Result DartError (SessionState β) (MessageKeyBundle β)} (ho : OnChain P s start c n r) :
    (leaves r).recvGeneration = s.recvGeneration := by
  cases ho <;> rfl

section Pair

variable {s : Side → SessionState β} {l : Side → Lane β} {x : Side} {c : Chain β} {h : RatchetHeader} {n : Nat}

/-- A message that was taken is not cached, and on the current chain it is behind. -/
theorem PairInv.taken_behind (hi : PairInv P s l) (hh : HeaderOf h c n) (ht : (c.pub, n) ∈ (l x).taken) :
    (s x.other).skipped.lookup (skipKey h.dhPublicKey h.messageNumber) = none ∧
      (h.dhPublicKey = (s x.other).remotePublicKey → h.messageNumber < (l x).next) := by
  have hrx := hi.rx x
  have hpub := hh.pub
  obtain rfl := hh.number
  rw [← hpub] at ht
  refine ⟨?_, fun hd => ?_⟩
  · obtain ⟨d, hd, hp⟩ := hrx.taken_seen _ _ ht
    rw [← hp] at ht ⊢
    rcases List.mem_cons.mp hd with rfl | hd
    · exact hrx.cached_cur.none _ (Or.inr ht)
    · exact (hrx.cached_old d hd).none _ (Or.inr ht)
  · rw [hd, hrx.remote] at ht
    exact hrx.taken_cur _ ht

/-- Nothing can be staged into a full cache. -/
theorem not_roomy_of_full {s : SessionState β} {k : Nat} (hfull : DoubleRatchet.maxSkippedTotal ≤ s.skipped.keys.length) :
    ¬Roomy s.remotePublicKey k s.skipped.keys 0 := fun hr => Nat.not_lt.mpr hfull hr.1

/-- A consumed header of the current chain is rejected, and so is one for whose ratchet there is no room. -/
theorem PairInv.stale_rejected (hi : PairInv P s l) (hh : HeaderOf h c n) (ht : (c.pub, n) ∈ (l x).taken)
    (hst : Stale (s x.other) h) (fresh : X25519Seed β) :
    ∃ message, (DoubleRatchet.decrypt P fresh h).run (s x.other) = .error (.ratchet message) (s x.other) := by
  obtain ⟨hl, hbehind⟩ := hi.taken_behind hh ht
  have hrx := hi.rx x
  have ho := DoubleRatchet.decrypt_outcome fresh h (hi.ok x.other) hrx.recv
  generalize (DoubleRatchet.decrypt P fresh h).run (s x.other) = r at ho
  have hfull : h.dhPublicKey ≠ (s x.other).remotePublicKey → (l x).next < h.prevChainLength ∧
      DoubleRatchet.maxSkippedTotal ≤ (s x.other).skipped.keys.length := fun hd => by
    obtain ⟨h1, h2⟩ := hst.resolve_left hd
    rw [hrx.recv.counter] at h1
    exact ⟨by omega, h2⟩
  cases ho with
  | cached hl' => rw [hl] at hl'; cases hl'
  | current _ hd hr =>
    have hn := hbehind hd
    cases hr with
    | duplicate => exact ⟨_, rfl⟩
    | tooMany hn' => omega
    | stuck hc => omega
    | overflow hc => omega
    | received hc => omega
  | @stuck j _ hd hj _ hroom hstuck =>
    obtain ⟨-, hmax⟩ := hfull hd
    obtain rfl : j = 0 := by
      by_contra h0
      exact not_roomy_of_full hmax (hroom 0 (by omega))
    rw [SessionState.staged_zero hrx.recv, Chhaya.stuck, if_pos hmax]
    exact ⟨_, rfl⟩
  | tooMany _ hd _ hroom => exact (not_roomy_of_full (hfull hd).2 (hroom 0 (by omega))).elim
  | ratchet _ hd _ hs _ =>
    obtain ⟨hlt, hmax⟩ := hfull hd
    exact (not_roomy_of_full hmax (hs 0 (by omega))).elim

/-- Every other consumed header leaves the counters changed. -/
theorem PairInv.not_rejected (hi : PairInv P s l) (hp : h.prevChainLength ≤ 2 ^ 32) (hh : HeaderOf h c n)
    (ht : (c.pub, n) ∈ (l x).taken) (hst : ¬Stale (s x.other) h) : ¬Rejects P (s x.other) h := by
  intro hrej
  obtain ⟨hl, -⟩ := hi.taken_behind hh ht
  have hrx := hi.rx x
  obtain ⟨message, s', hrun, hsame⟩ := hrej ⟨(s x.other).ourPrivateKey, (hi.ok x.other).ourPrivateKey_length⟩
  have ho := DoubleRatchet.decrypt_outcome ⟨_, (hi.ok x.other).ourPrivateKey_length⟩ h (hi.ok x.other) hrx.recv
  rw [hrun] at ho
  generalize hr : (EStateM.Result.error (DartError.ratchet message) s' :
    EStateM.Result DartError (SessionState β) (MessageKeyBundle β)) = r at ho
  have hcount := hsame.recvCounter
  have hgen := hsame.recvGeneration
  have hs' : s' = leaves r := by rw [← hr]; rfl
  rw [hs', hrx.recv.counter] at hcount
  rw [hs'] at hgen
  cases ho with
  | cached hl' => rw [hl] at hl'; cases hl'
  | current _ hd _ => exact hst (Or.inl hd)
  | @stuck j _ hd hj _ hroom hstuck =>
    have hc : (((l x).next + j : Nat) : Int) = (l x).next := hcount
    obtain rfl : j = 0 := by omega
    refine hst (Or.inr ⟨by rw [hrx.recv.counter]; omega, ?_⟩)
    by_contra hmax
    exact hstuck ⟨Nat.not_le.mp hmax, by omega⟩
  | tooMany =>
    have hc : (((l x).next + 1001 : Nat) : Int) = (l x).next := hcount
    omega
  | ratchet _ _ _ _ hon =>
    rw [hon.recvGeneration] at hgen
    exact int64_succ_ne _ hgen

/-! ## Deliveries that throw -/

/-- Chains stay on the lanes, only `x` may have opened one, and nothing is taken. -/
structure Steady (l l' : Side → Lane β) (x : Side) (pub : Bytes) : Prop where
  grown : Grown l l' x pub
  taken : ∀ y, (l' y).taken = (l y).taken

theorem Steady.refl (l : Side → Lane β) (x : Side) (pub : Bytes) : Steady l l x pub :=
  ⟨Grown.of_mem (fun _ _ hd => hd) fun _ _ hd => Or.inl hd, fun _ => rfl⟩

theorem Steady.trans {l₁ l₂ l₃ : Side → Lane β} {pub : Bytes} (h₁ : Steady l₁ l₂ x pub) (h₂ : Steady l₂ l₃ x pub) :
    Steady l₁ l₃ x pub :=
  ⟨h₁.grown.trans h₂.grown, fun y => (h₂.taken y).trans (h₁.taken y)⟩

/-- Numbers that are staged. -/
theorem Steady.of_stage (l : Side → Lane β) (x z : Side) (k : Nat) (pub : Bytes) :
    Steady l (Function.update l x { l x with next := k, taken := (l x).taken }) z pub := by
  have hs : ∀ y, (Function.update l x { l x with next := k, taken := (l x).taken } y).sent = (l y).sent ∧
      (Function.update l x { l x with next := k, taken := (l x).taken } y).taken = (l y).taken := fun y => by
    rcases Side.eq_or_other x y with rfl | rfl
    · rw [Function.update_self]
      exact ⟨rfl, rfl⟩
    · rw [Function.update_of_ne (Side.other_ne x)]
      exact ⟨rfl, rfl⟩
  exact ⟨Grown.of_mem (fun y d hd => (hs y).1.symm ▸ hd) fun y d hd => Or.inl ((hs y).1 ▸ hd), fun y => (hs y).2⟩

/-- A ratchet by the header of the sender. -/
theorem Steady.of_enter (hi : PairInv P s l) (hu : (l x).unseen = some c) (fresh : List β) :
    Steady l (enterLanes P s l x c c.prev fresh) x.other (P.x25519Public fresh) := by
  have hx : enterLanes P s l x c c.prev fresh x = (l x).advance c c.prev := by
    rw [enterLanes, Function.update_of_ne (Side.ne_other x), Function.update_self]
  have hy : enterLanes P s l x c c.prev fresh x.other = (l x.other).open (P.x25519Public fresh)
      (kdfChain P (kdfRoot P (s x.other).rootKey (P.x25519 (s x.other).ourPrivateKey c.pub)) (P.x25519 fresh c.pub)) := by
    rw [enterLanes, Function.update_self]
  refine ⟨Grown.of_mem (fun y d hd => ?_) fun y d hd => ?_, fun y => ?_⟩ <;> rcases Side.eq_or_other x y with rfl | rfl
  · rw [hx, Lane.advance_sent hu]
    exact hd
  · rw [hy]
    exact ((l _).mem_open (hi.other_unseen hu)).mpr (Or.inr hd)
  · rw [hx, Lane.advance_sent hu] at hd
    exact Or.inl hd
  · rw [hy] at hd
    rcases ((l _).mem_open (hi.other_unseen hu)).mp hd with rfl | hd
    · exact Or.inr ⟨rfl, rfl⟩
    · exact Or.inl hd
  · rw [hx]
    show (l y).taken ∪ (l y).lost c.prev = (l y).taken
    rw [(l y).lost_eq_empty ((hi.tx y).linked c hu), Set.union_empty]
  · rw [hy]
    rfl

/-- The part of a receive on a chain that comes before it throws: what has been staged by then. -/
theorem OnChain.throws {t t' : SessionState β} {start : List β} {c n : Nat} {e : DartError} (hr : RecvAt P t start c)
    (hn : n ≤ 0xFFFFFFFF) (ho : OnChain P t start c n (.error e t')) : ∃ j, j ≤ n - c ∧ t' = t.staged P start c j := by
  cases ho with
  | duplicate => exact ⟨0, Nat.zero_le _, (SessionState.staged_zero hr).symm⟩
  | tooMany => exact ⟨0, Nat.zero_le _, (SessionState.staged_zero hr).symm⟩
  | @stuck j _ _ hj => exact ⟨j, hj.le, rfl⟩
  | overflow _ _ _ ho => omega

/-- A delivery that throws keeps the invariant. -/
theorem PairInv.decrypt_throws (hi : PairInv P s l) (ho : (l x).Open c n) (hh : HeaderOf h c n) {fresh : X25519Seed β}
    (hf : P.x25519Public fresh.1 ∉ (l x.other).sent.map Chain.pub) {e : DartError} {s' : SessionState β}
    (hrun : (DoubleRatchet.decrypt P fresh h).run (s x.other) = .error e s') :
    ∃ l', PairInv P (Function.update s x.other s') l' ∧ Steady l l' x.other s'.ourPublicKey := by
  have hrx := hi.rx x
  have hlen := (hi.tx x).len_le c ho.mem
  have hlt := ho.lt
  have hout := DoubleRatchet.decrypt_outcome fresh h (hi.ok x.other) hrx.recv
  rw [hrun] at hout
  have hpos := hi.position ho
  rw [← hh.pub, ← hh.number] at hpos
  have hcur : h.dhPublicKey = (s x.other).remotePublicKey → c = (l x).cur := fun hd =>
    (hi.tx x).pub_inj ho.mem ((l x).seen_subset_sent List.mem_cons_self) (hh.pub.symm.trans (hd.trans hrx.remote))
  have hunseen : (s x.other).skipped.lookup (skipKey h.dhPublicKey h.messageNumber) = none →
      h.dhPublicKey ≠ (s x.other).remotePublicKey → (l x).unseen = some c := fun hl hd => by
    rcases hpos with h1 | ⟨-, ⟨h1, -⟩ | h1⟩
    · rw [hl] at h1
      cases h1
    · exact (hd (by rw [hh.pub, h1, hrx.remote])).elim
    · exact h1
  -- the header of the unseen chain says how long the current one is
  have hprev : (l x).unseen = some c → h.prevChainLength = (l x).cur.len := fun hu =>
    hh.prev.trans ((hi.tx x).linked c hu)
  cases hout with
  | current _ hd hr =>
    obtain ⟨j, hj, rfl⟩ := hr.throws hrx.recv (by rw [hh.number]; omega)
    obtain rfl := hcur hd
    rw [hh.number] at hj
    have := hrx.next_le
    exact ⟨_, hi.stage (by omega), Steady.of_stage l x x.other _ _⟩
  | @stuck j hl hd hj =>
    rw [hprev (hunseen hl hd)] at hj
    exact ⟨_, hi.stage (by omega), Steady.of_stage l x x.other _ _⟩
  | tooMany hl hd hp =>
    rw [hprev (hunseen hl hd)] at hp
    exact ⟨_, hi.stage (by omega), Steady.of_stage l x x.other _ _⟩
  | ratchet hl hd _ _ hr =>
    have hu := hunseen hl hd
    obtain ⟨j, hj, rfl⟩ := hr.throws (RecvAt.entered P _ _ _ h fresh.1) (by rw [hh.number]; omega)
    rw [hh.number] at hj
    have he := hi.enter hu (le_refl _) fresh hf
    have hx : enterLanes P s l x c c.prev fresh.1 x = (l x).advance c c.prev := by
      rw [enterLanes, Function.update_of_ne (Side.ne_other x), Function.update_self]
    have hst := he.stage (x := x) (j := j) (by rw [hx]; show 0 + j ≤ c.len; omega)
    refine ⟨_, ?_, (Steady.of_enter hi hu fresh.1).trans (Steady.of_stage _ x x.other (0 + j) _)⟩
    rw [Function.update_self, Function.update_idem, hx] at hst
    rw [SessionState.entered, hh.pub, hh.prev, ← hi.unseen_start hu, hx]
    exact hst

/-! ## Sends -/

/-- The epoch of a session does not matter. -/
theorem PairInv.forgetEpoch {s' : Side → SessionState β} (hi : PairInv P s l)
    (hs : ∀ y, ∃ e, s y = { s' y with spqrEpoch := e }) : PairInv P s' l where
  ok y := by
    obtain ⟨e, he⟩ := hs y
    have := hi.ok y
    rw [he] at this
    exact ⟨this.1, this.2, this.3, this.4⟩
  tx y := by
    obtain ⟨e, he⟩ := hs y
    have ht := hi.tx y
    rw [he] at ht
    refine ⟨ht.pub, fun hl => ?_, ht.idle, ht.nodup, ht.linked, ht.start_length, ht.len_le⟩
    obtain ⟨h1, h2, h3, h4⟩ := ht.live hl
    exact ⟨h1, h2, h3, h4⟩
  rx y := by
    obtain ⟨e, he⟩ := hs y.other
    have hr := hi.rx y
    rw [he] at hr
    exact hr.congr rfl rfl rfl rfl
  seed y := by
    obtain ⟨e, he⟩ := hs y
    obtain ⟨e', he'⟩ := hs .initiator
    have := hi.seed y
    rw [he, he'] at this
    exact this
  phase := hi.phase.congr (fun y => by obtain ⟨e, he⟩ := hs y; rw [he]; exact ⟨rfl, rfl, rfl⟩) (fun _ hu => hu)
    fun _ c hu => ⟨c, hu, rfl, rfl⟩

/-- A send that returns makes the header of a message that is new. -/
theorem PairInv.encrypt_sends (hi : PairInv P s l) (hs : Healthy P (s x)) {fresh : X25519Seed β}
    (hf : P.x25519Public fresh.1 ∉ (l x).sent.map Chain.pub) {w : RatchetHeader × MessageKeyBundle β}
    {s' : SessionState β} (hrun : (DoubleRatchet.encrypt P fresh).run (s x) = .ok w s') :
    ∃ l' c n, PairInv P (Function.update s x s') l' ∧ HeaderOf w.1 c n ∧ (l' x).Open c n ∧
      Steady l l' x s'.ourPublicKey := by
  obtain ⟨start, m, p, -, -, -, -, ⟨hm, hl, h1, h2⟩ | ⟨e, -, h1, -⟩⟩ := hs.encrypt_outcome fresh
  · rw [h1] at hrun
    cases hrun
    obtain ⟨l', c, n, hp, hsent, hg, -⟩ := hi.encrypt_keeps hf h2
    refine ⟨l', c, n, hp.forgetEpoch fun y => ?_, hsent.header, hsent.opened, hg, hsent.taken⟩
    rcases Side.eq_or_other x y with rfl | rfl
    · rw [Function.update_self, Function.update_self]
      exact ⟨_, rfl⟩
    · rw [Function.update_of_ne (Side.other_ne x), Function.update_of_ne (Side.other_ne x)]
      exact ⟨_, rfl⟩
  · rw [h1] at hrun
    cases hrun

end Pair

/-! ## Correspondences -/

/-- Two sessions, the headers each side has sent, those of them that the other side has consumed, and the public keys each side
has had. -/
structure Correspondence (β : Type) where
  session : Side → SessionState β
  sent : Side → List RatchetHeader := fun _ => []
  consumed : Side → List RatchetHeader := fun _ => []
  publics : Side → List Bytes

namespace Correspondence

def start (i r : SessionState β) : Correspondence β where
  session := bySide i r
  publics x := [(bySide i r x).ourPublicKey]

/-- One call. Every header that was sent may arrive at any time; a header that was consumed arrives again only where `ok` admits
it. A key pair that is generated has a public key that its owner has not had. -/
inductive Step (P : Primitives β) (ok : SessionState β → RatchetHeader → Prop) (e : Correspondence β) : Correspondence β → Prop
  | encrypt (x : Side) {fresh : X25519Seed β} {w : RatchetHeader × MessageKeyBundle β} {s' : SessionState β}
    (new : P.x25519Public fresh.1 ∉ e.publics x) (run : (DoubleRatchet.encrypt P fresh).run (e.session x) = .ok w s') :
    Step P ok e { e with
      session := Function.update e.session x s'
      sent := Function.update e.sent x (w.1 :: e.sent x)
      publics := Function.update e.publics x (s'.ourPublicKey :: e.publics x) }
  | encryptThrows (x : Side) {fresh : X25519Seed β} {err : DartError} {s' : SessionState β}
    (run : (DoubleRatchet.encrypt P fresh).run (e.session x) = .error err s') :
    Step P ok e { e with session := Function.update e.session x s' }
  | decrypt (x : Side) {fresh : X25519Seed β} {h : RatchetHeader} {k : MessageKeyBundle β} {s' : SessionState β}
    (sent : h ∈ e.sent x) (replay : h ∈ e.consumed x → ok (e.session x.other) h)
    (new : P.x25519Public fresh.1 ∉ e.publics x.other)
    (run : (DoubleRatchet.decrypt P fresh h).run (e.session x.other) = .ok k s') :
    Step P ok e { e with
      session := Function.update e.session x.other s'
      consumed := Function.update e.consumed x (h :: e.consumed x)
      publics := Function.update e.publics x.other (s'.ourPublicKey :: e.publics x.other) }
  | decryptThrows (x : Side) {fresh : X25519Seed β} {h : RatchetHeader} {err : DartError} {s' : SessionState β}
    (sent : h ∈ e.sent x) (replay : h ∈ e.consumed x → ok (e.session x.other) h)
    (new : P.x25519Public fresh.1 ∉ e.publics x.other)
    (run : (DoubleRatchet.decrypt P fresh h).run (e.session x.other) = .error err s') :
    Step P ok e { e with
      session := Function.update e.session x.other s'
      publics := Function.update e.publics x.other (s'.ourPublicKey :: e.publics x.other) }

/-- The correspondences that calls on two sessions lead to. -/
def Run (P : Primitives β) (ok : SessionState β → RatchetHeader → Prop) (i r : SessionState β) : Correspondence β → Prop :=
  Relation.ReflTransGen (Step P ok) (start i r)

/-- What holds along a run: the headers are those of the lanes, and what is taken is what was consumed. -/
structure Inv (P : Primitives β) (e : Correspondence β) (l : Side → Lane β) : Prop where
  pair : PairInv P e.session l
  healthy : ∀ x, Healthy P (e.session x)
  issued : ∀ x, ∀ h ∈ e.sent x, ∃ c n, c ∈ (l x).sent ∧ n < c.len ∧ HeaderOf h c n
  prev_le : ∀ x, ∀ h ∈ e.sent x, h.prevChainLength ≤ 2 ^ 32
  taken : ∀ x, ∀ h ∈ e.sent x, h ∈ e.consumed x ↔ (h.dhPublicKey, h.messageNumber) ∈ (l x).taken
  consumed : ∀ x, ∀ h ∈ e.consumed x, h ∈ e.sent x
  publics : ∀ x, ∀ c ∈ (l x).sent, c.pub ∈ e.publics x

variable {ok : SessionState β → RatchetHeader → Prop} {e e' : Correspondence β} {l : Side → Lane β} {x : Side}
  {h : RatchetHeader} {fresh : X25519Seed β}

theorem Inv.new (hi : Inv P e l) (hf : P.x25519Public fresh.1 ∉ e.publics x) :
    P.x25519Public fresh.1 ∉ (l x).sent.map Chain.pub := fun hm => by
  obtain ⟨c, hc, he⟩ := List.mem_map.mp hm
  exact hf (he ▸ hi.publics x c hc)

/-- Headers that were sent stay those of the lanes. -/
theorem issued_grow {l l' : Side → Lane β} {z y : Side} {pub : Bytes} (hg : Grown l l' z pub)
    (h1 : ∃ c n, c ∈ (l y).sent ∧ n < c.len ∧ HeaderOf h c n) : ∃ c n, c ∈ (l' y).sent ∧ n < c.len ∧ HeaderOf h c n := by
  obtain ⟨c, n, hc, hn, hh⟩ := h1
  obtain ⟨c', hc', hp, -, hprev, hlen⟩ := hg.keeps y c hc
  exact ⟨c', n, hc', hn.trans_le hlen, hh.pub.trans hp.symm, hh.prev.trans hprev.symm, hh.number⟩

/-- Chain and number determine a header that was sent. -/
theorem Inv.header_inj (hi : Inv P e l) {h h' : RatchetHeader} (hs : h ∈ e.sent x) (hs' : h' ∈ e.sent x)
    (hd : h'.dhPublicKey = h.dhPublicKey) (hn : h'.messageNumber = h.messageNumber) : h' = h := by
  obtain ⟨c, n, hc, -, hh⟩ := hi.issued x h hs
  obtain ⟨c', n', hc', -, hh'⟩ := hi.issued x h' hs'
  obtain rfl := (hi.pair.tx x).pub_inj hc' hc (hh'.pub.symm.trans (hd.trans hh.pub))
  exact RatchetHeader.ext_iff.mpr ⟨hd, hh'.prev.trans hh.prev.symm, hn⟩

/-- A call that takes nothing and sends nothing. -/
theorem Inv.steady (hi : Inv P e l) (z : Side) {s' : SessionState β} {l' : Side → Lane β}
    (hp : PairInv P (Function.update e.session z s') l') (hh : Healthy P s') {pub : Bytes} (hst : Steady l l' z pub)
    {publics : Side → List Bytes} (hpub : ∀ y, ∀ c ∈ (l' y).sent, c.pub ∈ publics y) :
    Inv P { e with session := Function.update e.session z s', publics } l' where
  pair := hp
  healthy y := by
    dsimp only
    rcases Side.eq_or_other z y with rfl | rfl
    · rw [Function.update_self]
      exact hh
    · rw [Function.update_of_ne (Side.other_ne z)]
      exact hi.healthy _
  issued y h hs := issued_grow hst.grown (hi.issued y h hs)
  prev_le := hi.prev_le
  taken y h hs := by
    rw [hst.taken y]
    exact hi.taken y h hs
  consumed := hi.consumed
  publics := hpub

/-- A header is sent. -/
theorem Inv.sends (hi : Inv P e l) {w : RatchetHeader × MessageKeyBundle β} {s' : SessionState β}
    (new : P.x25519Public fresh.1 ∉ e.publics x) (hrun : (DoubleRatchet.encrypt P fresh).run (e.session x) = .ok w s') :
    ∃ l', Inv P { e with
      session := Function.update e.session x s'
      sent := Function.update e.sent x (w.1 :: e.sent x)
      publics := Function.update e.publics x (s'.ourPublicKey :: e.publics x) } l' := by
  obtain ⟨l', c, n, hp, hh, ho, hst⟩ := hi.pair.encrypt_sends (hi.healthy x) (hi.new new) hrun
  have hhealthy : Healthy P s' := by
    have hc := (hi.healthy x).call (.encrypt fresh)
    simp only [SessionCall.after, SessionCall.run, EStateM.run_bind, hrun] at hc
    exact hc
  have hi' := hi.steady x hp hhealthy hst (Dialogue.publics_grow hst.grown hi.publics)
  have hsent : ∀ y, ∀ h ∈ Function.update e.sent x (w.1 :: e.sent x) y, h ∈ e.sent y ∨ y = x ∧ h = w.1 := fun y h hm => by
    rcases Side.eq_or_other x y with rfl | rfl
    · rw [Function.update_self] at hm
      exact (List.mem_cons.mp hm).symm.imp_right fun he => ⟨rfl, he⟩
    · rw [Function.update_of_ne (Side.other_ne x)] at hm
      exact Or.inl hm
  have huntaken : (w.1.dhPublicKey, w.1.messageNumber) ∉ (l' x).taken := by
    rw [hh.pub, hh.number]
    exact ho.untaken
  refine ⟨l', hi'.pair, hi'.healthy, fun y h hm => ?_, fun y h hm => ?_, fun y h hm => ?_, fun y h hc => ?_, hi'.publics⟩
  · rcases hsent y h hm with hm | ⟨rfl, rfl⟩
    · exact hi'.issued y h hm
    · exact ⟨c, n, ho.mem, ho.lt, hh⟩
  · rcases hsent y h hm with hm | ⟨rfl, rfl⟩
    · exact hi.prev_le y h hm
    · exact ((hi.healthy _).header_counters hrun).2
  · rcases hsent y h hm with hm | ⟨rfl, rfl⟩
    · exact hi'.taken y h hm
    · exact ⟨fun hc => (huntaken ((hi'.taken y _ (hi.consumed y _ hc)).mp hc)).elim, fun ht => (huntaken ht).elim⟩
  · dsimp only
    rcases Side.eq_or_other x y with rfl | rfl
    · rw [Function.update_self]
      exact List.mem_cons_of_mem _ (hi.consumed y h hc)
    · rw [Function.update_of_ne (Side.other_ne x)]
      exact hi.consumed _ h hc

/-- A consumed header that is stale is rejected, as a run finds it. -/
theorem Inv.stale_rejected (hi : Inv P e l) (hc : h ∈ e.consumed x) (hst : Stale (e.session x.other) h)
    (fresh : X25519Seed β) : ∃ message,
      (DoubleRatchet.decrypt P fresh h).run (e.session x.other) = .error (.ratchet message) (e.session x.other) := by
  obtain ⟨c, n, -, -, hh⟩ := hi.issued x h (hi.consumed x _ hc)
  have ht := (hi.taken x h (hi.consumed x _ hc)).mp hc
  rw [hh.pub, hh.number] at ht
  exact hi.pair.stale_rejected hh ht hst fresh

/-- One call, where no header that is not stale arrives again. -/
theorem Step.inv (hs : Step P Stale e e') (hi : Inv P e l) : ∃ l', Inv P e' l' := by
  cases hs with
  | encrypt x new run => exact hi.sends new run
  | @encryptThrows x fresh err s' run =>
    obtain ⟨start, m, p, -, -, -, -, ⟨hm, hl, h1, -⟩ | ⟨e, -, h1, -⟩⟩ := (hi.healthy x).encrypt_outcome fresh
    · rw [h1] at run
      cases run
    · rw [h1] at run
      cases run
      rw [Function.update_eq_self]
      exact ⟨l, hi⟩
  | @decrypt x fresh h k s' sent replay new run =>
    by_cases hc : h ∈ e.consumed x
    · obtain ⟨message, hrej⟩ := hi.stale_rejected hc (replay hc) fresh
      rw [hrej] at run
      cases run
    · obtain ⟨c, n, hmem, hn, hh⟩ := hi.issued x h sent
      have ht := mt (hi.taken x h sent).mpr hc
      rw [hh.pub, hh.number] at ht
      have hhealthy := (hi.healthy x.other).decrypt fresh h
      rw [run] at hhealthy
      obtain ⟨-, l', hp, htaken⟩ := hi.pair.decrypt_keeps ⟨hmem, hn, ht⟩ hh (hi.new new) run
      have hother : ∀ y, ∀ h' ∈ e.sent y, (h'.dhPublicKey, h'.messageNumber) ∈ (l' y).taken ↔
          y = x ∧ h' = h ∨ (h'.dhPublicKey, h'.messageNumber) ∈ (l y).taken := fun y h' hs' => by
        rcases Side.eq_or_other x y with rfl | rfl
        · rw [htaken.taken, Set.mem_insert_iff, ← hh.pub, ← hh.number]
          refine or_congr_left ⟨fun he => ⟨rfl, ?_⟩, fun he => by rw [he.2]⟩
          exact hi.header_inj sent hs' (Prod.mk.inj he).1 (Prod.mk.inj he).2
        · rw [htaken.other]
          exact ⟨Or.inr, fun ho => ho.resolve_left fun he => Side.other_ne x he.1⟩
      refine ⟨l', hp, fun y => ?_, fun y h' hs' => issued_grow htaken.grown (hi.issued y h' hs'), hi.prev_le,
        fun y h' hs' => ?_, fun y h' hc' => ?_, Dialogue.publics_grow htaken.grown hi.publics⟩
      · dsimp only
        rcases Side.eq_or_other x.other y with rfl | rfl
        · rw [Function.update_self]
          exact hhealthy
        · rw [Function.update_of_ne (Side.other_ne _)]
          exact hi.healthy _
      · rw [hother y h' hs', ← hi.taken y h' hs']
        dsimp only
        rcases Side.eq_or_other x y with rfl | rfl
        · rw [Function.update_self, List.mem_cons]
          exact or_congr_left ⟨fun he => ⟨rfl, he⟩, And.right⟩
        · rw [Function.update_of_ne (Side.other_ne x)]
          exact ⟨Or.inr, fun ho => ho.resolve_left fun he => Side.other_ne x he.1⟩
      · dsimp only at hc' ⊢
        rcases Side.eq_or_other x y with rfl | rfl
        · rw [Function.update_self] at hc'
          rcases List.mem_cons.mp hc' with rfl | hc'
          · exact sent
          · exact hi.consumed y h' hc'
        · rw [Function.update_of_ne (Side.other_ne x)] at hc'
          exact hi.consumed _ h' hc'
  | @decryptThrows x fresh h err s' sent replay new run =>
    by_cases hc : h ∈ e.consumed x
    · obtain ⟨message, hrej⟩ := hi.stale_rejected hc (replay hc) fresh
      rw [hrej] at run
      cases run
      have hst := Steady.refl l x.other (e.session x.other).ourPublicKey
      have hp : PairInv P (Function.update e.session x.other (e.session x.other)) l := by
        rw [Function.update_eq_self]
        exact hi.pair
      exact ⟨l, hi.steady x.other hp (hi.healthy _) hst (Dialogue.publics_grow hst.grown hi.publics)⟩
    · obtain ⟨c, n, hmem, hn, hh⟩ := hi.issued x h sent
      have ht := mt (hi.taken x h sent).mpr hc
      rw [hh.pub, hh.number] at ht
      have hhealthy := (hi.healthy x.other).decrypt fresh h
      rw [run] at hhealthy
      obtain ⟨l', hp, hst⟩ := hi.pair.decrypt_throws ⟨hmem, hn, ht⟩ hh (hi.new new) run
      exact ⟨l', hi.steady x.other hp hhealthy hst (Dialogue.publics_grow hst.grown hi.publics)⟩

/-- Every run of two sessions that belong together keeps the invariant. -/
theorem Run.inv {i r : SessionState β} (hp : PairInv P (bySide i r) l)
    (hpub : ∀ x, ∀ c ∈ (l x).sent, c.pub = (bySide i r x).ourPublicKey) (hh : ∀ x, Healthy P (bySide i r x))
    (hr : Run P Stale i r e) : ∃ l', Inv P e l' := by
  induction hr with
  | refl =>
    refine ⟨l, hp, hh, fun _ _ hm => (List.not_mem_nil hm).elim, fun _ _ hm => (List.not_mem_nil hm).elim,
      fun _ _ hm => (List.not_mem_nil hm).elim, fun _ _ hm => (List.not_mem_nil hm).elim, fun x c hc => ?_⟩
    rw [hpub x c hc]
    exact List.mem_singleton_self _
  | tail _ hs ih =>
    obtain ⟨l', hi⟩ := ih
    exact hs.inv hi

end Correspondence

/-- Two sessions opened with opposite roles, one shared secret and each other's keys: in every run, with deliveries in any order
and any number of DH ratchets, a header that was consumed is rejected, whatever is drawn, exactly where its receiver is still on
the chain of the header, or has no room for the ratchet. -/
theorem replay_rejected_iff {i r : SessionState β} {idI idR : String} {sharedSecret : List β}
    {oursI oursR : Option (List β)} {freshI freshR : X25519Seed β}
    (hi : DoubleRatchet.initSession P idI true sharedSecret r.ourPublicKey oursI freshI = .ok i)
    (hr : DoubleRatchet.initSession P idR false sharedSecret i.ourPublicKey oursR freshR = .ok r)
    {e : Correspondence β} (he : Correspondence.Run P Stale i r e) {x : Side} {h : RatchetHeader} (hc : h ∈ e.consumed x) :
    Rejects P (e.session x.other) h ↔ Stale (e.session x.other) h := by
  obtain ⟨l, hopen, hpub, -⟩ := PairInv.initiated hi hr
  have hh : ∀ x, Healthy P (bySide i r x) := fun x => by
    cases x with
    | initiator => exact .opened hi
    | responder => exact .opened hr
  obtain ⟨l', hinv⟩ := he.inv hopen hpub hh
  obtain ⟨c, n, -, -, hhead⟩ := hinv.issued x h (hinv.consumed x h hc)
  have ht := (hinv.taken x h (hinv.consumed x h hc)).mp hc
  rw [hhead.pub, hhead.number] at ht
  refine ⟨fun hrej => ?_, fun hst fresh => ?_⟩
  · by_contra hst
    exact hinv.pair.not_rejected (hinv.prev_le x h (hinv.consumed x h hc)) hhead ht hst hrej
  · obtain ⟨message, hrun⟩ := hinv.stale_rejected hc hst fresh
    exact ⟨message, _, hrun, ⟨rfl, rfl, rfl, rfl, rfl, rfl, rfl, rfl, rfl⟩⟩

/-! ## A header of an earlier chain -/

namespace Correspondence

open Dialogue (octetKey octetKey_injective octetKey_notMem lossyInitiator lossyResponder)

/-- The first header of the initiator. -/
def opening : RatchetHeader := ⟨octetKey 1, 0, 0, rfl⟩

/-- The first chain of the initiator, as either side derives it. -/
def openingChain (k : UInt8) (remote : Bytes) : List SymByte :=
  chainA symbolic (octetSeed 7).1 (symbolic.x25519 (octetSeed k).1 remote)

def initiator₁ : SessionState SymByte := lossyInitiator.sent symbolic (openingChain 1 (octetKey 2)) 0

def responder₁ : SessionState SymByte := lossyResponder.received symbolic (openingChain 2 (octetKey 1)) 0 0

/-- The responder answers on a chain of its own. -/
def responder₂ : SessionState SymByte :=
  (responder₁.firstSent symbolic (octetSeed 3).1).sent symbolic
    (kdfChain symbolic responder₁.rootKey (symbolic.x25519 (octetSeed 3).1 responder₁.remotePublicKey)) 0

theorem sends₁ : (DoubleRatchet.encrypt symbolic (octetSeed 9)).run lossyInitiator =
    .ok (opening, chainKeys symbolic (openingChain 1 (octetKey 2)) 0) initiator₁ :=
  DoubleRatchet.encrypt_run (octetSeed 9) rfl ⟨length_chainA _ _ _, rfl, rfl, rfl⟩ rfl (by decide)

theorem receives₁ : (DoubleRatchet.decrypt symbolic (octetSeed 9) opening).run lossyResponder =
    .ok (chainKeys symbolic (openingChain 2 (octetKey 1)) 0) responder₁ :=
  DoubleRatchet.decrypt_current (octetSeed 9) (AList.lookup_empty _) rfl ⟨length_chainA _ _ _, rfl, rfl⟩ (Nat.zero_le _)
    (by decide) (by decide) (by decide)

theorem sends₂ : (DoubleRatchet.encrypt symbolic (octetSeed 3)).run responder₁ =
    .ok (⟨octetKey 3, 0, 0, rfl⟩, chainKeys symbolic
      (kdfChain symbolic responder₁.rootKey (symbolic.x25519 (octetSeed 3).1 responder₁.remotePublicKey)) 0) responder₂ :=
  (DoubleRatchet.encrypt_first (octetSeed 3) rfl rfl).trans
    (DoubleRatchet.encrypt_run (octetSeed 3) rfl ⟨length_kdfChain _ _ _, rfl, rfl, rfl⟩ rfl (by decide))

/-- The initiator ratchets to that chain. -/
def initiator₂ : SessionState SymByte :=
  ((initiator₁.staged symbolic lossyInitiator.recvChainKey 0 (0 - 0)).ratcheted symbolic (octetKey 3) (octetSeed 4).1).received
    symbolic (initiator₁.nextStart symbolic (octetKey 3)) 0 0

theorem initiator₁_ok : initiator₁.Ok symbolic :=
  ⟨(octetSeed 1).2, rfl, rfl, (openedSession_ok symbolic "bob" true (octetSeed 7).1 (octetSeed 1).2
    (symbolic.length_x25519Public (octetSeed 2).1)).4⟩

theorem receives₂ : (DoubleRatchet.decrypt symbolic (octetSeed 4) ⟨octetKey 3, 0, 0, rfl⟩).run initiator₁ =
    .ok (chainKeys symbolic (initiator₁.nextStart symbolic (octetKey 3)) 0) initiator₂ :=
  DoubleRatchet.decrypt_ratchet (octetSeed 4) (AList.lookup_empty _) (octetKey_injective.ne (by decide)) initiator₁_ok
    ⟨length_chainB _ _ _, rfl, rfl⟩ (by decide) (by decide) (by decide) (by decide)

/-- It sends on its next chain. -/
def initiator₃ : SessionState SymByte := initiator₂.sent symbolic initiator₂.sendChainKey 0

theorem sends₃ : (DoubleRatchet.encrypt symbolic (octetSeed 9)).run initiator₂ =
    .ok (⟨octetKey 4, 1, 0, rfl⟩, chainKeys symbolic initiator₂.sendChainKey 0) initiator₃ :=
  DoubleRatchet.encrypt_run (octetSeed 9) rfl ⟨length_kdfChain _ _ _, rfl, rfl, rfl⟩ rfl (by decide)

/-- The responder ratchets to that one. -/
def responder₃ : SessionState SymByte :=
  ((responder₂.staged symbolic (openingChain 2 (octetKey 1)) 1 (1 - 1)).ratcheted symbolic (octetKey 4) (octetSeed 5).1).received
    symbolic (responder₂.nextStart symbolic (octetKey 4)) 0 0

theorem responder₂_ok : responder₂.Ok symbolic :=
  ⟨(octetSeed 3).2, rfl, rfl, (openedSession_ok symbolic "alice" false (octetSeed 7).1 (octetSeed 2).2
    (symbolic.length_x25519Public (octetSeed 1).1)).4⟩

theorem receives₃ : (DoubleRatchet.decrypt symbolic (octetSeed 5) ⟨octetKey 4, 1, 0, rfl⟩).run responder₂ =
    .ok (chainKeys symbolic (responder₂.nextStart symbolic (octetKey 4)) 0) responder₃ :=
  DoubleRatchet.decrypt_ratchet (octetSeed 5) (AList.lookup_empty _) (octetKey_injective.ne (by decide)) responder₂_ok
    ⟨length_chainA _ _ _, rfl, rfl⟩ (by decide) (by decide) (by decide) (by decide)

variable {ok : SessionState SymByte → RatchetHeader → Prop}

/-- The opening is sent and consumed. -/
theorem run_opening : ∃ e, Run symbolic ok lossyInitiator lossyResponder e ∧ e.session = bySide initiator₁ responder₁ ∧
    e.consumed = bySide [opening] [] ∧ e.publics = bySide [octetKey 1, octetKey 1] [octetKey 2, octetKey 2] := by
  have h1 := (Relation.ReflTransGen.refl (r := Step symbolic ok)).tail
    (Step.encrypt (e := start lossyInitiator lossyResponder) .initiator (octetKey_notMem (b := 9) (l := [1]) (by decide)) sends₁)
  have h2 := h1.tail (.decrypt .initiator (List.mem_cons_self) (fun hc => (List.not_mem_nil hc).elim)
    (octetKey_notMem (b := 9) (l := [2]) (by decide)) receives₁)
  refine ⟨_, h2, ?_, ?_, ?_⟩ <;> funext y <;> cases y <;> rfl

/-- Both sides ratchet after it. -/
theorem run_ratchets : ∃ e, Run symbolic ok lossyInitiator lossyResponder e ∧ e.session .responder = responder₃ ∧
    opening ∈ e.consumed .initiator := by
  obtain ⟨⟨session, sent, consumed, publics⟩, he, hsession, hconsumed, hpublics⟩ := @run_opening ok
  obtain rfl : session = _ := hsession
  obtain rfl : consumed = _ := hconsumed
  obtain rfl : publics = _ := hpublics
  have h3 := he.tail (.encrypt .responder (octetKey_notMem (b := 3) (l := [2, 2]) (by decide)) sends₂)
  have h4 := h3.tail (.decrypt .responder List.mem_cons_self (fun hc => (List.not_mem_nil hc).elim)
    (octetKey_notMem (b := 4) (l := [1, 1]) (by decide)) receives₂)
  have h5 := h4.tail (.encrypt .initiator (octetKey_notMem (b := 9) (l := [4, 1, 1]) (by decide)) sends₃)
  have hne : (⟨octetKey 4, 1, 0, rfl⟩ : RatchetHeader) ≠ opening := fun he => by
    have := congrArg RatchetHeader.prevChainLength he
    cases this
  have h6 := h5.tail (.decrypt .initiator List.mem_cons_self (fun hc => (hne (List.mem_singleton.mp hc)).elim)
    (octetKey_notMem (b := 5) (l := [3, 2, 2]) (by decide)) receives₃)
  exact ⟨_, h6, rfl, List.mem_cons_of_mem _ List.mem_cons_self⟩

theorem responder₃_ok : responder₃.Ok symbolic :=
  ⟨(octetSeed 5).2, rfl, rfl, (openedSession_ok symbolic "alice" false (octetSeed 7).1 (octetSeed 2).2
    (symbolic.length_x25519Public (octetSeed 1).1)).4⟩

/-- The opening is taken again. -/
theorem replays : ∃ k s', (DoubleRatchet.decrypt symbolic (octetSeed 6) opening).run responder₃ = .ok k s' ∧
    s'.remotePublicKey = octetKey 1 ∧ s'.sendCounter = 0 ∧ s'.ourPublicKey = octetKey 6 :=
  ⟨_, _, DoubleRatchet.decrypt_ratchet (octetSeed 6) (AList.lookup_empty _) (octetKey_injective.ne (by decide)) responder₃_ok
    ⟨length_kdfChain _ _ _, rfl, rfl⟩ (by decide) (by decide) (by decide) (by decide), rfl, rfl, rfl⟩

end Correspondence

open Dialogue (octetKey lossyInitiator lossyResponder)

theorem initiated_sessions :
    DoubleRatchet.initSession symbolic "bob" true (octetSeed 7).1 lossyResponder.ourPublicKey (some (octetSeed 1).1)
      (octetSeed 0) = .ok lossyInitiator ∧
    DoubleRatchet.initSession symbolic "alice" false (octetSeed 7).1 lossyInitiator.ourPublicKey (some (octetSeed 2).1)
      (octetSeed 0) = .ok lossyResponder :=
  ⟨DoubleRatchet.initSession_run symbolic "bob" true (octetSeed 0) (Nat.le_of_eq (octetSeed 7).2.symm)
      (symbolic.length_x25519Public (octetSeed 2).1) (octetSeed 1).2,
    DoubleRatchet.initSession_run symbolic "alice" false (octetSeed 0) (Nat.le_of_eq (octetSeed 7).2.symm)
      (symbolic.length_x25519Public (octetSeed 1).1) (octetSeed 2).2⟩

/-- The first message, which its receiver has consumed, is rejected while the receiver is on its chain. -/
theorem replay_rejected_opening : ∃ e, Correspondence.Run symbolic Stale lossyInitiator lossyResponder e ∧
    Correspondence.opening ∈ e.consumed .initiator ∧ Rejects symbolic (e.session .responder) Correspondence.opening := by
  obtain ⟨e, he, hsession, hconsumed, -⟩ := @Correspondence.run_opening Stale
  have hc : Correspondence.opening ∈ e.consumed .initiator := by
    rw [hconsumed]
    exact List.mem_cons_self
  refine ⟨e, he, hc, (replay_rejected_iff initiated_sessions.1 initiated_sessions.2 he hc).mpr (Or.inl ?_)⟩
  show _ = (e.session .responder).remotePublicKey
  rw [hsession]
  rfl

/-- In a run without any replay the first message is consumed, and both sides ratchet. When its header arrives again, `decrypt`
returns a key, and the receiver is on a chain under the old key. -/
theorem replay_ratchets : ∃ e, Correspondence.Run symbolic (fun _ _ => False) lossyInitiator lossyResponder e ∧
    Correspondence.opening ∈ e.consumed .initiator ∧ ¬Rejects symbolic (e.session .responder) Correspondence.opening ∧
    ∃ k s', (DoubleRatchet.decrypt symbolic (octetSeed 6) Correspondence.opening).run (e.session .responder) = .ok k s' ∧
      s'.remotePublicKey = octetKey 1 := by
  obtain ⟨e, he, hsession, hc⟩ := @Correspondence.run_ratchets fun _ _ => False
  obtain ⟨k, s', hrun, hremote, -⟩ := Correspondence.replays
  rw [← hsession] at hrun
  refine ⟨e, he, hc, fun hrej => ?_, k, s', hrun, hremote⟩
  obtain ⟨message, t, hthrow, -⟩ := hrej (octetSeed 6)
  rw [hrun] at hthrow
  cases hthrow

end Chhaya
