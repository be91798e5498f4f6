import Chhaya.Ratchet.Agreement
import Chhaya.Ratchet.Receiving

/-!
# Lost messages

Skipped keys of messages that never arrive stay in the cache, which nothing evicts, and both staging paths stop at
`maxSkippedTotal`. So over a network that keeps every gap within `maxSkip` a delivery succeeds exactly while the cache
has room for the keys that it stages.

- `length_stageKeys`: every staged key is a key more.
- `PairInv.room_of_decrypt`: a delivery that decrypts had room.
- `Dialogue.no_wedge`: on a run with room at every delivery, a message decrypts if and only if there is room for it.
- `Dialogue.wedge`: three chains with gaps of 1000, 1000 and 1.
-/

namespace Chhaya

variable {β : Type} {P : Primitives β}

/-! ## Room -/

/-- No gap that the delivery leaves exceeds `maxSkip`. -/
def GapsKept (s : SessionState β) (h : RatchetHeader) : Prop :=
  s.skipped.lookup (skipKey h.dhPublicKey h.messageNumber) = none →
    if h.dhPublicKey = s.remotePublicKey then h.messageNumber - s.recvCounter ≤ DoubleRatchet.maxSkip
    else h.prevChainLength - s.recvCounter ≤ DoubleRatchet.maxSkip ∧ h.messageNumber ≤ DoubleRatchet.maxSkip

/-- How many keys the delivery of a message that is not cached stages. -/
def stagedBy (s : SessionState β) (h : RatchetHeader) : Nat :=
  if h.dhPublicKey = s.remotePublicKey then (h.messageNumber - s.recvCounter).toNat
  else (h.prevChainLength - s.recvCounter).toNat + h.messageNumber

/-- The cache has room for the keys that the delivery stages. -/
def HasRoom (s : SessionState β) (h : RatchetHeader) : Prop :=
  s.skipped.lookup (skipKey h.dhPublicKey h.messageNumber) = none →
    s.skipped.keys.length + stagedBy s h ≤ DoubleRatchet.maxSkippedTotal

theorem withinBounds_iff {s : SessionState β} {h : RatchetHeader} : WithinBounds s h ↔ GapsKept s h ∧ HasRoom s h := by
  unfold WithinBounds GapsKept HasRoom stagedBy
  by_cases hd : h.dhPublicKey = s.remotePublicKey
  · simp only [if_pos hd]
    exact imp_and
  · simp only [if_neg hd, ← imp_and, and_assoc, Nat.add_assoc]

/-! ## What staging adds -/

theorem length_keys_insert {V : Type} {m : DartMap String V} {x : String} (v : V) (h : m.lookup x = none) :
    (m.insert x v).keys.length = m.keys.length + 1 := by
  rw [AList.keys_insert, List.length_cons, List.erase_of_not_mem (AList.lookup_eq_none.mp h)]

/-- Every staged key is a key more. -/
theorem length_stageKeys (P : Primitives β) (start : List β) (dh : Bytes) (c : Nat)
    {m : DartMap String (MessageKeyBundle β)} (h : ∀ n, c ≤ n → m.lookup (skipKey dh (n : Nat)) = none) : ∀ k,
    (stageKeys P start dh c k m).keys.length = m.keys.length + k
  | 0 => rfl
  | k + 1 => by
    have hnew : (stageKeys P start dh c k m).lookup (skipKey dh (c + k : Nat)) = none := by
      rw [lookup_stageKeys, if_neg (by omega)]
      exact h _ (by omega)
    rw [stageKeys, length_keys_insert _ hnew, length_stageKeys P start dh c h k, Nat.add_assoc]

/-- None of the messages from `c` on of the current chain is cached. -/
def Unstaged (s : SessionState β) (c : Nat) : Prop :=
  ∀ n, c ≤ n → s.skipped.lookup (skipKey s.remotePublicKey (n : Nat)) = none

theorem Unstaged.staged {s : SessionState β} {c : Nat} (h : Unstaged s c) (start : List β) (k : Nat) :
    Unstaged (s.staged P start c k) (c + k) := by
  intro n hn
  show (stageKeys P start s.remotePublicKey c k s.skipped).lookup (skipKey s.remotePublicKey n) = none
  rw [lookup_stageKeys, if_neg (by omega)]
  exact h n (by omega)

theorem length_staged {s : SessionState β} {c : Nat} (h : Unstaged s c) (start : List β) (k : Nat) :
    (s.staged P start c k).skipped.keys.length = s.skipped.keys.length + k :=
  length_stageKeys P start s.remotePublicKey c h k

namespace DoubleRatchet

/-- A staging loop that returns had room for every key. -/
theorem stageUntil_room {start : List β} {t : Nat} {limit : Option Int} : ∀ {k c : Nat} {s s' : SessionState β}
    {staged : Int}, k = t - c → RecvAt P s start c → Unstaged s c →
      (stageUntil P t limit k staged).run s = .ok () s' → s.skipped.keys.length ≤ maxSkippedTotal →
      s.skipped.keys.length + k ≤ maxSkippedTotal := by
  intro k
  induction k with
  | zero => intro c s s' staged _ _ _ _ hm; exact hm
  | succ k ih =>
    intro c s s' staged hk h hu hr _
    have hct : s.recvCounter < (t : Int) := by rw [h.counter]; omega
    have hlen : (s.staged P start c 1).skipped.keys.length = s.skipped.keys.length + 1 := length_staged hu start 1
    have hinc : ({ s.staged P start c 1 with recvCounter := (c : Int) + 1 } : SessionState β)
        = s.staged P start c 1 := rfl
    cases h1 : (stageSkipped P s.recvCounter).run s with
    | error e u => simp [stageUntil, hct, h1] at hr
    | ok a u =>
      obtain ⟨hc, hm⟩ := stageSkipped_inv h h1
      by_cases hlim : limit.any (fun l => decide (l < staged + 1)) = true
      · simp only [stageUntil, EStateM.run_bind, EStateM.run_get, hct, if_true, stageSkipped_run h hc hm,
          EStateM.run_modify, hlim] at hr
        cases hr
      · rw [Bool.not_eq_true] at hlim
        simp only [stageUntil, EStateM.run_bind, EStateM.run_get, hct, if_true, stageSkipped_run h hc hm,
          EStateM.run_modify, hlim, hinc] at hr
        have := ih (by omega) (h.staged 1) (hu.staged start 1) hr (by omega)
        omega

/-- So had a receive that returns. -/
theorem receive_room {s s' : SessionState β} {start : List β} {c n : Nat} {k : MessageKeyBundle β}
    (hr : RecvAt P s start c) (hu : Unstaged s c) (hrun : (receive P (n : Int)).run s = .ok k s')
    (hm : s.skipped.keys.length ≤ maxSkippedTotal) : s.skipped.keys.length + (n - c) ≤ maxSkippedTotal := by
  have hk : ((n : Int) - c).toNat = n - c := by omega
  simp only [receive, EStateM.run_bind, EStateM.run_get, hr.counter, hk] at hrun
  by_cases h1 : (n : Int) < c
  · simp [h1] at hrun
  by_cases h2 : (n : Int) - c > maxSkip
  · simp [h1, h2] at hrun
  cases h3 : (stageUntil P n none (n - c) 0).run s with
  | error e u => simp [h1, h2, h3] at hrun
  | ok a u => exact stageUntil_room rfl hr hu h3 hm

/-- And a ratchet that returns. -/
theorem dhRatchet_room {s s' : SessionState β} {start : List β} {c : Nat} {fresh : X25519Seed β} {h : RatchetHeader}
    (hr : RecvAt P s start c) (hu : Unstaged s c) (hrun : (dhRatchet P fresh h).run s = .ok () s')
    (hm : s.skipped.keys.length ≤ maxSkippedTotal) :
    s.skipped.keys.length + (h.prevChainLength - c) ≤ maxSkippedTotal := by
  have hk : ((h.prevChainLength : Int) - s.recvCounter).toNat = h.prevChainLength - c := by rw [hr.counter]; omega
  simp only [dhRatchet, EStateM.run_bind, EStateM.run_get, hk] at hrun
  cases h1 : (stageUntil P h.prevChainLength (some maxSkip) (h.prevChainLength - c) 0).run s with
  | error e u => simp [h1] at hrun
  | ok a u => exact stageUntil_room rfl hr hu h1 hm

end DoubleRatchet

/-! ## One delivery -/

section Delivery

variable {s : Side → SessionState β} {l : Side → Lane β} {x : Side} {c : Chain β} {h : RatchetHeader}

/-- What lies ahead on the current chain is not cached. -/
theorem PairInv.unstaged_cur (hi : PairInv P s l) (x : Side) : Unstaged (s x.other) (l x).next := by
  intro n hn
  rw [(hi.rx x).remote]
  exact (hi.rx x).cached_cur.none n (Or.inl hn)

/-- Nor is anything of a chain that the receiver has not seen. -/
theorem PairInv.lookup_unseen (hi : PairInv P s l) (hc : (l x).unseen = some c) (n : Nat) :
    (s x.other).skipped.lookup (skipKey c.pub n) = none := by
  cases hl : (s x.other).skipped.lookup (skipKey c.pub n) with
  | none => rfl
  | some v =>
    obtain ⟨d, hd, he⟩ := (hi.rx x).known _ _ _ hl
    exact absurd he ((hi.tx x).unseen_ne hc d hd)

/-- The sender's own key is that of an unseen chain when the receiver does not have it. -/
theorem PairInv.unseen_of_pub (hi : PairInv P s l) {A : Bytes} (hp : A = (s x).ourPublicKey)
    (hd : A ≠ (s x.other).remotePublicKey) : ∃ c, (l x).unseen = some c ∧ c.pub = A := by
  have htop := (hi.tx x).pub
  cases hun : (l x).unseen with
  | some c =>
    rw [Lane.top, hun] at htop
    exact ⟨c, rfl, htop.symm.trans hp.symm⟩
  | none =>
    rw [Lane.top, hun] at htop
    exact absurd (hp.trans (htop.trans (hi.rx x).remote.symm)) hd

theorem PairInv.unstaged_ratcheted (hi : PairInv P s l) (hc : (l x).unseen = some c) (k : Nat) (fresh : List β) :
    Unstaged (((s x.other).staged P (l x).cur.start (l x).next k).ratcheted P c.pub fresh) 0 := by
  intro n _
  show (stageKeys P (l x).cur.start (s x.other).remotePublicKey (l x).next k (s x.other).skipped).lookup
    (skipKey c.pub n) = none
  have hne : c.pub ≠ (s x.other).remotePublicKey := by
    rw [(hi.rx x).remote]
    exact ((hi.tx x).unseen_ne hc _ List.mem_cons_self).symm
  rw [lookup_stageKeys, if_neg fun he => hne he.1]
  exact hi.lookup_unseen hc n

/-- A delivery that decrypts had room for what it staged. -/
theorem PairInv.room_of_decrypt (hi : PairInv P s l) {n : Nat} (ho : (l x).Open c n) (hh : HeaderOf h c n)
    (hm : (s x.other).skipped.keys.length ≤ DoubleRatchet.maxSkippedTotal) {fresh : X25519Seed β}
    {k : MessageKeyBundle β} {s' : SessionState β}
    (hrun : (DoubleRatchet.decrypt P fresh h).run (s x.other) = .ok k s') : HasRoom (s x.other) h := by
  obtain ⟨h1, -, rfl⟩ := hh
  have hrx := hi.rx x
  intro hl
  unfold stagedBy
  simp only [DoubleRatchet.decrypt, EStateM.run_bind, EStateM.run_get, hl] at hrun
  rcases hi.position ho with hs | ⟨-, ⟨rfl, hn⟩ | hu⟩
  · rw [← h1, hl] at hs; cases hs
  · have hd : h.dhPublicKey = (s x.other).remotePublicKey := h1.trans hrx.remote.symm
    simp only [hd, ne_eq, not_true_eq_false, if_false] at hrun
    have := DoubleRatchet.receive_room hrx.recv (hi.unstaged_cur x) hrun hm
    rw [if_pos hd, hrx.recv.counter]
    omega
  · have hd : h.dhPublicKey ≠ (s x.other).remotePublicKey := by
      rw [h1, hrx.remote]; exact ((hi.tx x).unseen_ne hu _ List.mem_cons_self).symm
    simp only [ne_eq, hd, not_false_eq_true, if_true] at hrun
    obtain ⟨_, u, h2, hrun⟩ := run_bind_ok hrun
    have hroom := DoubleRatchet.dhRatchet_room hrx.recv (hi.unstaged_cur x) h2 hm
    obtain ⟨rfl, -⟩ := DoubleRatchet.dhRatchet_inv (hi.ok _) hrx.recv h2
    have hlen : (((s x.other).staged P (l x).cur.start (l x).next (h.prevChainLength - (l x).next)).ratcheted P
        h.dhPublicKey fresh.1).skipped.keys.length =
          (s x.other).skipped.keys.length + (h.prevChainLength - (l x).next) :=
      length_staged (hi.unstaged_cur x) _ _
    have := DoubleRatchet.receive_room (RecvAt.ratcheted P _ h.dhPublicKey fresh.1)
      (h1 ▸ hi.unstaged_ratcheted hu _ fresh.1) hrun (by rw [hlen]; exact hroom)
    rw [if_neg hd, hrx.recv.counter]
    omega

/-- What a ratchet to an unseen chain leaves in the cache. -/
theorem PairInv.length_ratcheted (hi : PairInv P s l) (hu : (l x).unseen = some c) (prev n : Nat) (fresh : List β) :
    ((((s x.other).staged P (l x).cur.start (l x).next (prev - (l x).next)).ratcheted P c.pub fresh).received P
      ((s x.other).nextStart P c.pub) 0 n).skipped.keys.length =
        (s x.other).skipped.keys.length + (prev - (l x).next) + n := by
  have h1 := length_staged (P := P) (hi.unstaged_cur x) (l x).cur.start (prev - (l x).next)
  have h2 := length_staged (P := P) (hi.unstaged_ratcheted hu (prev - (l x).next) fresh)
    ((s x.other).nextStart P c.pub) n
  refine h2.trans ?_
  show ((s x.other).staged P (l x).cur.start (l x).next (prev - (l x).next)).skipped.keys.length + _ = _
  rw [h1]

/-- How many keys a delivery that decrypts leaves in the cache. -/
theorem PairInv.length_skipped (hi : PairInv P s l) {n : Nat} (ho : (l x).Open c n) (hh : HeaderOf h c n)
    {fresh : X25519Seed β} {k : MessageKeyBundle β} {s' : SessionState β}
    (hrun : (DoubleRatchet.decrypt P fresh h).run (s x.other) = .ok k s') :
    s'.skipped.keys.length ≤ (s x.other).skipped.keys.length ∨
      (s x.other).skipped.lookup (skipKey h.dhPublicKey h.messageNumber) = none ∧
        s'.skipped.keys.length = (s x.other).skipped.keys.length + stagedBy (s x.other) h := by
  obtain ⟨h1, -, rfl⟩ := hh
  have hrx := hi.rx x
  rcases DoubleRatchet.decrypt_cases (hi.ok _) hrx.recv hrun with ⟨-, rfl⟩ | ⟨hl, hd, -, -, -, rfl⟩ |
    ⟨hl, hd, -, -, -, rfl⟩
  · refine Or.inl ?_
    show ((s x.other).skipped.erase _).keys.length ≤ _
    rw [AList.keys_erase]
    exact List.length_erase_le
  · refine Or.inr ⟨hl, ?_⟩
    unfold stagedBy
    rw [if_pos hd, hrx.recv.counter]
    have := length_staged (P := P) (hi.unstaged_cur x) (l x).cur.start (h.messageNumber - (l x).next)
    refine this.trans ?_
    omega
  · refine Or.inr ⟨hl, ?_⟩
    have hu : (l x).unseen = some c := by
      rcases hi.position ho with hs | ⟨-, ⟨rfl, -⟩ | hu⟩
      · rw [← h1, hl] at hs; cases hs
      · exact absurd (h1.trans hrx.remote.symm) hd
      · exact hu
    unfold stagedBy
    rw [if_neg hd, hrx.recv.counter, h1, hi.length_ratcheted hu]
    omega

end Delivery

/-! ## Runs over a lossy network -/

namespace Dialogue

/-- The dialogues over a network that keeps every gap within `maxSkip`, where every delivery satisfies `ok`. -/
inductive Run (P : Primitives β) (ok : SessionState β → RatchetHeader → Prop) (i r : SessionState β) :
    Dialogue β → Prop
  | start : Run P ok i r (Dialogue.start i r)
  | encrypt {d : Dialogue β} (h : Run P ok i r d) (x : Side) (fresh : X25519Seed β)
      (new : P.x25519Public fresh.1 ∉ d.publics x) : Run P ok i r (d.encrypt P x fresh)
  | deliver {d : Dialogue β} (h : Run P ok i r d) (x : Side) (w : Wire β) (before after : List (Wire β))
      (fresh : X25519Seed β) (underway : d.inFlight x = before ++ w :: after)
      (new : P.x25519Public fresh.1 ∉ d.publics x.other) (gaps : GapsKept (d.session x.other) w.header.dh)
      (holds : ok (d.session x.other) w.header.dh) : Run P ok i r (d.deliver P x w (before ++ after) fresh)

variable {i r : SessionState β} {d : Dialogue β} {ok : SessionState β → RatchetHeader → Prop}

/-- With room at every delivery a run stays within the bounds. -/
theorem Run.reachable (h : Run P HasRoom i r d) : Reachable P i r d := by
  induction h with
  | start => exact .start
  | encrypt _ x fresh new ih => exact ih.step (.encrypt _ x fresh new)
  | deliver _ x w before after fresh underway new gaps holds ih =>
    exact ih.step (.deliver _ x w before after fresh underway new (withinBounds_iff.mpr ⟨gaps, holds⟩))

theorem Reachable.run (hok : ∀ s h, HasRoom s h → ok s h) (h : Reachable P i r d) : Run P ok i r d := by
  induction h with
  | start => exact .start
  | step _ hs ih =>
    cases hs with
    | encrypt x fresh new => exact ih.encrypt x fresh new
    | deliver x w before after fresh underway new bounds =>
      obtain ⟨hg, hr⟩ := withinBounds_iff.mp bounds
      exact ih.deliver x w before after fresh underway new hg (hok _ _ hr)

/-- The caches keep to the cap. -/
def Capped (d : Dialogue β) : Prop := ∀ x, (d.session x).skipped.keys.length ≤ DoubleRatchet.maxSkippedTotal

/-- A send leaves what both sides receive with alone. -/
theorem Inv.encrypt_sameReceiving {l : Side → Lane β} (h : Inv P d l) (x y : Side) (fresh : X25519Seed β) :
    SameReceiving (d.session y) ((d.encrypt P x fresh).session y) := by
  cases hr : (TripleRatchet.encrypt P fresh).run (d.session x) with
  | error e s' =>
    obtain rfl := h.pair.encrypt_throws hr
    unfold Dialogue.encrypt
    simp only [hr, Function.update_eq_self]
    exact SameReceiving.refl _
  | ok w s' =>
    rw [encrypt_ok hr]
    dsimp only
    rcases Side.eq_or_other x y with rfl | rfl
    · rw [Function.update_self]
      exact TripleRatchet.encrypt_sameReceiving hr
    · rw [Function.update_of_ne (Side.other_ne x)]
      exact SameReceiving.refl _

/-- What a delivery within the bounds leaves of the receiver. -/
theorem Inv.deliver_session {l : Side → Lane β} (h : Inv P d l) {x : Side} {w : Wire β} (rest : List (Wire β))
    (hw : w ∈ d.inFlight x) (hb : WithinBounds (d.session x.other) w.header.dh) (fresh : X25519Seed β) :
    ∃ k s', (DoubleRatchet.decrypt P fresh w.header.dh).run (d.session x.other) = .ok k s' ∧
      d.deliver P x w rest fresh = ⟨Function.update d.session x.other s', Function.update d.inFlight x rest,
        Function.update d.publics x.other (s'.ourPublicKey :: d.publics x.other)⟩ := by
  obtain ⟨s', hr, k, hr'⟩ := h.decrypt hw hb fresh
  refine ⟨k, s', hr', ?_⟩
  unfold Dialogue.deliver
  simp only [hr]

/-- Within the bounds the caches keep to the cap. -/
theorem Reachable.capped {l : Side → Lane β} (hi : PairInv P (bySide i r) l)
    (hpub : ∀ x, ∀ c ∈ (l x).sent, c.pub = (bySide i r x).ourPublicKey) (h0 : Capped (Dialogue.start i r))
    (h : Reachable P i r d) : Capped d := by
  induction h with
  | start => exact h0
  | @step d d' hd hs ih =>
    obtain ⟨l', hl⟩ := reachable_inv hi hpub hd
    cases hs with
    | encrypt x fresh new =>
      intro y
      rw [← (hl.encrypt_sameReceiving x y fresh).skipped]
      exact ih y
    | deliver x w before after fresh underway new bounds =>
      have hw : w ∈ d.inFlight x := by rw [underway]; exact List.mem_append_right _ List.mem_cons_self
      obtain ⟨k, s', hr, hd'⟩ := hl.deliver_session (before ++ after) hw bounds fresh
      obtain ⟨c, n, ho, hh, -⟩ := hl.issued x w hw
      rw [hd']
      intro y
      dsimp only
      rcases Side.eq_or_other x.other y with rfl | rfl
      · rw [Function.update_self]
        rcases hl.pair.length_skipped ho hh hr with hle | ⟨hnone, heq⟩
        · exact hle.trans (ih _)
        · rw [heq]
          exact (withinBounds_iff.mp bounds).2 hnone
      · rw [Function.update_of_ne (Side.other_ne _)]
        exact ih _

/-- Two sessions opened with opposite roles, the same shared secret and each other's keys: in every run over a lossy
network where every delivery had room, a message under way decrypts to what `encrypt` returned with it if and only if
there is room for the keys that its delivery stages. -/
theorem no_wedge {peerI peerR : Contact} {sharedSecret : List β} {oursI oursR : Option (List β)}
    {freshI freshR : X25519Seed β}
    (hi : TripleRatchet.startSession P peerI r.ourPublicKey sharedSecret true oursI freshI = .ok i)
    (hr : TripleRatchet.startSession P peerR i.ourPublicKey sharedSecret false oursR freshR = .ok r)
    (hd : Run P HasRoom i r d) {x : Side} {w : Wire β} (hw : w ∈ d.inFlight x)
    (hg : GapsKept (d.session x.other) w.header.dh) (fresh : X25519Seed β) :
    (∃ s', (TripleRatchet.decrypt P fresh w.header).run (d.session x.other) = .ok w.keys s') ↔
      HasRoom (d.session x.other) w.header.dh := by
  obtain ⟨l, hopen, hpub, hempty⟩ := PairInv.started hi hr
  have hreach := hd.reachable
  have hcap : Capped d := hreach.capped hopen hpub fun x => by
    show (bySide i r x).skipped.keys.length ≤ _
    rw [hempty x]
    exact Nat.zero_le _
  obtain ⟨l', hl⟩ := reachable_inv hopen hpub hreach
  constructor
  · rintro ⟨s', hrun⟩
    obtain ⟨k, _, hrun', -⟩ := run_bind_ok hrun
    obtain ⟨c, n, ho, hh, -⟩ := hl.issued x w hw
    exact hl.pair.room_of_decrypt ho hh (hcap _) hrun'
  · intro hroom
    obtain ⟨s', hrun, -⟩ := hl.decrypt hw (withinBounds_iff.mpr ⟨hg, hroom⟩) fresh
    exact ⟨s', hrun⟩

/-! ## Three chains -/

/-- What decides whether deliveries have room: keys, counters and the size of the cache. -/
structure Outline where
  pub : Bytes
  remote : Bytes
  send : Int
  prev : Int
  recv : Int
  cached : Nat
  live : Bool

/-- The outline of a session. -/
def outline (s : SessionState β) : Outline :=
  ⟨s.ourPublicKey, s.remotePublicKey, s.sendCounter, s.prevSendChainLength, s.recvCounter, s.skipped.keys.length,
    s.sendInitialized⟩

/-- A reachable dialogue with these outlines, where only the keys `A` have been drawn. -/
structure At (P : Primitives β) (i r : SessionState β) (A : List Bytes) (o : Side → Outline) (d : Dialogue β) :
    Prop where
  reach : Reachable P i r d
  drawn : ∀ y, ∀ B ∈ d.publics y, B ∈ A
  outline : ∀ y, Dialogue.outline (d.session y) = o y

/-- The newest message of `x` is message `n` of the chain `pub`, after a chain of `prev` messages. -/
def Newest (d : Dialogue β) (x : Side) (pub : Bytes) (prev n : Int) : Prop :=
  ∃ w rest, d.inFlight x = w :: rest ∧ w.header.dh.dhPublicKey = pub ∧ (w.header.dh.prevChainLength : Int) = prev ∧
    (w.header.dh.messageNumber : Int) = n

section Steps

variable {A : List Bytes} {o : Side → Outline} {l : Side → Lane β} {x : Side}
  (hopen : PairInv P (bySide i r) l) (hpub : ∀ x, ∀ c ∈ (l x).sent, c.pub = (bySide i r x).ourPublicKey)

include hopen hpub

/-- A message on a live chain. -/
theorem At.send (h : At P i r A o d) {f : X25519Seed β} (hf : P.x25519Public f.1 ∉ A) (hA : (o x).pub ∈ A)
    (hl : (o x).live = true) (hn : (o x).send ≤ 0xFFFFFFFF) :
    ∃ d', At P i r A (Function.update o x { o x with send := (o x).send + 1 }) d' ∧
      Newest d' x (o x).pub (o x).prev (o x).send := by
  obtain ⟨l', hi⟩ := reachable_inv hopen hpub h.reach
  rw [← h.outline x] at hA hl hn ⊢
  have hat := (hi.pair.tx x).live hl
  have hn' : (l' x).top.len ≤ 0xFFFFFFFF := by
    have : (d.session x).sendCounter ≤ 0xFFFFFFFF := hn
    rw [hat.counter] at this
    omega
  have hrun := TripleRatchet.encrypt_run f hl hat (hi.pair.ok x) hn'
  have hd := encrypt_ok hrun
  refine ⟨d.encrypt P x f, ⟨h.reach.step (.encrypt d x f fun hm => hf (h.drawn x _ hm)), ?_, ?_⟩, ?_⟩
  · intro y B hB
    rw [hd] at hB
    dsimp only at hB
    rcases Side.eq_or_other x y with rfl | rfl
    · rw [Function.update_self] at hB
      rcases List.mem_cons.mp hB with rfl | hB
      · exact hA
      · exact h.drawn y B hB
    · rw [Function.update_of_ne (Side.other_ne x)] at hB
      exact h.drawn _ B hB
  · intro y
    rw [hd]
    dsimp only
    rcases Side.eq_or_other x y with rfl | rfl
    · rw [Function.update_self, Function.update_self]
      unfold Dialogue.outline
      rw [hat.counter]
      rfl
    · rw [Function.update_of_ne (Side.other_ne x), Function.update_of_ne (Side.other_ne x)]
      exact h.outline _
  · rw [hd]
    refine ⟨_, _, Function.update_self .., rfl, ?_, ?_⟩
    · exact hat.prev.symm
    · exact hat.counter.symm

/-- `k + 1` messages on a live chain. -/
theorem At.sends (h : At P i r A o d) {f : X25519Seed β} (hf : P.x25519Public f.1 ∉ A) (hA : (o x).pub ∈ A)
    (hl : (o x).live = true) (k : Nat) (hn : (o x).send + k ≤ 0xFFFFFFFF) :
    ∃ d', At P i r A (Function.update o x { o x with send := (o x).send + (k + 1 : Nat) }) d' ∧
      Newest d' x (o x).pub (o x).prev ((o x).send + k) := by
  induction k with
  | zero =>
    obtain ⟨d', h', hw⟩ := h.send hopen hpub hf hA hl (by omega)
    exact ⟨d', by simpa using h', by simpa using hw⟩
  | succ k ih =>
    obtain ⟨d', h', -⟩ := ih (by push_cast at hn ⊢; omega)
    have hx : Function.update o x { o x with send := (o x).send + (k + 1 : Nat) } x =
        { o x with send := (o x).send + (k + 1 : Nat) } := Function.update_self ..
    obtain ⟨d'', h'', hw⟩ := h'.send hopen hpub hf (by rw [hx]; exact hA) (by rw [hx]; exact hl)
      (by rw [hx]; exact hn)
    rw [hx, Function.update_idem] at h''
    rw [hx] at hw
    refine ⟨d'', ?_, hw⟩
    have he : (o x).send + ((k + 1 : Nat) : Int) + 1 = (o x).send + ((k + 1 + 1 : Nat) : Int) := by push_cast; omega
    rw [← he]
    exact h''

/-- The first message of the responder. -/
theorem At.sendFirst (h : At P i r A o d) {f : X25519Seed β} (hf : P.x25519Public f.1 ∉ A)
    (hl : (o x).live = false) :
    ∃ d', At P i r (P.x25519Public f.1 :: A)
        (Function.update o x { o x with pub := P.x25519Public f.1, send := 1, prev := 0, live := true }) d' ∧
      Newest d' x (P.x25519Public f.1) 0 0 := by
  obtain ⟨l', hi⟩ := reachable_inv hopen hpub h.reach
  rw [← h.outline x] at hl ⊢
  have hidle := ((hi.pair.tx x).idle hl).2.2.2
  have hok : ((d.session x).firstSent P f.1).Ok P := ⟨f.2, rfl, (hi.pair.ok x).3, (hi.pair.ok x).4⟩
  have hrun := (TripleRatchet.encrypt_first f hl (hi.pair.ok x).remotePublicKey_length).trans
    (TripleRatchet.encrypt_run f rfl (hi.pair.sendAt_firstSent hl f.1) hok (Nat.zero_le _))
  have hd := encrypt_ok hrun
  refine ⟨d.encrypt P x f, ⟨h.reach.step (.encrypt d x f fun hm => hf (h.drawn x _ hm)), ?_, ?_⟩, ?_⟩
  · intro y B hB
    rw [hd] at hB
    dsimp only at hB
    rcases Side.eq_or_other x y with rfl | rfl
    · rw [Function.update_self] at hB
      rcases List.mem_cons.mp hB with rfl | hB
      · exact List.mem_cons_self
      · exact List.mem_cons_of_mem _ (h.drawn y B hB)
    · rw [Function.update_of_ne (Side.other_ne x)] at hB
      exact List.mem_cons_of_mem _ (h.drawn _ B hB)
  · intro y
    rw [hd]
    dsimp only
    rcases Side.eq_or_other x y with rfl | rfl
    · rw [Function.update_self, Function.update_self]
      unfold Dialogue.outline
      rw [← hidle]
      rfl
    · rw [Function.update_of_ne (Side.other_ne x), Function.update_of_ne (Side.other_ne x)]
      exact h.outline _
  · rw [hd]
    exact ⟨_, _, Function.update_self .., rfl, rfl, rfl⟩

/-- The newest message of `x` opens a chain to the peer. -/
theorem At.deliver (h : At P i r A o d) {f : X25519Seed β} (hf : P.x25519Public f.1 ∉ A) {p n : Nat}
    (hw : Newest d x (o x).pub p n) (hne : (o x).pub ≠ (o x.other).remote)
    (hgap : p - (o x.other).recv ≤ 1000) (hgap' : n ≤ 1000)
    (hroom : (o x.other).cached + (p - (o x.other).recv).toNat + n ≤ 2000) :
    ∃ d', At P i r (P.x25519Public f.1 :: A) (Function.update o x.other { o x.other with
      pub := P.x25519Public f.1, remote := (o x).pub, send := 0, prev := (o x.other).send, recv := n + 1,
      cached := (o x.other).cached + (p - (o x.other).recv).toNat + n }) d' := by
  obtain ⟨l', hi⟩ := reachable_inv hopen hpub h.reach
  obtain ⟨w, rest, hflight, hwpub, hwprev, hwn⟩ := hw
  have hwprev := Int.ofNat.inj hwprev
  have hwn := Int.ofNat.inj hwn
  rw [← h.outline x.other] at hne hgap hroom ⊢
  rw [← h.outline x] at hwpub hne ⊢
  have hd : w.header.dh.dhPublicKey ≠ (d.session x.other).remotePublicKey := by rw [hwpub]; exact hne
  have hmem : w ∈ d.inFlight x := by rw [hflight]; exact List.mem_cons_self
  have hb : WithinBounds (d.session x.other) w.header.dh := by
    intro _
    rw [if_neg hd, hwprev, hwn]
    exact ⟨hgap, Int.ofNat_le.mpr hgap', hroom⟩
  obtain ⟨k, s', hrun, hd'⟩ := hi.deliver_session rest hmem hb f
  obtain ⟨c, hc, hcpub⟩ := hi.pair.unseen_of_pub hwpub hd
  have hrx := hi.pair.rx x
  have hs' : s' = (((d.session x.other).staged P (l' x).cur.start (l' x).next (p - (l' x).next)).ratcheted P c.pub
      f.1).received P ((d.session x.other).nextStart P c.pub) 0 n := by
    rcases DoubleRatchet.decrypt_cases (hi.pair.ok _) hrx.recv hrun with ⟨hl, -⟩ | ⟨-, he, -⟩ | ⟨-, -, -, -, -, hs⟩
    · rw [← hcpub, hi.pair.lookup_unseen hc] at hl
      cases hl
    · exact absurd he hd
    · rw [hs, hwprev, hwn, hcpub]
  refine ⟨d.deliver P x w rest f, ⟨h.reach.step (.deliver d x w [] rest f hflight
    (fun hm => hf (h.drawn _ _ hm)) hb), fun y B hB => ?_, fun y => ?_⟩⟩
  · rw [hd', hs'] at hB
    dsimp only at hB
    rcases Side.eq_or_other x.other y with rfl | rfl
    · rw [Function.update_self] at hB
      rcases List.mem_cons.mp hB with rfl | hB
      · exact List.mem_cons_self
      · exact List.mem_cons_of_mem _ (h.drawn _ B hB)
    · rw [Function.update_of_ne (Side.other_ne _)] at hB
      exact List.mem_cons_of_mem _ (h.drawn _ B hB)
  · rw [hd']
    dsimp only
    rcases Side.eq_or_other x.other y with rfl | rfl
    · rw [Function.update_self, Function.update_self]
      have hlen := hi.pair.length_ratcheted hc p n f.1
      have hrecv : (p - (l' x).next : Nat) = ((p : Int) - (d.session x.other).recvCounter).toNat := by
        rw [hrx.recv.counter]; omega
      unfold Dialogue.outline
      dsimp only
      rw [← hrecv, hs', hlen, show (d.session x).ourPublicKey = c.pub from hwpub.symm.trans hcpub.symm]
      rfl
    · rw [Function.update_of_ne (Side.other_ne _), Function.update_of_ne (Side.other_ne _)]
      exact h.outline _

end Steps

/-- The two sessions of the lossy run. -/
def lossyInitiator : SessionState SymByte :=
  openedSession symbolic "bob" true (octetSeed 7).1 (symbolic.x25519Public (octetSeed 2).1) (octetSeed 1).1

def lossyResponder : SessionState SymByte :=
  openedSession symbolic "alice" false (octetSeed 7).1 (symbolic.x25519Public (octetSeed 1).1) (octetSeed 2).1

/-- The public key of a seed. -/
def octetKey (b : UInt8) : Bytes := symbolic.x25519Public (octetSeed b).1

theorem update_initiator {α : Type} (a b c : α) : Function.update (bySide a b) .initiator c = bySide c b := by
  funext y
  cases y <;> rfl

theorem update_responder {α : Type} (a b c : α) : Function.update (bySide a b) .responder c = bySide a c := by
  funext y
  cases y <;> rfl

theorem octetKey_injective : Function.Injective octetKey := by
  intro a b he
  have h0 := congrArg (·[0]?) he
  simpa [octetKey, symbolic, SymByte.publicOf, octetSeed, SymByte.toOctet] using h0

theorem octetKey_notMem {b : UInt8} {l : List UInt8} (h : b ∉ l) : octetKey b ∉ l.map octetKey := fun hm =>
  h ((List.mem_map_of_injective octetKey_injective).mp hm)

theorem octetKey_mem {b : UInt8} {l : List UInt8} (h : b ∈ l) : octetKey b ∈ l.map octetKey := List.mem_map_of_mem h

theorem lossySessions (fresh : X25519Seed SymByte) :
    TripleRatchet.startSession symbolic (verifiedPeer "bob") lossyResponder.ourPublicKey (octetSeed 7).1 true
      (some (octetSeed 1).1) fresh = .ok lossyInitiator ∧
    TripleRatchet.startSession symbolic (verifiedPeer "alice") lossyInitiator.ourPublicKey (octetSeed 7).1 false
      (some (octetSeed 2).1) fresh = .ok lossyResponder :=
  ⟨TripleRatchet.startSession_run symbolic (verifiedPeer "bob") rfl true fresh (Nat.le_of_eq (octetSeed 7).2.symm)
      (symbolic.length_x25519Public (octetSeed 2).1) (octetSeed 1).2,
    TripleRatchet.startSession_run symbolic (verifiedPeer "alice") rfl false fresh (Nat.le_of_eq (octetSeed 7).2.symm)
      (symbolic.length_x25519Public (octetSeed 1).1) (octetSeed 2).2⟩

theorem lossy_start : At symbolic lossyInitiator lossyResponder (List.map octetKey [2, 1])
    (bySide ⟨octetKey 1, octetKey 2, 0, 0, 0, 0, true⟩ ⟨octetKey 2, octetKey 1, 0, 0, 0, 0, false⟩)
    (Dialogue.start lossyInitiator lossyResponder) := by
  refine ⟨.start, fun y B hB => ?_, fun y => by cases y <;> rfl⟩
  obtain rfl := List.mem_singleton.mp hB
  cases y
  · exact octetKey_mem (b := 1) (by decide)
  · exact octetKey_mem (b := 2) (by decide)

/-- The initiator loses its first chain of 1000 messages and 1000 of its second; the second message of the third chain
overtakes the first. -/
theorem lossy_run : ∃ d, At symbolic lossyInitiator lossyResponder (List.map octetKey [6, 5, 4, 3, 2, 1])
    (bySide ⟨octetKey 6, octetKey 5, 2, 1001, 1, 0, true⟩ ⟨octetKey 5, octetKey 4, 1, 1, 1001, 2000, true⟩) d ∧
      Newest d .initiator (octetKey 6) 1001 1 := by
  obtain ⟨l, hopen, hpub, -⟩ := PairInv.started (lossySessions (octetSeed 0)).1 (lossySessions (octetSeed 0)).2
  -- the first chain is lost; the responder writes, and the initiator ratchets
  obtain ⟨d, h, -⟩ := lossy_start.sends hopen hpub (x := .initiator) (f := octetSeed 9) (octetKey_notMem (by decide))
    (octetKey_mem (b := 1) (by decide)) rfl 999 (by decide)
  rw [update_initiator] at h
  obtain ⟨d, h, hw⟩ := h.sendFirst hopen hpub (x := .responder) (f := octetSeed 3) (octetKey_notMem (by decide)) rfl
  rw [update_responder] at h
  change At symbolic lossyInitiator lossyResponder (List.map octetKey [3, 2, 1])
    (bySide ⟨octetKey 1, octetKey 2, 1000, 0, 0, 0, true⟩ ⟨octetKey 3, octetKey 1, 1, 0, 0, 0, true⟩) d at h
  obtain ⟨d, h⟩ := h.deliver hopen hpub (f := octetSeed 4) (octetKey_notMem (b := 4) (by decide)) hw
    (octetKey_injective.ne (by decide)) (by decide) (by decide) (by decide)
  rw [show Side.other .responder = .initiator from rfl, update_initiator] at h
  change At symbolic lossyInitiator lossyResponder (List.map octetKey [4, 3, 2, 1])
    (bySide ⟨octetKey 4, octetKey 3, 0, 1000, 1, 0, true⟩ ⟨octetKey 3, octetKey 1, 1, 0, 0, 0, true⟩) d at h
  -- of the second chain only message 1000 arrives; the responder answers, and the initiator ratchets
  obtain ⟨d, h, hw⟩ := h.sends hopen hpub (x := .initiator) (f := octetSeed 9) (octetKey_notMem (b := 9) (by decide))
    (octetKey_mem (b := 4) (by decide)) rfl 1000 (by decide)
  rw [update_initiator] at h
  change At symbolic lossyInitiator lossyResponder (List.map octetKey [4, 3, 2, 1])
    (bySide ⟨octetKey 4, octetKey 3, 1001, 1000, 1, 0, true⟩ ⟨octetKey 3, octetKey 1, 1, 0, 0, 0, true⟩) d at h
  obtain ⟨d, h⟩ := h.deliver hopen hpub (f := octetSeed 5) (p := 1000) (n := 1000)
    (octetKey_notMem (b := 5) (by decide)) hw
    (octetKey_injective.ne (by decide)) (by decide) (by decide) (by decide)
  rw [show Side.other .initiator = .responder from rfl, update_responder] at h
  change At symbolic lossyInitiator lossyResponder (List.map octetKey [5, 4, 3, 2, 1])
    (bySide ⟨octetKey 4, octetKey 3, 1001, 1000, 1, 0, true⟩ ⟨octetKey 5, octetKey 4, 0, 1, 1001, 2000, true⟩) d at h
  obtain ⟨d, h, hw⟩ := h.send hopen hpub (x := .responder) (f := octetSeed 9) (octetKey_notMem (b := 9) (by decide))
    (octetKey_mem (b := 5) (by decide)) rfl (by decide)
  rw [update_responder] at h
  change At symbolic lossyInitiator lossyResponder (List.map octetKey [5, 4, 3, 2, 1])
    (bySide ⟨octetKey 4, octetKey 3, 1001, 1000, 1, 0, true⟩ ⟨octetKey 5, octetKey 4, 1, 1, 1001, 2000, true⟩) d at h
  obtain ⟨d, h⟩ := h.deliver hopen hpub (f := octetSeed 6) (p := 1) (n := 0)
    (octetKey_notMem (b := 6) (by decide)) hw
    (octetKey_injective.ne (by decide)) (by decide) (by decide) (by decide)
  rw [show Side.other .responder = .initiator from rfl, update_initiator] at h
  change At symbolic lossyInitiator lossyResponder (List.map octetKey [6, 5, 4, 3, 2, 1])
    (bySide ⟨octetKey 6, octetKey 5, 0, 1001, 1, 0, true⟩ ⟨octetKey 5, octetKey 4, 1, 1, 1001, 2000, true⟩) d at h
  -- the third chain
  obtain ⟨d, h, hw⟩ := h.sends hopen hpub (x := .initiator) (f := octetSeed 9) (octetKey_notMem (b := 9) (by decide))
    (octetKey_mem (b := 6) (by decide)) rfl 1 (by decide)
  rw [update_initiator] at h
  exact ⟨d, h, hw⟩

/-- A message delivered for the first time, after gaps of 1000, 1000 and 1 message in three chains, cannot be
decrypted. -/
theorem wedge : ∃ (i r : SessionState SymByte) (d : Dialogue SymByte) (w : Wire SymByte),
    TripleRatchet.startSession symbolic (verifiedPeer "bob") r.ourPublicKey (octetSeed 7).1 true (some (octetSeed 1).1)
      (octetSeed 0) = .ok i ∧
    TripleRatchet.startSession symbolic (verifiedPeer "alice") i.ourPublicKey (octetSeed 7).1 false
      (some (octetSeed 2).1) (octetSeed 0) = .ok r ∧
    Run symbolic (fun _ _ => True) i r d ∧ w ∈ d.inFlight .initiator ∧
    GapsKept (d.session .responder) w.header.dh ∧
    ∀ fresh keys s', (TripleRatchet.decrypt symbolic fresh w.header).run (d.session .responder) ≠ .ok keys s' := by
  obtain ⟨hi, hr⟩ := lossySessions (octetSeed 0)
  obtain ⟨d, h, w, rest, hflight, hpub, hprev, hn⟩ := lossy_run
  have hmem : w ∈ d.inFlight .initiator := by rw [hflight]; exact List.mem_cons_self
  have hout := h.outline .responder
  have hremote : (d.session .responder).remotePublicKey = octetKey 4 := congrArg Outline.remote hout
  have hrecv : (d.session .responder).recvCounter = 1001 := congrArg Outline.recv hout
  have hcached : (d.session .responder).skipped.keys.length = 2000 := congrArg Outline.cached hout
  have hd : w.header.dh.dhPublicKey ≠ (d.session .responder).remotePublicKey := by
    rw [hpub, hremote]
    exact octetKey_injective.ne (by decide)
  refine ⟨_, _, d, w, hi, hr, h.reach.run fun _ _ _ => trivial, hmem, fun _ => ?_, fun fresh keys s' hrun => ?_⟩
  · rw [if_neg hd, hprev, hn, hrecv]
    decide
  · obtain ⟨l, hopen, hpubs, -⟩ := PairInv.started hi hr
    obtain ⟨l', hl⟩ := reachable_inv hopen hpubs h.reach
    obtain ⟨c, n, ho, hh, -⟩ := hl.issued .initiator w hmem
    obtain ⟨k, _, hrun', -⟩ := run_bind_ok hrun
    obtain ⟨c', hc', hcpub⟩ := hl.pair.unseen_of_pub (x := .initiator)
      (hpub.trans (congrArg Outline.pub (h.outline .initiator)).symm) hd
    have hroom : HasRoom (d.session .responder) w.header.dh :=
      hl.pair.room_of_decrypt ho hh (Nat.le_of_eq hcached) hrun'
    have hroom := hroom (hcpub ▸ hl.pair.lookup_unseen hc' _)
    rw [stagedBy, if_neg hd, hrecv, hcached] at hroom
    simp only [DoubleRatchet.maxSkippedTotal] at hroom
    omega

/-- The first message of the initiator, over symbolic primitives. -/
theorem no_wedge_first : ∃ (d : Dialogue SymByte) (w : Wire SymByte), w ∈ d.inFlight .initiator ∧
    Run symbolic HasRoom lossyInitiator lossyResponder d ∧
    ((∃ s', (TripleRatchet.decrypt symbolic (octetSeed 5) w.header).run (d.session .responder) = .ok w.keys s') ↔
      HasRoom (d.session .responder) w.header.dh) := by
  obtain ⟨hi, hr⟩ := lossySessions (octetSeed 0)
  obtain ⟨l, hopen, hpubs, -⟩ := PairInv.started hi hr
  obtain ⟨d, h, w, rest, hflight, hpub, hprev, hn⟩ := lossy_start.send hopen hpubs (x := .initiator) (f := octetSeed 9)
    (octetKey_notMem (by decide)) (octetKey_mem (b := 1) (by decide)) rfl (by decide)
  have hmem : w ∈ d.inFlight .initiator := by rw [hflight]; exact List.mem_cons_self
  have hout := h.outline .responder
  have hremote : (d.session .responder).remotePublicKey = octetKey 1 := congrArg Outline.remote hout
  have hrecv : (d.session .responder).recvCounter = 0 := congrArg Outline.recv hout
  have hgaps : GapsKept (d.session .responder) w.header.dh := fun _ => by
    rw [if_pos (hpub.trans hremote.symm), hn, hrecv]
    decide
  have hrun : Run symbolic HasRoom lossyInitiator lossyResponder d := h.reach.run fun _ _ h => h
  exact ⟨d, w, hmem, hrun, no_wedge hi hr hrun hmem hgaps (octetSeed 5)⟩

end Dialogue

end Chhaya
