import Chhaya.Ratchet.Atomic

/-!
# Epochs of sent messages

The epoch of a message is its number on the sending chain over `advanceEvery`, and a DH ratchet starts a new sending chain.
Epochs advance with the messages of the session as long as no ratchet cuts a chain on which something was sent.

- `Outcome.sendCounter`: what a `decrypt` does to the sending counter.
- `Sender.Run.inv`: along a run the sending counter counts the messages of the session.
- `epoch_advances`: message `k` carries the epoch `k / advanceEvery`.
-/

namespace Chhaya

variable {β : Type} {P : Primitives β} {s : SessionState β} {start : List β} {c n : Nat}

/-! ## DH ratchets -/

/-- A `decrypt` of `h` makes a DH ratchet: its key is not cached, its chain is another one, and the rest of the old chain can be
filed. -/
def Ratchets (s : SessionState β) (h : RatchetHeader) : Prop :=
  skipKey h.dhPublicKey h.messageNumber ∉ s.skipped.keys ∧ h.dhPublicKey ≠ s.remotePublicKey ∧
  h.prevChainLength ≤ s.recvCounter.toNat + 1000 ∧
  Stages s.remotePublicKey s.recvCounter.toNat s.skipped.keys h.prevChainLength

/-- Receiving on a chain leaves the sending side alone. -/
theorem OnChain.sendCounter {r : EStateM.Result DartError (SessionState β) (MessageKeyBundle β)}
    (ho : OnChain P s start c n r) :
    (leaves r).sendCounter = s.sendCounter ∧ (leaves r).spqrEpoch = s.spqrEpoch := by
  cases ho <;> exact ⟨rfl, rfl⟩

/-- A `decrypt` resets the sending counter where it ratchets, and only there. -/
theorem Outcome.sendCounter (hr : RecvAt P s start c) {fresh : List β} {h : RatchetHeader}
    {r : EStateM.Result DartError (SessionState β) (MessageKeyBundle β)} (ho : Outcome P s start c fresh h r) :
    ((¬Ratchets s h ∧ (leaves r).sendCounter = s.sendCounter) ∨ (Ratchets s h ∧ (leaves r).sendCounter = 0)) ∧
      (leaves r).spqrEpoch = s.spqrEpoch := by
  have hc : s.recvCounter.toNat = c := by rw [hr.counter, Int.toNat_natCast]
  rw [Ratchets, hc]
  cases ho with
  | cached hl =>
    refine ⟨Or.inl ⟨fun h1 => h1.1 ?_, rfl⟩, rfl⟩
    exact AList.lookup_isSome.mp (by rw [hl]; rfl)
  | current hl hd hr' => exact ⟨Or.inl ⟨fun h1 => h1.2.1 hd, hr'.sendCounter.1⟩, hr'.sendCounter.2⟩
  | stuck hl hd hj hlim hroom hstuck => exact ⟨Or.inl ⟨fun h1 => hstuck (h1.2.2.2 _ hj), rfl⟩, rfl⟩
  | tooMany hl hd hp hroom => exact ⟨Or.inl ⟨fun h1 => by have := h1.2.2.1; omega, rfl⟩, rfl⟩
  | ratchet hl hd hp hs hr' =>
    exact ⟨Or.inr ⟨⟨notMem_of_lookup_none hl, hd, hp, hs⟩, hr'.sendCounter.1⟩, hr'.sendCounter.2⟩

/-! ## Runs -/

/-- A session with the epochs of the messages it sent, in order. -/
structure Sender (β : Type) where
  session : SessionState β
  epochs : List Nat

namespace Sender

/-- A call of `TripleRatchet`; a `decrypt` only of a header that `ok` admits. -/
inductive Step (P : Primitives β) (ok : SessionState β → TripleHeader → Prop) (a : Sender β) : Sender β → Prop
  | encrypt {fresh : X25519Seed β} {header : TripleHeader} {keys : MessageKeyBundle β} {s' : SessionState β}
    (h : (TripleRatchet.encrypt P fresh).run a.session = .ok (header, keys) s') :
    Step P ok a ⟨s', a.epochs ++ [header.spqrEpoch]⟩
  | encryptThrows {fresh : X25519Seed β} {e : DartError} {s' : SessionState β}
    (h : (TripleRatchet.encrypt P fresh).run a.session = .error e s') : Step P ok a ⟨s', a.epochs⟩
  | decrypt (fresh : X25519Seed β) (header : TripleHeader) (hk : ok a.session header) :
    Step P ok a ⟨leaves ((TripleRatchet.decrypt P fresh header).run a.session), a.epochs⟩

/-- The calls on a session one after the other. -/
def Run (P : Primitives β) (ok : SessionState β → TripleHeader → Prop) : Sender β → Sender β → Prop :=
  Relation.ReflTransGen (Step P ok)

/-- The sending counter counts the messages of the session. -/
structure Inv (P : Primitives β) (a : Sender β) : Prop where
  healthy : Healthy P a.session
  counter : a.session.sendCounter = a.epochs.length
  epoch : a.session.spqrEpoch = ((a.epochs.length - 1) / 10 : Nat)
  epochs : a.epochs = (List.range a.epochs.length).map (· / 10)

/-- A `decrypt` that ratchets comes before anything is sent. -/
def KeepsChain (s : SessionState β) (h : TripleHeader) : Prop := Ratchets s h.dh → s.sendCounter = 0

/-- Any number of messages in a row. -/
theorem run_sends (ok : SessionState β → TripleHeader → Prop) (fresh : X25519Seed β) {a : Sender β} {m : Nat}
    (ha : Healthy P a.session) (hm : a.session.sendCounter = m) : ∀ n, m + n ≤ 2 ^ 32 →
    ∃ b, Run P ok a b ∧ Healthy P b.session ∧ b.session.sendCounter = (m + n : Nat) ∧
      b.session.remotePublicKey = a.session.remotePublicKey ∧ b.session.skipped = a.session.skipped ∧
      b.epochs = a.epochs ++ (List.range n).map fun i => (m + i) / 10
  | 0, _ => ⟨a, .refl, ha, hm, rfl, rfl, by simp⟩
  | n + 1, hle => by
    obtain ⟨b, hrun, hb, hcount, hremote, hskipped, hepochs⟩ := run_sends ok fresh ha hm n (by omega)
    obtain ⟨start, k, p, hs, hk, hp, hok, ⟨hku, hl, -, hr⟩ | ⟨e, hku, -, -⟩⟩ := hb.encrypt_outcome fresh
    · obtain rfl : k = m + n := by omega
      have hsame : (b.session.live P fresh.1).remotePublicKey = b.session.remotePublicKey ∧
          (b.session.live P fresh.1).skipped = b.session.skipped := by
        unfold SessionState.live
        split <;> exact ⟨rfl, rfl⟩
      refine ⟨_, hrun.tail (.encrypt hr), hok.sent (live_sendInitialized P _ _) hs hp hku (by omega),
        by simp [SessionState.sent]; omega, hsame.1.trans hremote, hsame.2.trans hskipped, ?_⟩
      rw [hepochs, List.range_succ, List.map_append, List.append_assoc]
      rfl
    · omega

theorem Inv.opened {peerId : String} {initiator : Bool} {sharedSecret : List β} {remote : Bytes} {ours : Option (List β)}
    {fresh : X25519Seed β} (h : DoubleRatchet.initSession P peerId initiator sharedSecret remote ours fresh = .ok s) :
    Inv P ⟨s, []⟩ := by
  obtain ⟨priv, -, -, rfl⟩ := DoubleRatchet.initSession_ok h
  exact ⟨.opened h, rfl, by simp [openedSession], rfl⟩

/-- One call keeps the counter, and the epoch does not go back. -/
theorem Step.inv {a b : Sender β} (h : Step P KeepsChain a b) (ha : Inv P a) :
    Inv P b ∧ a.session.spqrEpoch ≤ b.session.spqrEpoch := by
  cases h with
  | @encrypt fresh header keys s' h =>
    obtain ⟨start, n, p, hs, hn, hp, hok, ⟨hle, hl, -, hr⟩ | ⟨e, -, -, hr⟩⟩ := ha.healthy.encrypt_outcome fresh
    · rw [hr] at h
      cases h
      have hlen : n = a.epochs.length := by have := ha.counter; omega
      subst hlen
      refine ⟨⟨?_, by simp [SessionState.sent], ?_, ?_⟩, ?_⟩
      · exact hok.sent (live_sendInitialized P _ _) hs hp hle (by omega)
      · simp
      · rw [List.length_append, List.length_singleton, List.range_succ, List.map_append, ← ha.epochs]
        rfl
      · rw [ha.epoch]
        show ((_ : Nat) : Int) ≤ ((_ : Nat) : Int)
        omega
    · rw [hr] at h
      cases h
  | @encryptThrows fresh e s' h =>
    obtain ⟨start, n, p, -, -, -, -, ⟨_, _, -, hr⟩ | ⟨e, -, -, hr⟩⟩ := ha.healthy.encrypt_outcome fresh
    · rw [hr] at h
      cases h
    · rw [hr] at h
      cases h
      exact ⟨⟨ha.healthy, ha.counter, ha.epoch, ha.epochs⟩, le_refl _⟩
  | decrypt fresh header hk =>
    have hh := ha.healthy.decrypt fresh header.dh
    obtain ⟨start, c, hr, -, ho⟩ := ha.healthy.outcome fresh header.dh
    obtain ⟨hcount, hepoch⟩ := ho.sendCounter hr
    rw [TripleRatchet.leaves_decrypt]
    refine ⟨⟨hh, ?_, hepoch.trans ha.epoch, ha.epochs⟩, hepoch.ge⟩
    rcases hcount with ⟨-, h1⟩ | ⟨h1, h2⟩
    · exact h1.trans ha.counter
    · exact h2.trans ((hk h1).symm.trans ha.counter)

/-- A run keeps the counter, and the epoch does not go back. -/
theorem Run.inv {a b : Sender β} (h : Run P KeepsChain a b) (ha : Inv P a) :
    Inv P b ∧ a.session.spqrEpoch ≤ b.session.spqrEpoch := by
  induction h with
  | refl => exact ⟨ha, le_refl _⟩
  | tail _ hstep ih =>
    obtain ⟨h1, h2⟩ := hstep.inv ih.1
    exact ⟨h1, ih.2.trans h2⟩

end Sender

/-- Ten messages share an epoch. -/
theorem count_epochs_le (n e : Nat) : ((List.range n).map (· / 10)).count e ≤ 10 := by
  have hsub : (Finset.range n).filter (fun k => k / 10 = e) ⊆ Finset.Ico (10 * e) (10 * e + 10) := by
    intro k hk
    obtain ⟨-, hk⟩ := Finset.mem_filter.mp hk
    exact Finset.mem_Ico.mpr (by omega)
  have hcard := Finset.card_le_card hsub
  rw [Nat.card_Ico, Nat.add_sub_cancel_left, ← Nat.count_eq_card_filter_range, Nat.count] at hcard
  rw [List.count, List.countP_map]
  refine le_trans (le_of_eq ?_) hcard
  exact List.countP_congr fun k _ => by simp

/-- As long as no `decrypt` ratchets after something was sent, message `k` carries the epoch `k / advanceEvery`, the epoch of the
session never goes back, and no epoch is used for more than `advanceEvery` messages. -/
theorem epoch_advances {peerId : String} {initiator : Bool} {sharedSecret : List β} {remote : Bytes}
    {ours : Option (List β)} {fresh : X25519Seed β}
    (h : DoubleRatchet.initSession P peerId initiator sharedSecret remote ours fresh = .ok s) {a b : Sender β}
    (ha : Sender.Run P Sender.KeepsChain ⟨s, []⟩ a) (hb : Sender.Run P Sender.KeepsChain a b) :
    (∀ k (hk : k < b.epochs.length), b.epochs[k] = k / SpqrChain.advanceEvery.toNat) ∧
      a.session.spqrEpoch ≤ b.session.spqrEpoch ∧ ∀ e, b.epochs.count e ≤ SpqrChain.advanceEvery.toNat := by
  obtain ⟨hia, -⟩ := ha.inv (.opened h)
  obtain ⟨hib, hle⟩ := hb.inv hia
  refine ⟨fun k hk => ?_, hle, fun e => ?_⟩
  · rw [List.getElem_of_eq hib.epochs hk, List.getElem_map, List.getElem_range]
    rfl
  · rw [hib.epochs]
    exact count_epochs_le _ e

open Dialogue (octetKey octetKey_injective lossyInitiator)

theorem lossyInitiator_opened : DoubleRatchet.initSession symbolic "bob" true (octetSeed 7).1 (octetKey 2)
    (some (octetSeed 1).1) (octetSeed 0) = .ok lossyInitiator :=
  DoubleRatchet.initSession_run symbolic "bob" true (octetSeed 0) (Nat.le_of_eq (octetSeed 7).2.symm)
    (symbolic.length_x25519Public (octetSeed 2).1) (octetSeed 1).2

/-- Twelve messages in one direction. -/
theorem epoch_advances_twelve : ∃ b : Sender SymByte, b.epochs.length = 12 ∧
    ∀ k (hk : k < b.epochs.length), b.epochs[k] = k / SpqrChain.advanceEvery.toNat := by
  obtain ⟨b, hrun, -, -, -, -, he⟩ := Sender.run_sends (P := symbolic) Sender.KeepsChain (octetSeed 3)
    (a := ⟨lossyInitiator, []⟩) lossyInitiator_reachable.healthy rfl 12 (by decide)
  exact ⟨b, by rw [he]; rfl, (epoch_advances lossyInitiator_opened .refl hrun).1⟩

/-- A ratchet after eleven messages: message 11 carries the epoch 0, which ten messages have carried before. -/
theorem epoch_reset : ∃ b : Sender SymByte, Sender.Run symbolic (fun _ _ => True) ⟨lossyInitiator, []⟩ b ∧
    ¬(∀ k (hk : k < b.epochs.length), b.epochs[k] = k / SpqrChain.advanceEvery.toNat) ∧
    ¬∀ e, b.epochs.count e ≤ SpqrChain.advanceEvery.toNat := by
  obtain ⟨a, hrun, ha, -, hremote, hskipped, he⟩ := Sender.run_sends (P := symbolic) (fun _ _ => True) (octetSeed 3)
    (a := ⟨lossyInitiator, []⟩) lossyInitiator_reachable.healthy rfl 11 (by decide)
  let h : TripleHeader := ⟨⟨octetKey 3, 0, 0, rfl⟩, 0, by decide⟩
  have hratchets : Ratchets a.session h.dh := by
    refine ⟨?_, ?_, Nat.zero_le _, fun i hi => absurd hi (by rw [Nat.zero_sub]; exact Nat.not_lt_zero i)⟩
    · rw [hskipped]
      exact List.not_mem_nil
    · rw [hremote]
      exact octetKey_injective.ne (by decide)
  obtain ⟨start, c, hr, -, ho⟩ := ha.outcome (octetSeed 4) h.dh
  have hzero : (leaves ((TripleRatchet.decrypt symbolic (octetSeed 4) h).run a.session)).sendCounter = (0 : Nat) := by
    rw [TripleRatchet.leaves_decrypt]
    rcases (ho.sendCounter hr).1 with ⟨h1, -⟩ | ⟨-, h1⟩
    · exact absurd hratchets h1
    · exact h1
  have hhealthy := ha.decrypt (octetSeed 4) h.dh
  rw [← TripleRatchet.leaves_decrypt] at hhealthy
  obtain ⟨b, hrun', -, -, -, -, he'⟩ := Sender.run_sends (fun _ _ => True) (octetSeed 3)
    (a := ⟨_, a.epochs⟩) hhealthy hzero 1 (by decide)
  rw [he] at he'
  refine ⟨b, (hrun.tail (.decrypt (octetSeed 4) h trivial)).trans hrun', fun h1 => ?_, fun h1 => ?_⟩
  · have h2 := h1 11 (by rw [he']; decide)
    rw [List.getElem_of_eq he'] at h2
    exact absurd (show 0 = 1 from h2) (by decide)
  · have h2 := h1 0
    rw [he'] at h2
    exact absurd h2 (by decide)

end Chhaya
