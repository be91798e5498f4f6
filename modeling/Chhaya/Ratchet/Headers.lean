import Chhaya.Codec.MessageCodec
import Chhaya.Ratchet.Reachable

/-!
# Headers on the wire

`toBytes` writes the two counters of a header with `setUint32`, which keeps them modulo `2 ^ 32`, while the constructor of
`RatchetHeader` only rejects negative ones. `MessageKeys.derive` keeps message numbers below `2 ^ 32`; the length of a chain
is its counter after the last message, so it may be `2 ^ 32` itself.

- `RatchetHeader.fromBytes_toBytes_mod`: what a header is read back as.
- `RatchetHeader.fromBytes_ok`, `TripleHeader.fromBytes_ok`: bytes of the right length are read.
- `headers_roundTrip`: exactly which headers are read back.
-/

namespace Chhaya

/-! ## Ratchet headers -/

/-- What a header is read back as: its counters modulo `2 ^ 32`. -/
theorem RatchetHeader.fromBytes_toBytes_mod (h : RatchetHeader) : fromBytes h.toBytes =
    .ok ⟨h.dhPublicKey, h.prevChainLength % 2 ^ 32, h.messageNumber % 2 ^ 32, h.dhPublicKey_length⟩ := by
  have hb : h.toBytes = (⟨h.dhPublicKey, h.prevChainLength % 2 ^ 32, h.messageNumber % 2 ^ 32, h.dhPublicKey_length⟩ :
      RatchetHeader).toBytes := by
    rw [toBytes, toBytes, ← readU32be_u32be_mod, ← readU32be_u32be_mod, (u32be_readU32be (length_u32be _)).1,
      (u32be_readU32be (length_u32be _)).1]
  rw [hb]
  exact fromBytes_toBytes (Nat.mod_lt _ (by decide)) (Nat.mod_lt _ (by decide))

theorem RatchetHeader.fromBytes_toBytes_iff (h : RatchetHeader) : fromBytes h.toBytes = .ok h ↔
    h.prevChainLength < 2 ^ 32 ∧ h.messageNumber < 2 ^ 32 := by
  refine ⟨fun he => ?_, fun ⟨hp, hn⟩ => fromBytes_toBytes hp hn⟩
  rw [fromBytes_toBytes_mod] at he
  obtain ⟨-, hp, hn⟩ := RatchetHeader.ext_iff.mp (Except.ok.inj he)
  exact ⟨hp ▸ Nat.mod_lt _ (by decide), hn ▸ Nat.mod_lt _ (by decide)⟩

/-- Forty bytes are a header. -/
theorem RatchetHeader.fromBytes_ok {b : Bytes} (hb : b.length = 40) : ∃ h, fromBytes b = .ok h := by
  have h1 : (b.take 32).length = 32 := by simp [hb]
  refine ⟨⟨b.take 32, readU32be ((b.drop 32).take 4), readU32be (b.drop 36), h1⟩, ?_⟩
  rw [fromBytes, if_neg (by simp [hb]), create_ok h1]

/-- Every other length is rejected. -/
theorem RatchetHeader.fromBytes_length {b : Bytes} (hb : b.length ≠ 40) : fromBytes b =
    .error (.argument (toString b.length) "bytes" "Ratchet headers must be 40 bytes") := if_pos hb

/-! ## Triple headers -/

theorem TripleHeader.fromBytes_toBytes_iff (h : TripleHeader) : fromBytes h.toBytes = .ok h ↔
    h.dh.prevChainLength < 2 ^ 32 ∧ h.dh.messageNumber < 2 ^ 32 := by
  refine ⟨fun he => ?_, fun ⟨hp, hn⟩ => fromBytes_toBytes hp hn⟩
  have h1 : h.toBytes.take 40 = h.dh.toBytes := by rw [toBytes, List.take_left' (by simp)]
  unfold fromBytes at he
  rw [if_neg (by simp), h1] at he
  obtain ⟨dh, hd, he⟩ := except_bind_ok he
  have hdh : dh = h.dh := by
    unfold create at he
    split at he
    · cases he
    · exact congrArg TripleHeader.dh (Except.ok.inj he)
  rw [← RatchetHeader.fromBytes_toBytes_iff]
  exact hdh ▸ hd

/-- Forty-four bytes are a header. -/
theorem TripleHeader.fromBytes_ok {b : Bytes} (hb : b.length = 44) : ∃ h, fromBytes b = .ok h := by
  obtain ⟨dh, h1⟩ := RatchetHeader.fromBytes_ok (b := b.take 40) (by simp [hb])
  have he := (u32be_readU32be (show (b.drop 40).length = 4 by simp [hb])).2
  have hc : ¬((readU32be (b.drop 40) : Int) < 0 ∨ (readU32be (b.drop 40) : Int) > 0xFFFFFFFF) := by omega
  refine ⟨⟨dh, readU32be (b.drop 40), by omega⟩, ?_⟩
  unfold fromBytes
  rw [if_neg (by simp [hb]), h1]
  simp only [bind, Except.bind, create, dif_neg hc]
  rfl

/-- Every other length is rejected. -/
theorem TripleHeader.fromBytes_length {b : Bytes} (hb : b.length ≠ 44) : fromBytes b =
    .error (.argument (toString b.length) "bytes" "Triple headers must be 44 bytes") := by
  unfold fromBytes
  rw [if_pos hb]
  rfl

/-! ## The headers of the ratchet -/

variable {β : Type} {P : Primitives β} {s s' : SessionState β}

/-- The counters of a header that a session makes. -/
theorem Healthy.header_counters (hs : Healthy P s) {fresh : X25519Seed β} {h : RatchetHeader} {k : MessageKeyBundle β}
    (he : (DoubleRatchet.encrypt P fresh).run s = .ok (h, k) s') :
    h.messageNumber < 2 ^ 32 ∧ h.prevChainLength ≤ 2 ^ 32 := by
  obtain ⟨start, n, p, -, -, hp, -, ⟨hn, hl, h1, -⟩ | ⟨e, -, h1, -⟩⟩ := hs.encrypt_outcome fresh
  · rw [h1] at he
    cases he
    exact ⟨by dsimp only; omega, hp⟩
  · rw [h1] at he
    cases he

/-- Headers are read back exactly where their counters are below `2 ^ 32`, bytes of the right length always; of the headers
that a session makes those whose previous chain did not use up all its numbers. -/
theorem headers_roundTrip (P : Primitives β) :
    (∀ h : RatchetHeader, RatchetHeader.fromBytes h.toBytes = .ok h ↔ h.prevChainLength < 2 ^ 32 ∧ h.messageNumber < 2 ^ 32) ∧
    (∀ h : TripleHeader, TripleHeader.fromBytes h.toBytes = .ok h ↔
      h.dh.prevChainLength < 2 ^ 32 ∧ h.dh.messageNumber < 2 ^ 32) ∧
    (∀ b : Bytes, (b.length = 40 → ∃ h, RatchetHeader.fromBytes b = .ok h ∧ h.toBytes = b) ∧
      (b.length ≠ 40 → ∃ e, RatchetHeader.fromBytes b = .error e)) ∧
    (∀ b : Bytes, (b.length = 44 → ∃ h, TripleHeader.fromBytes b = .ok h ∧ h.toBytes = b) ∧
      (b.length ≠ 44 → ∃ e, TripleHeader.fromBytes b = .error e)) ∧
    ∀ s, Reachable P s → ∀ (fresh : X25519Seed β) (h : RatchetHeader) (k : MessageKeyBundle β) (s' : SessionState β),
      (DoubleRatchet.encrypt P fresh).run s = .ok (h, k) s' →
      (RatchetHeader.fromBytes h.toBytes = .ok h ↔ h.prevChainLength ≠ 2 ^ 32) := by
  refine ⟨RatchetHeader.fromBytes_toBytes_iff, TripleHeader.fromBytes_toBytes_iff, fun b => ⟨fun hb => ?_, fun hb => ?_⟩,
    fun b => ⟨fun hb => ?_, fun hb => ⟨_, TripleHeader.fromBytes_length hb⟩⟩, fun s hs fresh h k s' he => ?_⟩
  · obtain ⟨h, he⟩ := RatchetHeader.fromBytes_ok hb
    exact ⟨h, he, (RatchetHeader.toBytes_fromBytes he).1⟩
  · exact ⟨_, RatchetHeader.fromBytes_length hb⟩
  · obtain ⟨h, he⟩ := TripleHeader.fromBytes_ok hb
    exact ⟨h, he, (TripleHeader.toBytes_fromBytes he).1⟩
  · obtain ⟨hn, hp⟩ := hs.healthy.header_counters he
    rw [RatchetHeader.fromBytes_toBytes_iff]
    omega

/-- A header that the constructor accepts, after a chain of `2 ^ 32` messages: the length is read back as zero. -/
theorem headers_prevChainLength : ∃ h : RatchetHeader,
    RatchetHeader.create (List.replicate 32 0) (2 ^ 32) 0 = .ok h ∧ RatchetHeader.fromBytes h.toBytes ≠ .ok h := by
  refine ⟨⟨List.replicate 32 0, 2 ^ 32, 0, List.length_replicate⟩, RatchetHeader.create_ok List.length_replicate (2 ^ 32) 0,
    fun he => ?_⟩
  have h := ((RatchetHeader.fromBytes_toBytes_iff _).mp he).1
  exact absurd h (Nat.lt_irrefl _)

end Chhaya
