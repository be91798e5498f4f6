import Chhaya.Network.Onion

/-!
# The Go node

`backend/node/main.go`: a node takes off a layer by an exclusive or with the hash of its public key.

- `PeelLayer_ok`: everything that is long enough is peeled, to all of it but its first twelve bytes.
- `peel_iff`: this is what the client's layers ask for only where there is no layer at all.
- `peel_differs`: the layer of an empty payload gives sixteen bytes.
-/

namespace Chhaya

namespace Node

/-- `PacketStats`, without its lock. -/
structure PacketStats where
  totalReceived : Nat := 0
  totalForwarded : Nat := 0
  totalDropped : Nat := 0
  totalExpired : Nat := 0

/-- `OnionNode.PeelLayer` of a node with the public key. -/
def PeelLayer (sha256 : Bytes → Bytes) (publicKey payload : Bytes) (stats : PacketStats) :
    Except String Bytes × PacketStats :=
  let stats := { stats with totalReceived := stats.totalReceived + 1 }
  if payload.length < 12 + 16 then
    (.error ("payload too short " ++ toString payload.length), { stats with totalDropped := stats.totalDropped + 1 })
  else
    let keyHash := sha256 publicKey
    let ct := payload.drop 12
    (.ok (ct.mapIdx fun i b => b ^^^ keyHash.getD (i % 32) 0), stats)

variable {P : Primitives UInt8} {sha256 : Bytes → Bytes} {publicKey payload : Bytes} {stats : PacketStats}

theorem PeelLayer_error (h : payload.length < 28) : ∃ e, (PeelLayer sha256 publicKey payload stats).1 = .error e := by
  unfold PeelLayer
  rw [if_pos h]
  exact ⟨_, rfl⟩

/-- What is long enough is peeled, and keeps its tag. -/
theorem PeelLayer_ok (sha256 : Bytes → Bytes) (publicKey : Bytes) (stats : PacketStats) (h : 28 ≤ payload.length) :
    ∃ plain, (PeelLayer sha256 publicKey payload stats).1 = .ok plain ∧ plain.length + 12 = payload.length := by
  unfold PeelLayer
  rw [if_neg (Nat.not_lt.mpr h)]
  refine ⟨_, rfl, ?_⟩
  rw [List.length_mapIdx, List.length_drop]
  omega

/-- The node peels the layers that the client wraps for its key, and refuses every other byte string. -/
structure Peels (P : Primitives UInt8) (sha256 : Bytes → Bytes) (publicKey payload : Bytes) (stats : PacketStats) : Prop where
  layer : ∀ nonce inner, payload = OnionRouterService.wrapLayer P sha256 publicKey nonce inner →
    (PeelLayer sha256 publicKey payload stats).1 = .ok inner
  other : (∀ nonce inner, payload ≠ OnionRouterService.wrapLayer P sha256 publicKey nonce inner) →
    ∃ e, (PeelLayer sha256 publicKey payload stats).1 = .error e

/-- The node does with a byte string what it should exactly if the byte string is too short for a layer. -/
theorem peel_iff (P : Primitives UInt8) (sha256 : Bytes → Bytes) (publicKey payload : Bytes) (stats : PacketStats) :
    Peels P sha256 publicKey payload stats ↔ payload.length < 28 := by
  constructor
  · intro h
    by_contra hlong
    obtain ⟨plain, hplain, hlen⟩ := PeelLayer_ok sha256 publicKey stats (Nat.le_of_not_lt hlong)
    by_cases hlayer : ∃ nonce inner, payload = OnionRouterService.wrapLayer P sha256 publicKey nonce inner
    · obtain ⟨nonce, inner, he⟩ := hlayer
      have hsame := (h.layer nonce inner he).symm.trans hplain
      cases hsame
      have hwrapped := congrArg List.length he
      rw [OnionRouterService.length_wrapLayer] at hwrapped
      omega
    · obtain ⟨e, he⟩ := h.other fun nonce inner hw => hlayer ⟨nonce, inner, hw⟩
      rw [hplain] at he
      cases he
  · intro hshort
    refine ⟨fun nonce inner he => ?_, fun _ => PeelLayer_error hshort⟩
    have hwrapped := congrArg List.length he
    rw [OnionRouterService.length_wrapLayer] at hwrapped
    omega

/-- The layer of an empty payload is not peeled to an empty payload. -/
theorem peel_differs : ¬ ∀ P sha256 publicKey nonce inner stats,
    (PeelLayer sha256 publicKey (OnionRouterService.wrapLayer P sha256 publicKey nonce inner) stats).1 = .ok inner := by
  intro h
  have hpeel := h zeroPrimitives id (List.replicate 32 1) ⟨List.replicate 12 0, rfl⟩ [] {}
  revert hpeel
  decide

end Node

end Chhaya
