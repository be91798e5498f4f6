import Chhaya.Network.Onion

/-!
# The onion relays

`backend/server/src/onion-relay.ts`: what a relay does with a message, and the chain of the relay messages that relays
with one node cache send each other, where every connection opens.

- `Chain.unique`: the handlers decide the chain.
- `forward_same`: a relay sends on the packet that it was sent.
- `relay_iff`: a packet visits its route exactly where the route has one node at most.
- `relay_loops`: a packet with a longer route is sent on for ever.
-/

namespace Chhaya

namespace OnionRelay

/-- An entry of `nodeCache`, under its id. -/
structure CachedNode where
  address : String
  isActive : Bool

abbrev NodeCache := String → Option CachedNode

/-- The payload of a `relay` message. -/
structure RelayPayload where
  packet : Option OnionPacket
  nextNodeId : Option String

/-- The payload of an `unwrap` message. -/
structure UnwrapPayload where
  packet : Option OnionPacket
  nodePrivateKey : Option String

/-- A `RelayMessage`. -/
inductive RelayMessage
  | relay (payload : RelayPayload)
  | unwrap (payload : UnwrapPayload)
  | health
  | ack

/-- What a handler does: it answers, it connects to a node and sends it a message, or nothing. -/
inductive Reaction
  | refused (error : String)
  | forward (nodeId address : String) (message : RelayMessage)
  | unwrapped (packet : OnionPacket)
  | healthy
  | ignored

/-- A value that `!` takes for true. -/
def falsy : Option String → Bool
  | none => true
  | some s => s == ""

/-- `unwrapLayer`. -/
def unwrapLayer (packet : OnionPacket) : OnionPacket :=
  { packet with layersRemaining := packet.layersRemaining - 1, routePath := packet.routePath.drop 1 }

def handleRelay (nodeCache : NodeCache) (payload : RelayPayload) : Reaction :=
  match payload.packet, payload.nextNodeId with
  | some packet, some nextNodeId =>
    if nextNodeId == "" then .refused "Missing packet or nextNodeId"
    else match nodeCache nextNodeId with
      | none => .refused "Node unavailable"
      | some node =>
        if !node.isActive then .refused "Node unavailable"
        else .forward nextNodeId node.address (.relay ⟨some packet, packet.routePath[1]?⟩)
  | _, _ => .refused "Missing packet or nextNodeId"

def handleUnwrap (payload : UnwrapPayload) : Reaction :=
  match payload.packet with
  | none => .refused "Missing packet or key"
  | some packet => if falsy payload.nodePrivateKey then .refused "Missing packet or key" else .unwrapped (unwrapLayer packet)

def handleRelayMessage (nodeCache : NodeCache) : RelayMessage → Reaction
  | .relay payload => handleRelay nodeCache payload
  | .unwrap payload => handleUnwrap payload
  | .health => .healthy
  | .ack => .ignored

/-- The relays that one message leads to, each with the message that the one before sends it, until one sends none. -/
inductive Chain (nodeCache : NodeCache) : RelayMessage → List String → Prop
  | stop {message : RelayMessage} (h : ∀ id address m, handleRelayMessage nodeCache message ≠ .forward id address m) :
    Chain nodeCache message []
  | hop {message next : RelayMessage} {id address : String} {ids : List String}
    (h : handleRelayMessage nodeCache message = .forward id address next) (hc : Chain nodeCache next ids) :
    Chain nodeCache message (id :: ids)

section

variable {nodeCache : NodeCache} {packet : OnionPacket} {message : RelayMessage} {id : String} {ids : List String}

/-- The handlers decide the chain. -/
theorem Chain.unique {ids' : List String} (h : Chain nodeCache message ids) (h' : Chain nodeCache message ids') :
    ids = ids' := by
  induction h generalizing ids' with
  | stop hno =>
    cases h' with
    | stop _ => rfl
    | hop hf _ => exact absurd hf (hno _ _ _)
  | hop hf _ ih =>
    cases h' with
    | stop hno => exact absurd hf (hno _ _ _)
    | hop hf' hc' =>
      rw [hf] at hf'
      cases hf'
      rw [ih hc']

/-- The client's packet, for one node. -/
def relayTo (packet : OnionPacket) (nextNodeId : Option String) : RelayMessage := .relay ⟨some packet, nextNodeId⟩

/-- The node is in the cache and active. -/
def Active (nodeCache : NodeCache) (id : String) : Prop := ∃ node, nodeCache id = some node ∧ node.isActive = true

/-- A relay sends on the packet that it was sent. -/
theorem forward_same (packet : OnionPacket) (ha : Active nodeCache id) (hne : id ≠ "") : ∃ address,
    handleRelayMessage nodeCache (relayTo packet (some id)) = .forward id address (relayTo packet packet.routePath[1]?) := by
  obtain ⟨node, hn, hactive⟩ := ha
  refine ⟨node.address, ?_⟩
  show handleRelay nodeCache ⟨some packet, some id⟩ = _
  unfold handleRelay
  dsimp only
  rw [if_neg (by simpa using hne), hn]
  simp only [hactive, Bool.not_true, Bool.false_eq_true, if_false]
  rfl

/-- Without a node the chain is over. -/
theorem chain_none : Chain nodeCache (relayTo packet none) [] := .stop (by rintro _ _ _ ⟨⟩)

/-- Nor is there a node without an id. -/
theorem chain_empty : Chain nodeCache (relayTo packet (some "")) [] := .stop (by rintro _ _ _ ⟨⟩)

/-- A chain that goes on. -/
theorem chain_some (ha : Active nodeCache id) (hne : id ≠ "") :
    Chain nodeCache (relayTo packet (some id)) (id :: ids) ↔ Chain nodeCache (relayTo packet packet.routePath[1]?) ids := by
  obtain ⟨address, hf⟩ := forward_same packet ha hne
  constructor
  · intro h
    cases h with
    | hop hf' hc =>
      rw [hf] at hf'
      cases hf'
      exact hc
  · exact fun hc => .hop hf hc

/-- A packet whose route has a second node is sent on for ever, to this node. -/
theorem relay_loops (hsecond : packet.routePath[1]? = some id) (ha : Active nodeCache id) (hne : id ≠ "") (ids : List String) :
    ¬Chain nodeCache (relayTo packet (some id)) ids := by
  induction ids with
  | nil =>
    intro h
    obtain ⟨address, hf⟩ := forward_same packet ha hne
    cases h with
    | stop hno => exact hno _ _ _ hf
  | cons next ids ih =>
    intro h
    obtain ⟨address, hf⟩ := forward_same packet ha hne
    cases h with
    | hop hf' hc =>
      rw [hf] at hf'
      cases hf'
      rw [hsecond] at hc
      exact ih hc

end

/-- A packet whose nodes are active visits its route exactly if the route has at most one node, with an id that is not
empty. -/
theorem relay_iff (nodeCache : NodeCache) (packet : OnionPacket) (hactive : ∀ id ∈ packet.routePath, Active nodeCache id) :
    Chain nodeCache (relayTo packet packet.routePath[0]?) packet.routePath ↔
      packet.routePath.length ≤ 1 ∧ "" ∉ packet.routePath := by
  have hempty : ∀ ids, ¬Chain nodeCache (relayTo packet (some "")) ("" :: ids) := by
    intro ids h
    cases h.unique chain_empty
  rcases hr : packet.routePath with _ | ⟨a, _ | ⟨b, r⟩⟩
  · exact iff_of_true chain_none ⟨Nat.zero_le _, List.not_mem_nil⟩
  · have ha : Active nodeCache a := hactive a (by rw [hr]; exact List.mem_cons_self)
    show Chain nodeCache (relayTo packet (some a)) [a] ↔ _
    by_cases hne : a = ""
    · subst hne
      exact iff_of_false (hempty []) fun h => h.2 List.mem_cons_self
    · rw [chain_some ha hne, hr]
      exact iff_of_true chain_none ⟨le_rfl, fun h => hne (List.mem_singleton.mp h).symm⟩
  · have ha : Active nodeCache a := hactive a (by rw [hr]; exact List.mem_cons_self)
    have hb : Active nodeCache b := hactive b (by rw [hr]; exact List.mem_cons_of_mem _ List.mem_cons_self)
    have hsecond : packet.routePath[1]? = some b := by rw [hr]; rfl
    show Chain nodeCache (relayTo packet (some a)) (a :: b :: r) ↔ _
    refine iff_of_false (fun h => ?_) fun h => by simpa using h.1
    by_cases hne : a = ""
    · subst hne
      exact hempty _ h
    · rw [chain_some ha hne, hsecond] at h
      by_cases hne' : b = ""
      · subst hne'
        exact hempty _ h
      · exact relay_loops hsecond hb hne' _ h

/-- Every node is active. -/
def everyNode : NodeCache := fun id => some ⟨id ++ ".chhaya.network:8443", true⟩

/-- A packet for the nodes. -/
def packetFor (routePath : List String) : OnionPacket where
  packetId := "p"
  payload := []
  layersRemaining := routePath.length
  routePath := routePath
  createdAt := ⟨0, true⟩
  circuitId := "c"

/-- A packet for one node visits it. -/
theorem relay_one : Chain everyNode (relayTo (packetFor ["a"]) (some "a")) ["a"] :=
  (relay_iff everyNode (packetFor ["a"]) fun id _ => ⟨_, rfl, rfl⟩).mpr ⟨le_rfl, by decide⟩

/-- A packet for two nodes does not visit them and come to an end. -/
theorem relay_two : ¬ ∀ nodeCache packet, (∀ id ∈ packet.routePath, Active nodeCache id) → packet.routePath.Nodup →
    Chain nodeCache (relayTo packet packet.routePath[0]?) packet.routePath := by
  intro h
  have hactive : ∀ id, Active everyNode id := fun id => ⟨_, rfl, rfl⟩
  have hchain : Chain everyNode (relayTo (packetFor ["a", "b"]) (some "a")) ["a", "b"] :=
    h everyNode (packetFor ["a", "b"]) (fun id _ => hactive id) (by decide)
  rw [chain_some (hactive "a") (by decide)] at hchain
  exact relay_loops rfl (hactive "b") (by decide) _ hchain

end OnionRelay

end Chhaya
