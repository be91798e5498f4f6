import Chhaya.Codec.Release
import Chhaya.Ratchet.Secrecy

/-!
# End-to-end integrity

Two accounts that have verified each other, and a server that hands either of them any envelope under any conversation,
message id and sender. `Channel.Step` has one rule for each call of the codec; the only thing asked of a decrypt that
succeeds is what an ideal cipher grants: what opens under a key unknown to the attacker was sealed under it by one of
the two accounts, with the same associated data.

- `ChannelInv.authentic`: what an authentic envelope carries is an untaken message of the peer.
- `ChannelInv.encrypt`, `ChannelInv.decrypt`: one call keeps the invariant; `reachable_channelInv`: so does every run.
- `channel_integrity`: what is accepted was posted by the peer with the same conversation, message id and sender, and
  is accepted once.
-/

namespace Chhaya

variable {β : Type} {P : Primitives β} {known : Set (List β)} {codec : Side → RatchetMessageCodec β}

/-! ## Channels -/

/-- A payload with what its envelope is bound to. -/
structure Parcel where
  conversation : String
  messageId : String
  sender : String
  header : Bytes
  payload : JsonFields

/-- What tells the encrypted messages of a sender apart. -/
def Parcel.id (p : Parcel) : String × Bytes := (p.conversation, p.header)

/-- A parcel and how it was sealed. -/
structure Posted (β : Type) where
  parcel : Parcel
  sealed : Sealed β

/-- The stored sessions of both accounts, what each has posted and accepted, and the public keys each has had. -/
structure Channel (β : Type) where
  sessions : Side → String → Option (SessionState β)
  posted : Side → List (Posted β)
  accepted : Side → List Parcel
  publics : Side → List Bytes

/-- The initiator is the account with the smaller id. Ids are those of the identity keys, which the attacker lacks. -/
structure Parties (P : Primitives β) (known : Set (List β)) (codec : Side → RatchetMessageCodec β) : Prop where
  key_length : ∀ x, (codec x).identity.privateKey.length = 32
  ownId : ∀ x, (codec x).ownId = identityOf (P.x25519Public (codec x).identity.privateKey)
  ordered : (codec .initiator).ownId < (codec .responder).ownId
  honest : ∀ x, ∀ k ∈ known, P.x25519Public k ≠ P.x25519Public (codec x).identity.privateKey

namespace Channel

/-- No session, no message. -/
def start (P : Primitives β) (codec : Side → RatchetMessageCodec β) : Channel β where
  sessions _ _ := none
  posted _ := []
  accepted _ := []
  publics x := [P.x25519Public (codec x).identity.privateKey]

/-- A session of `x` is saved under its own `peerId`; the key pair `fresh` is drawn. -/
def commit (P : Primitives β) (ch : Channel β) (x : Side) (s : SessionState β) (fresh : List β) : Channel β :=
  { ch with
    sessions := Function.update ch.sessions x (Function.update (ch.sessions x) s.peerId (some s))
    publics := Function.update ch.publics x (P.x25519Public fresh :: ch.publics x) }

/-- The call of `encrypt` by `x` returns. -/
def post (P : Primitives β) (ch : Channel β) (x : Side) (conversation messageId sender : String) (payload : JsonMap)
    (fresh : List β) (r : Sealed β) : Channel β :=
  { ch.commit P x r.state fresh with
    posted := Function.update ch.posted x
      (⟨⟨conversation, messageId, sender, r.header.toBytes, payload.fields⟩, r⟩ :: ch.posted x) }

/-- The call of `decrypt` by `x` returns. -/
def accept (P : Primitives β) (ch : Channel β) (x : Side) (conversation messageId sender : String)
    (fresh : List β) (r : Opened β) : Channel β :=
  { ch.commit P x r.state fresh with
    accepted := Function.update ch.accepted x
      (⟨conversation, messageId, sender, r.header.toBytes, r.payload⟩ :: ch.accepted x) }

/-- What an ideal cipher grants when `r` was opened. -/
def Authentic (known : Set (List β)) (ch : Channel β) (r : Opened β) : Prop :=
  r.keys.messageKey ∉ known → ∃ y, ∃ q ∈ ch.posted y, q.sealed.keys.messageKey = r.keys.messageKey ∧
    q.sealed.aad = r.aad ∧ q.sealed.plaintext = r.plaintext

/-- One call. The storage returns the last committed session, a key pair that is generated is new, and the envelope,
conversation, message id and sender of a `decrypt` are whatever the server says. -/
inductive Step (P : Primitives β) (known : Set (List β)) (codec : Side → RatchetMessageCodec β) (ch : Channel β) :
    Channel β → Prop
  | encrypt {x : Side} {peer : Contact} {conversation messageId sender : String} {payload : JsonMap}
    {fresh : X25519Seed β} {r : Sealed β} (key : peer.chhayaId.publicKey = (codec x.other).ownId)
    (new : ∀ y, P.x25519Public fresh.1 ∉ ch.publics y)
    (run : (codec x).encrypt P (ch.sessions x (sessionKey peer conversation)) peer conversation messageId sender payload
      fresh = .ok r) :
    Step P known codec ch (ch.post P x conversation messageId sender payload fresh.1 r)
  | decrypt {x : Side} {peer : Contact} {conversation messageId sender envelope : String} {fresh : X25519Seed β}
    {r : Opened β} (key : peer.chhayaId.publicKey = (codec x.other).ownId)
    (new : ∀ y, P.x25519Public fresh.1 ∉ ch.publics y)
    (run : (codec x).decrypt P (ch.sessions x (sessionKey peer conversation)) peer conversation messageId sender envelope
      fresh = .ok r) (authentic : ch.Authentic known r) :
    Step P known codec ch (ch.accept P x conversation messageId sender fresh.1 r)
  /-- The call throws, or its commit fails. -/
  | failed : Step P known codec ch ch

/-- The channels that calls lead to. -/
inductive Reachable (P : Primitives β) (known : Set (List β)) (codec : Side → RatchetMessageCodec β) : Channel β → Prop
  | start : Reachable P known codec (start P codec)
  | step {ch ch' : Channel β} (h : Reachable P known codec ch) (hs : Step P known codec ch ch') :
    Reachable P known codec ch'

/-- The session of `x` on a conversation: the stored one, or the one it would open. -/
def view (P : Primitives β) (codec : Side → RatchetMessageCodec β) (ch : Channel β) (conversation : String) (x : Side) :
    SessionState β :=
  (ch.sessions x (conversation ++ ":" ++ (codec x.other).ownId)).getD
    ((codec x).newSession P (codec x.other).ownId conversation)

end Channel

/-! ## The invariant -/

/-- A posted parcel is a message of a lane of its conversation. -/
structure Posted.Issued (P : Primitives β) (l : Side → Lane β) (x : Side) (q : Posted β) : Prop where
  header : q.sealed.header.toBytes = q.parcel.header
  aad : q.sealed.aad = RatchetMessageCodec.aad q.parcel.conversation q.parcel.messageId q.parcel.sender ++ q.parcel.header
  plaintext : ∃ m : JsonMap, m.fields = q.parcel.payload ∧ q.sealed.plaintext = utf8Encode (jsonEncode (.obj m.fields))
  chain : ∃ c ∈ (l x).sent, ∃ n, n < c.len ∧ HeaderOf q.sealed.header.dh c n ∧
    ∃ seed, q.sealed.keys = sealKeys P seed c.start n

/-- The message that the header bytes name was taken. -/
def Parcel.Taken (l : Lane β) (p : Parcel) : Prop :=
  ∃ h : TripleHeader, h.toBytes = p.header ∧ h.dh.messageNumber < 2 ^ 32 ∧ (h.dh.dhPublicKey, h.dh.messageNumber) ∈ l.taken

/-- The invariant of channels, with the lanes of every conversation. -/
structure ChannelInv (P : Primitives β) (known : Set (List β)) (codec : Side → RatchetMessageCodec β) (ch : Channel β)
    (l : String → Side → Lane β) : Prop where
  apart : Apart ch.publics
  pair : ∀ c, PairInv P (ch.view P codec c) (l c)
  traced : ∀ c, Traced P known ch.publics (ch.view P codec c) (l c)
  peerId : ∀ c x, (ch.view P codec c x).peerId = c ++ ":" ++ (codec x.other).ownId
  posted : ∀ x, ∀ q ∈ ch.posted x, q.Issued P (l q.parcel.conversation) x
  accepted : ∀ x, ∀ p ∈ ch.accepted x, p.Taken (l p.conversation x.other) ∧ ∃ q ∈ ch.posted x.other, q.parcel = p
  once : ∀ x, ((ch.accepted x).map Parcel.id).Nodup

/-! ## Sessions and conversations -/

section View

variable {ch : Channel β} {x : Side} {s : SessionState β} {conversation : String} {fresh : List β}

/-- A commit replaces the session of its conversation. -/
theorem Channel.view_commit (hid : s.peerId = conversation ++ ":" ++ (codec x.other).ownId) :
    (ch.commit P x s fresh).view P codec conversation = Function.update (ch.view P codec conversation) x s := by
  funext y
  rcases Side.eq_or_other x y with rfl | rfl
  · rw [Function.update_self, view, commit, ← hid]
    simp
  · rw [Function.update_of_ne (Side.other_ne x), view, commit]
    dsimp only
    rw [Function.update_of_ne (Side.other_ne x)]
    rfl

/-- The other conversations keep their sessions. -/
theorem Channel.view_commit_ne (hid : s.peerId = conversation ++ ":" ++ (codec x.other).ownId) {c : String}
    (hc : c ≠ conversation) : (ch.commit P x s fresh).view P codec c = ch.view P codec c := by
  have hne : c ++ ":" ++ (codec x.other).ownId ≠ s.peerId := by
    rw [hid]
    intro he
    have hl := congrArg String.toList he
    simp only [String.toList_append, List.append_assoc] at hl
    exact hc (String.toList_injective (List.append_cancel_right hl))
  funext y
  rcases Side.eq_or_other x y with rfl | rfl
  · rw [view, commit]
    simp only [Function.update_self, Function.update_of_ne hne]
    rfl
  · rw [view, commit]
    simp only [Function.update_of_ne (Side.other_ne x)]
    rfl

/-- A call works on the session of its conversation. -/
theorem Channel.view_state {peer : Contact} {f : X25519Seed β} (hk : peer.chhayaId.publicKey = (codec x.other).ownId)
    (h : (codec x).state P (ch.sessions x (sessionKey peer conversation)) peer conversation f = .ok s) :
    s = ch.view P codec conversation x := by
  rw [view, ← hk]
  obtain ⟨-, h1 | ⟨h1, -, -, h2⟩⟩ := RatchetMessageCodec.state_inv h
  · show s = (ch.sessions x (sessionKey peer conversation)).getD _
    rw [h1]; rfl
  · show s = (ch.sessions x (sessionKey peer conversation)).getD _
    rw [h1, h2]; rfl

end View

/-! ## One call -/

section Calls

variable {ch : Channel β} {l : String → Side → Lane β} {x : Side} {peer : Contact}
  {conversation messageId sender : String} {fresh : X25519Seed β}

/-- A posted parcel stays issued while chains grow. -/
theorem Posted.Issued.grow {m m' : Side → Lane β} {q : Posted β} (h : q.Issued P m x)
    (hg : ∀ d ∈ (m x).sent, ∃ d' ∈ (m' x).sent, d'.pub = d.pub ∧ d'.start = d.start ∧ d'.prev = d.prev ∧ d.len ≤ d'.len) :
    q.Issued P m' x := by
  obtain ⟨c, hc, n, hn, hh, seed, hk⟩ := h.chain
  obtain ⟨d, hd, h1, h2, h3, h4⟩ := hg c hc
  exact { h with chain := ⟨d, hd, n, Nat.lt_of_lt_of_le hn h4, ⟨hh.pub.trans h1.symm, hh.prev.trans h3.symm, hh.number⟩, seed,
    by rw [h2]; exact hk⟩ }

/-- Fresh keys keep the sides apart. -/
theorem Apart.cons {publics : Side → List Bytes} (h : Apart publics) {A : Bytes} (hA : ∀ y, A ∉ publics y) (x : Side) :
    Apart (Function.update publics x (A :: publics x)) := by
  intro y B hB
  rcases Side.eq_or_other x y with rfl | rfl
  · rw [Function.update_self] at hB
    rw [Function.update_of_ne (Side.other_ne y)]
    rcases List.mem_cons.mp hB with rfl | hB
    · exact hA _
    · exact h _ B hB
  · rw [Function.update_of_ne (Side.other_ne x)] at hB
    rw [Side.other_other, Function.update_self, List.mem_cons, not_or]
    refine ⟨fun he => hA _ (he ▸ hB), ?_⟩
    have := h _ B hB
    rwa [Side.other_other] at this

/-- Received chains stay as they are. -/
theorem Received.keeps {s : Side → SessionState β} {m m' : Side → Lane β} {c : Chain β} {n prev : Nat} {f : List β}
    {s' : SessionState β} (hi : PairInv P s m) (h : Received P s m x c n prev f s' m') :
    ∀ y, ∀ d ∈ (m y).sent, d ∈ (m' y).sent := by
  intro y d hd
  cases h with
  | take _ k _ _ _ =>
    rcases Side.eq_or_other x y with rfl | rfl
    · rw [Function.update_self]; exact hd
    · rw [Function.update_of_ne (Side.other_ne x)]; exact hd
  | ratchet hu =>
    rcases Side.eq_or_other x y with rfl | rfl
    · rw [ratchetLanes, Function.update_of_ne (Side.ne_other y), Function.update_self]
      exact (Lane.advance_sent hu prev).symm ▸ hd
    · rw [ratchetLanes, Function.update_self]
      exact ((m x.other).mem_open (hi.other_unseen hu)).mpr (Or.inr hd)

/-- What was taken stays taken, and the message received is taken now. -/
theorem Received.taken {s : Side → SessionState β} {m m' : Side → Lane β} {c : Chain β} {n prev : Nat} {f : List β}
    {s' : SessionState β} (h : Received P s m x c n prev f s' m') :
    (c.pub, n) ∈ (m' x).taken ∧ ∀ y, (m y).taken ⊆ (m' y).taken := by
  cases h with
  | take _ k _ _ _ =>
    refine ⟨by rw [Function.update_self]; exact Set.mem_insert _ _, fun y => ?_⟩
    rcases Side.eq_or_other x y with rfl | rfl
    · rw [Function.update_self]; exact Set.subset_insert _ _
    · rw [Function.update_of_ne (Side.other_ne x)]
  | ratchet hu =>
    have hx : ratchetLanes P s m x c n prev f x = ((m x).advance c prev).take c n (n + 1) := by
      rw [ratchetLanes, Function.update_of_ne (Side.ne_other x), Function.update_self]
    refine ⟨by rw [hx]; exact Set.mem_insert _ _, fun y => ?_⟩
    rcases Side.eq_or_other x y with rfl | rfl
    · rw [hx]
      exact (Set.subset_union_left).trans (Set.subset_insert _ _)
    · rw [ratchetLanes, Function.update_self]
      exact fun p hp => hp

theorem Received.peerId {s : Side → SessionState β} {m m' : Side → Lane β} {c : Chain β} {n prev : Nat} {f : List β}
    {s' : SessionState β} (h : Received P s m x c n prev f s' m') : s'.peerId = (s x.other).peerId := by
  cases h with
  | take _ _ _ _ hid => exact hid
  | ratchet _ => rfl

theorem Advanced.peerId {s : Side → SessionState β} {m m' : Side → Lane β} {f : List β} {s' : SessionState β}
    (h : Advanced P s m x f s' m') : s'.peerId = (s x).peerId := by
  cases h with
  | live _ _ hid => exact hid
  | first _ _ _ hid => exact hid

/-- A call has changed the session of `x` on one conversation, and the lanes of this conversation to `m`. -/
theorem ChannelInv.commit (h : ChannelInv P known codec ch l) {s : SessionState β} {m : Side → Lane β}
    (new : ∀ y, P.x25519Public fresh.1 ∉ ch.publics y) (hid : s.peerId = (ch.view P codec conversation x).peerId)
    (hp : PairInv P (Function.update (ch.view P codec conversation) x s) m)
    (ht : Traced P known (Function.update ch.publics x (P.x25519Public fresh.1 :: ch.publics x))
      (Function.update (ch.view P codec conversation) x s) m)
    (hg : ∀ y, ∀ d ∈ (l conversation y).sent, ∃ d' ∈ (m y).sent,
      d'.pub = d.pub ∧ d'.start = d.start ∧ d'.prev = d.prev ∧ d.len ≤ d'.len)
    (htk : ∀ y, (l conversation y).taken ⊆ (m y).taken) :
    ChannelInv P known codec (ch.commit P x s fresh.1) (Function.update l conversation m) := by
  have hid' := hid.trans (h.peerId conversation x)
  refine ⟨h.apart.cons new x, fun c => ?_, fun c => ?_, fun c y => ?_, fun y q hq => ?_, fun y p hp => ?_, h.once⟩
  · by_cases hc : c = conversation
    · subst hc; rw [Channel.view_commit hid', Function.update_self]; exact hp
    · rw [Channel.view_commit_ne hid' hc, Function.update_of_ne hc]; exact h.pair c
  · by_cases hc : c = conversation
    · subst hc; rw [Channel.view_commit hid', Function.update_self]; exact ht
    · rw [Channel.view_commit_ne hid' hc, Function.update_of_ne hc]
      exact (h.traced c).mono (mem_update_cons ch.publics x _)
  · by_cases hc : c = conversation
    · subst hc
      rw [Channel.view_commit hid']
      rcases Side.eq_or_other x y with rfl | rfl
      · rw [Function.update_self]; exact hid'
      · rw [Function.update_of_ne (Side.other_ne x)]; exact h.peerId _ _
    · rw [Channel.view_commit_ne hid' hc]; exact h.peerId c y
  · have hi := h.posted y q hq
    by_cases hc : q.parcel.conversation = conversation
    · rw [hc] at hi ⊢
      rw [Function.update_self]
      exact hi.grow (hg y)
    · rw [Function.update_of_ne hc]; exact hi
  · obtain ⟨⟨hd, h1, h2, h3⟩, hq⟩ := h.accepted y p hp
    refine ⟨⟨hd, h1, h2, ?_⟩, hq⟩
    by_cases hc : p.conversation = conversation
    · rw [hc] at h3 ⊢
      rw [Function.update_self]
      exact htk _ h3
    · rw [Function.update_of_ne hc]; exact h3

/-- A committed `encrypt` keeps the invariant. -/
theorem ChannelInv.encrypt (hw : OneWay P known) (h : ChannelInv P known codec ch l) {payload : JsonMap} {r : Sealed β}
    (hk : peer.chhayaId.publicKey = (codec x.other).ownId) (new : ∀ y, P.x25519Public fresh.1 ∉ ch.publics y)
    (hrun : (codec x).encrypt P (ch.sessions x (sessionKey peer conversation)) peer conversation messageId sender payload
      fresh = .ok r) :
    ∃ l', ChannelInv P known codec (ch.post P x conversation messageId sender payload fresh.1 r) l' := by
  obtain ⟨s, hs, hr, haad, hplain, -⟩ := RatchetMessageCodec.encrypt_inv hrun
  obtain rfl := Channel.view_state hk hs
  have hnew : P.x25519Public fresh.1 ∉ (l conversation x).sent.map Chain.pub := fun hm => by
    obtain ⟨c, hc, he⟩ := List.mem_map.mp hm
    exact new x (he ▸ (h.traced conversation).pub x c hc)
  obtain ⟨m, c, n, hp, hsent, hg, ha⟩ := (h.pair conversation).encrypt_keeps hnew hr
  have ht := (h.traced conversation).encrypt hw (h.pair conversation) (new x) ha
  have hcom := h.commit new ha.peerId hp ht hg.keeps (fun y => (hsent.taken y).symm ▸ Set.Subset.rfl)
  refine ⟨_, { hcom with posted := fun y q hq => ?_, accepted := fun y p hp => ?_ }⟩
  · rcases Side.eq_or_other x y with rfl | rfl
    · simp only [Channel.post, Function.update_self] at hq
      rcases List.mem_cons.mp hq with rfl | hq
      · refine ⟨rfl, haad, ⟨payload, rfl, hplain⟩, c, ?_, n, hsent.opened.lt, hsent.header, _, hsent.keys⟩
        rw [Function.update_self]
        exact hsent.opened.mem
      · exact hcom.posted y q hq
    · simp only [Channel.post, Function.update_of_ne (Side.other_ne x)] at hq
      exact hcom.posted _ q hq
  · obtain ⟨htk, q, hq, he⟩ := hcom.accepted y p hp
    refine ⟨htk, q, ?_, he⟩
    rcases Side.eq_or_other x y.other with hy | hy
    · rw [hy] at hq ⊢
      simp only [Channel.post, Function.update_self]
      exact List.mem_cons_of_mem _ hq
    · rw [hy] at hq ⊢
      simp only [Channel.post, Function.update_of_ne (Side.other_ne x)]
      exact hq

/-- The parcel that an authentic envelope carries is an untaken one of the peer. -/
theorem ChannelInv.authentic (hc : CollisionFree P) (hw : OneWay P known) (h : ChannelInv P known codec ch l)
    {s : SessionState β} {r : Opened β} {headerBytes : Bytes}
    (hs : s = ch.view P codec conversation x.other) (hh : TripleHeader.fromBytes headerBytes = .ok r.header)
    (hr : (TripleRatchet.decrypt P fresh r.header).run s = .ok r.keys r.state)
    (haad : r.aad = RatchetMessageCodec.aad conversation messageId sender ++ headerBytes)
    (hd : decodeMap r.plaintext = .ok r.payload) (ha : ch.Authentic known r) :
    (∃ k, (DoubleRatchet.decrypt P fresh r.header.dh).run s = .ok k r.state) ∧
      (∃ q ∈ ch.posted x, q.parcel = ⟨conversation, messageId, sender, r.header.toBytes, r.payload⟩) ∧
      ∃ c, (l conversation x).Open c r.header.dh.messageNumber ∧ r.header.dh.dhPublicKey = c.pub ∧
        r.header.dh.prevChainLength ≤ c.prev := by
  subst hs
  have hpair := h.pair conversation
  obtain ⟨hb, hprev, hnum⟩ := TripleHeader.toBytes_fromBytes hh
  obtain ⟨k, hk, hkeys⟩ := TripleRatchet.decrypt_inv (hpair.ok x.other) (hpair.rx x).recv hr
  have hsec : r.keys.messageKey ∉ known :=
    hkeys ▸ combined_secret hw ((h.traced conversation).messageKey_secret hw hpair hk) _ _
  obtain ⟨y, q, hq, hqk, hqa, hqp⟩ := ha hsec
  obtain ⟨hqh, hqaad, ⟨m, hm, hqplain⟩, c, hcm, n, hn, hhead, seed, hseal⟩ := h.posted y q hq
  -- the associated data fixes conversation, id, sender and header
  rw [hqaad, haad] at hqa
  obtain ⟨h1, h2⟩ := List.append_inj' hqa (by rw [← hqh, ← hb]; simp)
  obtain ⟨hconv, hid, hsender⟩ := aad_inj h1
  rw [hconv] at hcm
  have hbytes : r.header.toBytes = q.sealed.header.toBytes := by rw [hb, hqh, h2]
  obtain ⟨hpub, hp, hnn, he⟩ := TripleHeader.toBytes_inj hbytes
  have hlen := (hpair.tx y).len_le c hcm
  have hnum' : r.header.dh.messageNumber = n := by
    rw [hhead.number] at hnn
    exact u32be_injective hnum (by omega) hnn
  have hprev' : r.header.dh.prevChainLength ≤ c.prev := by
    rw [hhead.prev] at hp
    exact u32be_le hprev hp
  -- the key fixes the chain
  have hkey : k.messageKey = (chainKeys P c.start n).messageKey := by
    rw [hkeys, hseal] at hqk
    have hep := r.header.spqrEpoch_le
    exact (combined_inj hc (by rw [k.messageKey_length, (chainKeys P c.start n).messageKey_length]) (by omega) hnum
      (by omega) (by omega) hqk).1.symm
  obtain ⟨rfl, hopen⟩ := (h.traced conversation).open_of_messageKey hc hpair h.apart hcm hn (hpub.trans hhead.pub) hnum'
    hk hkey
  refine ⟨⟨k, hk⟩, ⟨q, hq, ?_⟩, c, hnum' ▸ hopen, hpub.trans hhead.pub, hprev'⟩
  have hpay : q.parcel.payload = r.payload := by
    rw [← hqp, hqplain, decodeMap_jsonEncode] at hd
    rw [← hm]
    exact Except.ok.inj hd
  rw [← hpay, hbytes, hqh, ← hconv, ← hid, ← hsender]

/-- A committed `decrypt` of an authentic envelope keeps the invariant. -/
theorem ChannelInv.decrypt (hc : CollisionFree P) (hw : OneWay P known) (h : ChannelInv P known codec ch l)
    {envelope : String} {r : Opened β} (hk : peer.chhayaId.publicKey = (codec x.other).ownId)
    (new : ∀ y, P.x25519Public fresh.1 ∉ ch.publics y)
    (hrun : (codec x).decrypt P (ch.sessions x (sessionKey peer conversation)) peer conversation messageId sender envelope
      fresh = .ok r) (ha : ch.Authentic known r) :
    ∃ l', ChannelInv P known codec (ch.accept P x conversation messageId sender fresh.1 r) l' := by
  obtain ⟨z, rfl⟩ : ∃ z : Side, x = z.other := ⟨x.other, (Side.other_other x).symm⟩
  obtain ⟨-, headerBytes, s, -, -, hs, hh, hr, haad, -, hd⟩ := RatchetMessageCodec.decrypt_inv hrun
  have hview := Channel.view_state hk hs
  obtain ⟨⟨k, hk'⟩, ⟨q, hq, hparcel⟩, c, hopen, hpub, hprev⟩ := h.authentic hc hw hview hh hr haad hd ha
  subst hview
  have hnum := (TripleHeader.toBytes_fromBytes hh).2.2
  have hnew : P.x25519Public fresh.1 ∉ (l conversation z.other).sent.map Chain.pub := fun hm => by
    obtain ⟨d, hd', he⟩ := List.mem_map.mp hm
    exact new z.other (he ▸ (h.traced conversation).pub z.other d hd')
  obtain ⟨-, m, hp, hrec⟩ := (h.pair conversation).decrypt_received hopen hpub hprev rfl hnew hk'
  have ht := (h.traced conversation).received hw (h.pair conversation) (new z.other) hrec
  have hcom := h.commit new hrec.peerId hp ht
    (fun y d hd' => ⟨d, hrec.keeps (h.pair conversation) y d hd', rfl, rfl, rfl, Nat.le_refl _⟩) hrec.taken.2
  refine ⟨_, { hcom with accepted := fun y p hp' => ?_, once := fun y => ?_ }⟩
  · rcases Side.eq_or_other z.other y with rfl | rfl
    · simp only [Channel.accept, Function.update_self] at hp'
      rcases List.mem_cons.mp hp' with rfl | hp'
      · rw [Side.other_other]
        refine ⟨⟨r.header, rfl, hnum, ?_⟩, q, hq, hparcel⟩
        rw [Function.update_self, hpub]
        exact hrec.taken.1
      · exact hcom.accepted z.other p hp'
    · simp only [Channel.accept, Function.update_of_ne (Side.other_ne z.other)] at hp'
      exact hcom.accepted _ p hp'
  · rcases Side.eq_or_other z.other y with rfl | rfl
    · simp only [Channel.accept, Function.update_self, List.map_cons]
      refine List.nodup_cons.mpr ⟨fun hm => ?_, h.once z.other⟩
      -- the same header was accepted before: then its message is taken
      obtain ⟨p, hp, he⟩ := List.mem_map.mp hm
      obtain ⟨hconv, hhead⟩ := Prod.mk.inj he
      obtain ⟨⟨hd', h1, h2, h3⟩, -⟩ := h.accepted z.other p hp
      obtain ⟨h4, -, h5, -⟩ := TripleHeader.toBytes_inj (h1.trans hhead)
      rw [Side.other_other, hconv, h4, u32be_injective h2 hnum h5, hpub] at h3
      exact hopen.untaken h3
    · simp only [Channel.accept, Function.update_of_ne (Side.other_ne z.other)]
      exact h.once _

end Calls

/-! ## Runs -/

section Runs

variable {ch : Channel β}

/-- The secret of a conversation of the two accounts. -/
def conversationSecret (P : Primitives β) (codec : Side → RatchetMessageCodec β) (conversation : String) : List β :=
  (codec .initiator).directSecret P (codec .responder).ownId conversation

/-- Without sessions, the two sides would open them with opposite roles, one shared secret and each other's keys. -/
theorem Channel.view_start (hp : Parties P known codec) (conversation : String) :
    (start P codec).view P codec conversation =
      bySide
        (openedSession P (conversation ++ ":" ++ (codec .responder).ownId) true (conversationSecret P codec conversation)
          (P.x25519Public (codec .responder).identity.privateKey) (codec .initiator).identity.privateKey)
        (openedSession P (conversation ++ ":" ++ (codec .initiator).ownId) false (conversationSecret P codec conversation)
          (P.x25519Public (codec .initiator).identity.privateKey) (codec .responder).identity.privateKey) := by
  have hparse : ∀ x, parseIdentity (codec x).ownId = P.x25519Public (codec x).identity.privateKey := fun x => by
    rw [hp.ownId x, parseIdentity_identityOf]
  funext x
  cases x with
  | initiator =>
    show (codec .initiator).newSession P (codec .responder).ownId conversation = _
    rw [RatchetMessageCodec.newSession, decide_eq_true hp.ordered, hparse]
    rfl
  | responder =>
    have hsecret : (codec .responder).directSecret P (codec .initiator).ownId conversation =
        conversationSecret P codec conversation := by
      rw [conversationSecret, RatchetMessageCodec.directSecret, RatchetMessageCodec.directSecret, hparse, hparse,
        P.x25519_comm]
    show (codec .responder).newSession P (codec .initiator).ownId conversation = _
    rw [RatchetMessageCodec.newSession, decide_eq_false (lt_asymm hp.ordered), hparse, hsecret]
    rfl

/-- The attacker does not have the secret: it would have one of the identity keys. -/
theorem conversationSecret_secret (hw : OneWay P known) (hp : Parties P known codec) (conversation : String) :
    conversationSecret P codec conversation ∉ known := by
  intro hm
  rw [conversationSecret, RatchetMessageCodec.directSecret, hkdf_eq_block] at hm
  obtain ⟨k, hk, h⟩ := hw.dh (hw.hkdf (by decide) hm)
  rw [hp.ownId .responder, parseIdentity_identityOf] at h
  exact h.elim (hp.honest .initiator k hk) (hp.honest .responder k hk)

/-- The invariant holds at the start. -/
theorem ChannelInv.start (hw : OneWay P known) (hp : Parties P known codec) :
    ∃ l, ChannelInv P known codec (Channel.start P codec) l := by
  have hne : P.x25519Public (codec .initiator).identity.privateKey ≠
      P.x25519Public (codec .responder).identity.privateKey := fun he => by
    have := hp.ordered
    rw [hp.ownId .initiator, hp.ownId .responder, he] at this
    exact lt_irrefl _ this
  have hown : ∀ x, P.x25519Public (codec x).identity.privateKey ∈ (Channel.start P codec).publics x :=
    fun x => List.mem_singleton_self _
  refine ⟨fun c => initialLanes P (conversationSecret P codec c) (P.x25519 (codec .initiator).identity.privateKey
    (P.x25519Public (codec .responder).identity.privateKey)) ((Channel.start P codec).view P codec c),
    fun x A hA hA' => ?_, fun c => ?_, fun c => ?_, fun c x => ?_, fun x q hq => (List.not_mem_nil hq).elim,
    fun x p hq => (List.not_mem_nil hq).elim, fun x => List.nodup_nil⟩
  · obtain rfl := List.mem_singleton.mp hA
    cases x with
    | initiator => exact hne (List.mem_singleton.mp hA')
    | responder => exact hne (List.mem_singleton.mp hA').symm
  · rw [Channel.view_start hp]
    exact PairInv.opened _ _ _ (hp.key_length .initiator) (hp.key_length .responder)
  · rw [Channel.view_start hp]
    exact Traced.ofNew hw _ _ (conversationSecret_secret hw hp c) _ _ (hown .initiator) (hown .responder)
  · rw [Channel.view_start hp]
    cases x <;> rfl

/-- Every run keeps the invariant. -/
theorem reachable_channelInv (hc : CollisionFree P) (hw : OneWay P known) (hp : Parties P known codec)
    (h : Channel.Reachable P known codec ch) : ∃ l, ChannelInv P known codec ch l := by
  induction h with
  | start => exact ChannelInv.start hw hp
  | step _ hs ih =>
    obtain ⟨l, h⟩ := ih
    cases hs with
    | encrypt key new run => exact h.encrypt hw key new run
    | decrypt key new run authentic => exact h.decrypt hc hw key new run authentic
    | failed => exact ⟨l, h⟩

/-- Whatever the server does, what an account accepts under a conversation, message id and sender was posted by its peer
with these and this payload, and no encrypted message is accepted twice. -/
theorem channel_integrity (hc : CollisionFree P) (hw : OneWay P known) (hp : Parties P known codec)
    (h : Channel.Reachable P known codec ch) (x : Side) :
    (∀ p ∈ ch.accepted x, ∃ q ∈ ch.posted x.other, q.parcel = p) ∧ ((ch.accepted x).map Parcel.id).Nodup := by
  obtain ⟨l, h⟩ := reachable_channelInv hc hw hp h
  exact ⟨fun p hm => (h.accepted x p hm).2, h.once x⟩

end Runs

/-! ## A message over symbolic keys -/

/-- Two accounts of symbolic keys that the attacker lacks. -/
def octetParties : Side → RatchetMessageCodec SymByte := bySide (octetCodec 1) (octetCodec 2)

theorem octetParties_parties : Parties symbolic derivable octetParties where
  key_length x := by cases x <;> exact List.length_replicate
  ownId x := by cases x <;> rfl
  ordered := by decide
  honest x k hk := by
    cases x with
    | initiator => exact publicOf_derivable hk (by decide) (by decide)
    | responder => exact publicOf_derivable hk (by decide) (by decide)

/-- The first message of the initiator is sent and decrypted. -/
theorem first_message (messageId sender : String) (payload : JsonMap) (f f' : X25519Seed SymByte) :
    ∃ r o, (octetCodec 1).encrypt symbolic none (octetContact 2) "conversation" messageId sender payload f = .ok r ∧
      (octetCodec 2).decrypt symbolic none (octetContact 1) "conversation" messageId sender r.envelope f' = .ok o ∧
      o.keys = r.keys ∧ o.aad = r.aad ∧ o.plaintext = r.plaintext := by
  have hv := Channel.view_start octetParties_parties "conversation"
  set secret := conversationSecret symbolic octetParties "conversation"
  have hi := (octetCodec_state 1 2 "conversation" f).trans (congrArg Except.ok (congrFun hv .initiator))
  have hr := (octetCodec_state 2 1 "conversation" f').trans (congrArg Except.ok (congrFun hv .responder))
  have hpair := PairInv.opened (P := symbolic) ("conversation:" ++ (octetCodec 2).ownId)
    ("conversation:" ++ (octetCodec 1).ownId) secret (octetSeed 1).2 (octetSeed 2).2
  have hat : SendAt symbolic (openedSession symbolic ("conversation:" ++ (octetCodec 2).ownId) true secret
      (symbolic.x25519Public (octetSeed 2).1) (octetSeed 1).1)
      (chainA symbolic secret (symbolic.x25519 (octetSeed 1).1 (symbolic.x25519Public (octetSeed 2).1))) 0 0 :=
    ⟨length_chainA _ _ _, rfl, rfl, rfl⟩
  have hsend := TripleRatchet.encrypt_run f rfl hat (hpair.ok .initiator) (Nat.zero_le _)
  have henc := RatchetMessageCodec.encrypt_ok messageId sender payload hi hsend
  have hrecv := DoubleRatchet.decrypt_current f' (h := ⟨symbolic.x25519Public (octetSeed 1).1, 0, 0,
    symbolic.length_x25519Public _⟩) (AList.lookup_empty _) rfl (hpair.rx .initiator).recv (Nat.le_refl _)
    (by decide) (by decide) (by decide)
  have hdec := TripleRatchet.decrypt_run (h := ⟨⟨symbolic.x25519Public (octetSeed 1).1, 0, 0,
    symbolic.length_x25519Public _⟩, 0, by decide⟩) (symbolic.length_hkdf _ _ _ _) hrecv
  refine ⟨_, _, henc, RatchetMessageCodec.decrypt_envelope hr (TripleHeader.fromBytes_toBytes (Nat.two_pow_pos 32) (Nat.two_pow_pos 32))
    hdec (AesGcm.decryptBytes_encryptBytes symbolic (AesGcm.encryptBytes_ok symbolic
    (MessageKeyBundle.messageKey_length _) (MessageKeyBundle.nonce_length _) _ _)) (decodeMap_jsonEncode payload),
    rfl, rfl, rfl⟩
/-- One message, posted and accepted. -/
theorem channel_integrity_first : ∃ ch : Channel SymByte, Channel.Reachable symbolic derivable octetParties ch ∧
    ch.accepted .responder ≠ [] ∧ (∀ p ∈ ch.accepted .responder, ∃ q ∈ ch.posted .initiator, q.parcel = p) ∧
    ((ch.accepted .responder).map Parcel.id).Nodup := by
  obtain ⟨r, o, henc, hdec, hkeys, haad, hplain⟩ :=
    first_message "message" "sender" (textPayload "hello") (octetSeed 3) (octetSeed 4)
  have hk2 : (octetContact 2).chhayaId.publicKey = (octetParties .responder).ownId := rfl
  have hk1 : (octetContact 1).chhayaId.publicKey = (octetParties .initiator).ownId := rfl
  have h1 : Channel.Reachable symbolic derivable octetParties _ :=
    .step .start (.encrypt (x := .initiator) hk2 (fun y => by cases y <;> decide) henc)
  have hnew : ∀ y, symbolic.x25519Public (octetSeed 4).1 ∉ (Channel.post symbolic (Channel.start symbolic octetParties)
      .initiator "conversation" "message" "sender" (textPayload "hello") (octetSeed 3).1 r).publics y := fun y => by
    cases y with
    | initiator =>
      show symbolic.x25519Public (octetSeed 4).1 ∉ [symbolic.x25519Public (octetSeed 3).1, (octetCodec 1).identity.publicKey]
      decide
    | responder =>
      show symbolic.x25519Public (octetSeed 4).1 ∉ [(octetCodec 2).identity.publicKey]
      decide
  have h2 := h1.step (.decrypt (x := .responder) hk1 hnew hdec
    fun _ => ⟨.initiator, _, List.mem_cons_self, by rw [hkeys], haad.symm, hplain.symm⟩)
  refine ⟨_, h2, List.cons_ne_nil _ _, ?_⟩
  exact channel_integrity symbolic_collisionFree symbolic_oneWay octetParties_parties h2 .responder

end Chhaya
