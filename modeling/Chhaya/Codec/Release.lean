import Chhaya.Codec.MessageCodec
import Chhaya.Ratchet.Separation

/-!
# No key and nonce twice

An `Account` is what one install knows over its life: the stored sessions, the envelopes it released and the public keys
it has had or seen. A call of the codec may find no session at any time (a blob that does not decrypt, a new database
after a restore), its commit may fail, and decrypts of anything the server sends come in between.

Key and nonce are functions of the session, and a lost session is opened again from the identity keys. A responder's
first send draws a new key pair, an initiator's does not: its first chain starts again at the first message.
`Call.Fresh` says that this does not happen.

- `AccountInv.encrypt`, `AccountInv.decrypt`: a committed call keeps the invariant.
- `release_no_reuse`: where every call is fresh, no two envelopes are sealed under one key and nonce.
- `release_reuse`: without that, two payloads are.
-/

namespace Chhaya

variable {β : Type}

/-! ## Accounts -/

/-- An envelope that `encrypt` returned: the session it belongs to, its header, its keys and its payload. -/
structure Release (β : Type) where
  key : String
  header : TripleHeader
  keys : MessageKeyBundle β
  payload : JsonFields

/-- Session, chain and number of a release. -/
def Release.id (r : Release β) : String × Bytes × Nat :=
  (r.key, r.header.dh.dhPublicKey, r.header.dh.messageNumber)

/-- The stored sessions, what was released, and the public keys had or seen. -/
structure Account (β : Type) where
  sessions : String → Option (SessionState β)
  released : List (Release β)
  publics : List Bytes

/-- A call of the codec with what `loadSession` returned. -/
inductive Call (β : Type)
  | encrypt (saved : Option (SessionState β)) (peer : Contact) (conversation messageId sender : String)
    (payload : JsonMap) (fresh : X25519Seed β)
  | decrypt (saved : Option (SessionState β)) (peer : Contact) (conversation messageId sender envelope : String)
    (fresh : X25519Seed β)

namespace Account

/-- An install with no session. -/
def start (P : Primitives β) (codec : RatchetMessageCodec β) : Account β where
  sessions _ := none
  released := []
  publics := [P.x25519Public codec.identity.privateKey]

/-- A session is saved under its own `peerId`. -/
def commit (a : Account β) (s : SessionState β) : Account β :=
  { a with
    sessions := Function.update a.sessions s.peerId (some s)
    publics := s.ourPublicKey :: s.remotePublicKey :: a.publics }

/-- The envelope of `r` is returned. -/
def release (a : Account β) (key : String) (r : Sealed β) (payload : JsonMap) : Account β :=
  { a.commit r.state with released := ⟨key, r.header, r.keys, payload.fields⟩ :: a.released }

/-- The storage returns the session as it was last committed, or null. A key pair that is generated is new. -/
structure Loads (P : Primitives β) (a : Account β) (saved : Option (SessionState β)) (key : String)
    (fresh : X25519Seed β) : Prop where
  saved : saved = none ∨ saved = a.sessions key
  fresh : P.x25519Public fresh.1 ∉ a.publics

/-- One call: it returns and commits, or it throws somewhere and nothing changes. -/
inductive Step (P : Primitives β) (codec : RatchetMessageCodec β) (a : Account β) : Call β → Account β → Prop
  | encrypt {saved : Option (SessionState β)} {peer : Contact} {conversation messageId sender : String}
    {payload : JsonMap} {fresh : X25519Seed β} {r : Sealed β} (loads : Loads P a saved (sessionKey peer conversation) fresh)
    (run : codec.encrypt P saved peer conversation messageId sender payload fresh = .ok r) :
    Step P codec a (.encrypt saved peer conversation messageId sender payload fresh)
      (a.release (sessionKey peer conversation) r payload)
  | decrypt {saved : Option (SessionState β)} {peer : Contact} {conversation messageId sender envelope : String}
    {fresh : X25519Seed β} {r : Opened β} (loads : Loads P a saved (sessionKey peer conversation) fresh)
    (run : codec.decrypt P saved peer conversation messageId sender envelope fresh = .ok r) :
    Step P codec a (.decrypt saved peer conversation messageId sender envelope fresh) (a.commit r.state)
  | failed (c : Call β) : Step P codec a c a

/-- The accounts that calls which satisfy `ok` lead to. -/
inductive Reachable (P : Primitives β) (codec : RatchetMessageCodec β) (ok : Account β → Call β → Prop) :
    Account β → Prop
  | start : Reachable P codec ok (start P codec)
  | step {a a' : Account β} {c : Call β} (h : Reachable P codec ok a) (hc : ok a c) (hs : Step P codec a c a') :
    Reachable P codec ok a'

/-- No two envelopes with different payloads are sealed under one key and nonce. -/
def NoReuse (a : Account β) : Prop :=
  a.released.Pairwise fun r r' => r.payload ≠ r'.payload →
    ¬(r.keys.messageKey = r'.keys.messageKey ∧ r.keys.nonce = r'.keys.nonce)

/-- Nothing was released on the first chain of the session. -/
def Unused (P : Primitives β) (codec : RatchetMessageCodec β) (a : Account β) (key : String) : Prop :=
  ∀ r ∈ a.released, r.key = key → r.header.dh.dhPublicKey ≠ P.x25519Public codec.identity.privateKey

end Account

/-- When the initiator finds no session, nothing was released on the first chain yet, or the envelope to decrypt is of a
chain of the peer other than its first, so that the session ratchets at once. -/
def Call.Fresh (P : Primitives β) (codec : RatchetMessageCodec β) (a : Account β) : Call β → Prop
  | .encrypt saved peer conversation _ _ _ _ =>
    saved = none → codec.ownId < peer.chhayaId.publicKey → a.Unused P codec (sessionKey peer conversation)
  | .decrypt saved peer conversation _ _ envelope _ =>
    saved = none → codec.ownId < peer.chhayaId.publicKey → a.Unused P codec (sessionKey peer conversation) ∨
      ∀ wire header, RatchetMessageCodec.wireOf envelope = .ok (wire, header) →
        header.take 32 ≠ parseIdentity peer.chhayaId.publicKey

/-! ## The invariant -/

/-- The first chain of the session with `peer` on `conversation`. -/
def RatchetMessageCodec.firstChain (P : Primitives β) (codec : RatchetMessageCodec β) (peer : Contact)
    (conversation : String) : List β :=
  chainA P (codec.directSecret P peer.chhayaId.publicKey conversation)
    (P.x25519 codec.identity.privateKey (parseIdentity peer.chhayaId.publicKey))

/-- A sending chain the account has used: its session, the public key in its headers and its first key. -/
structure Used (β : Type) where
  key : String
  pub : Bytes
  start : List β

/-- How a chain came about: with the session, or by a DH ratchet with a key pair generated for it. -/
inductive Used.Origin (P : Primitives β) (codec : RatchetMessageCodec β) (publics : List Bytes) : Used β → Prop
  | first (peer : Contact) (conversation : String) (id : isIdentity peer.chhayaId.publicKey = true) :
    Origin P codec publics ⟨sessionKey peer conversation, P.x25519Public codec.identity.privateKey,
      codec.firstChain P peer conversation⟩
  | ratchet (key : String) (root f : List β) (R : Bytes) (pub : P.x25519Public f ∈ publics) (remote : R ∈ publics) :
    Origin P codec publics ⟨key, P.x25519Public f, kdfChain P root (P.x25519 f R)⟩

/-- The release `r` is a message of the chain `u`. -/
structure Used.Seals (P : Primitives β) (u : Used β) (r : Release β) : Prop where
  key : u.key = r.key
  pub : u.pub = r.header.dh.dhPublicKey
  number_le : r.header.dh.messageNumber ≤ 0xFFFFFFFF
  keys : ∃ seed, r.keys = sealKeys P seed u.start r.header.dh.messageNumber

/-- What holds of every session, whatever it sends on. -/
structure Sound (P : Primitives β) (s : SessionState β) : Prop where
  ok : s.Ok P
  recv : ∃ start n, RecvAt P s start n
  counter : ∃ n : Nat, s.sendCounter = n
  idle : s.sendInitialized = false → s.sendCounter = 0

/-- The session sends on the chain `u`, past what was released on it. -/
def SendsOn (P : Primitives β) (released : List (Release β)) (s : SessionState β) (u : Used β) : Prop :=
  u.pub = s.ourPublicKey ∧ ∃ n p, SendAt P s u.start n p ∧
    ∀ r ∈ released, r.key = u.key → r.header.dh.dhPublicKey = u.pub → r.header.dh.messageNumber < n

/-- The invariant of accounts, with the chains used so far. -/
structure AccountInv (P : Primitives β) (codec : RatchetMessageCodec β) (a : Account β) (us : List (Used β)) : Prop where
  own : P.x25519Public codec.identity.privateKey ∈ a.publics
  starts : (us.map Used.start).Nodup
  origin : ∀ u ∈ us, u.Origin P codec a.publics
  released : ∀ r ∈ a.released, ∃ u ∈ us, u.Seals P r
  distinct : (a.released.map Release.id).Nodup
  peerId : ∀ k s, a.sessions k = some s → s.peerId = k
  sound : ∀ k s, a.sessions k = some s → Sound P s
  live : ∀ k s, a.sessions k = some s → s.sendInitialized = true → ∃ u ∈ us, u.key = k ∧ SendsOn P a.released s u

section Chains

variable {P : Primitives β} {codec : RatchetMessageCodec β} {publics : List Bytes} {u : Used β}

theorem Used.Origin.mono {publics' : List Bytes} (h : u.Origin P codec publics) (hp : ∀ A ∈ publics, A ∈ publics') :
    u.Origin P codec publics' := by
  cases h with
  | first peer conversation id => exact .first peer conversation id
  | ratchet key root f R pub remote => exact .ratchet key root f R (hp _ pub) (hp _ remote)

theorem Used.Origin.pub_mem (h : u.Origin P codec publics)
    (own : P.x25519Public codec.identity.privateKey ∈ publics) : u.pub ∈ publics := by
  cases h with
  | first peer conversation id => exact own
  | ratchet key root f R pub remote => exact pub

theorem Used.Origin.length_start (h : u.Origin P codec publics) : u.start.length = 32 := by
  cases h with
  | first peer conversation id => exact length_chainA _ _ _
  | ratchet key root f R pub remote => exact length_kdfChain _ _ _

/-- A chain made with a new key pair is none of those before it: the new public key was not seen by then. -/
theorem Used.Origin.ne_ratchet (hc : CollisionFree P) (h : u.Origin P codec publics) {f : List β}
    (hf : P.x25519Public f ∉ publics) (root : List β) (R : Bytes) : u.start ≠ kdfChain P root (P.x25519 f R) := by
  cases h with
  | first peer conversation id => exact chainA_ne_kdfChain hc
  | ratchet key root' f' R' pub remote =>
    intro he
    rcases kdfChain_dh_inj hc he with ⟨h1, -⟩ | ⟨h1, -⟩
    · exact hf (h1 ▸ pub)
    · exact hf (h1 ▸ remote)

/-- Only the first chain of the same session starts like a first chain. -/
theorem Used.Origin.first_inj (hc : CollisionFree P) (h : u.Origin P codec publics) {peer : Contact}
    {conversation : String} (hid : isIdentity peer.chhayaId.publicKey = true)
    (he : u.start = codec.firstChain P peer conversation) :
    u.key = sessionKey peer conversation ∧ u.pub = P.x25519Public codec.identity.privateKey := by
  cases h with
  | ratchet key root f R pub remote => exact absurd he.symm (chainA_ne_kdfChain hc)
  | first peer' conversation' hid' =>
    have h1 := chainA_inj hc he
    simp only [RatchetMessageCodec.directSecret, hkdf_eq_block] at h1
    obtain ⟨h2, -, h3, -⟩ := hc.hkdf (by decide) (by decide) h1
    have h4 : parseIdentity peer'.chhayaId.publicKey = parseIdentity peer.chhayaId.publicKey := by
      rcases hc.dh h2 with ⟨-, h⟩ | ⟨h, h'⟩
      · exact h
      · rw [h, h']
    refine ⟨?_, rfl⟩
    rw [sessionKey, sessionKey, directInfo_injective h3, parseIdentity_inj hid' hid h4]

end Chains

/-! ## Commits -/

section Commits

variable {P : Primitives β} {codec : RatchetMessageCodec β} {a : Account β} {us : List (Used β)}

theorem AccountInv.publics (h : AccountInv P codec a us) {p : List Bytes} (hp : ∀ A ∈ a.publics, A ∈ p) :
    AccountInv P codec { a with publics := p } us :=
  { h with own := hp _ h.own, origin := fun u hu => (h.origin u hu).mono hp }

/-- The public key of a chain in use was seen before. -/
theorem AccountInv.released_mem (h : AccountInv P codec a us) {r : Release β} (hr : r ∈ a.released) :
    r.header.dh.dhPublicKey ∈ a.publics := by
  obtain ⟨u, hu, hs⟩ := h.released r hr
  exact hs.pub ▸ (h.origin u hu).pub_mem h.own

/-- A chain made with a new key pair is added. -/
theorem AccountInv.newChain (hc : CollisionFree P) (h : AccountInv P codec a us) (key : String) (root : List β)
    {f : List β} (hf : P.x25519Public f ∉ a.publics) (R : Bytes) :
    AccountInv P codec { a with publics := P.x25519Public f :: R :: a.publics }
      (⟨key, P.x25519Public f, kdfChain P root (P.x25519 f R)⟩ :: us) where
  own := List.mem_cons_of_mem _ (List.mem_cons_of_mem _ h.own)
  starts := by
    rw [List.map_cons, List.nodup_cons]
    refine ⟨fun hm => ?_, h.starts⟩
    obtain ⟨u, hu, he⟩ := List.mem_map.mp hm
    exact (h.origin u hu).ne_ratchet hc hf root R he
  origin u hu := by
    rcases List.mem_cons.mp hu with rfl | hu
    · exact .ratchet key root f R (by simp) (by simp)
    · exact (h.origin u hu).mono fun A hA => by simp [hA]
  released r hr := by
    obtain ⟨u, hu, hs⟩ := h.released r hr
    exact ⟨u, List.mem_cons_of_mem _ hu, hs⟩
  distinct := h.distinct
  peerId := h.peerId
  sound := h.sound
  live k s hs hi := by
    obtain ⟨u, hu, hk, ho⟩ := h.live k s hs hi
    exact ⟨u, List.mem_cons_of_mem _ hu, hk, ho⟩

/-- The first chain of a session nothing was released on is added, unless the account has it already. -/
theorem AccountInv.firstChain (hc : CollisionFree P) (h : AccountInv P codec a us) {peer : Contact}
    (hid : isIdentity peer.chhayaId.publicKey = true) (conversation : String) :
    ∃ us', AccountInv P codec a us' ∧ ⟨sessionKey peer conversation, P.x25519Public codec.identity.privateKey,
      codec.firstChain P peer conversation⟩ ∈ us' := by
  by_cases hm : codec.firstChain P peer conversation ∈ us.map Used.start
  · obtain ⟨u, hu, he⟩ := List.mem_map.mp hm
    obtain ⟨h1, h2⟩ := (h.origin u hu).first_inj hc hid he
    refine ⟨us, h, ?_⟩
    rw [← h1, ← h2, ← he]
    exact hu
  · refine ⟨_ :: us, ?_, List.mem_cons_self⟩
    exact { h with
      starts := by
        rw [List.map_cons, List.nodup_cons]
        exact ⟨hm, h.starts⟩
      origin := fun u hu => by
        rcases List.mem_cons.mp hu with rfl | hu
        · exact .first peer conversation hid
        · exact h.origin u hu
      released := fun r hr => by
        obtain ⟨u, hu, hs⟩ := h.released r hr
        exact ⟨u, List.mem_cons_of_mem _ hu, hs⟩
      live := fun k s hs hi => by
        obtain ⟨u, hu, hk, ho⟩ := h.live k s hs hi
        exact ⟨u, List.mem_cons_of_mem _ hu, hk, ho⟩ }

/-- A session is stored, and the releases now are `rs`. -/
theorem AccountInv.store (h : AccountInv P codec a us) {s : SessionState β} {rs : List (Release β)} (hs : Sound P s)
    (hrel : ∀ r ∈ rs, ∃ u ∈ us, u.Seals P r) (hdist : (rs.map Release.id).Nodup)
    (hold : ∀ r ∈ rs, r ∈ a.released ∨ r.key = s.peerId)
    (hlive : s.sendInitialized = true → ∃ u ∈ us, u.key = s.peerId ∧ SendsOn P rs s u) :
    AccountInv P codec { a.commit s with released := rs } us where
  own := List.mem_cons_of_mem _ (List.mem_cons_of_mem _ h.own)
  starts := h.starts
  origin u hu := (h.origin u hu).mono fun A hA => List.mem_cons_of_mem _ (List.mem_cons_of_mem _ hA)
  released := hrel
  distinct := hdist
  peerId k t ht := by
    simp only [Account.commit, Function.update_apply] at ht
    split at ht
    · rename_i hk
      cases ht
      exact hk.symm
    · exact h.peerId k t ht
  sound k t ht := by
    simp only [Account.commit, Function.update_apply] at ht
    split at ht
    · cases ht
      exact hs
    · exact h.sound k t ht
  live k t ht hi := by
    simp only [Account.commit, Function.update_apply] at ht
    split at ht
    · rename_i hk
      cases ht
      exact hk ▸ hlive hi
    · rename_i hk
      obtain ⟨u, hu, huk, hpub, n, p, hat, hlt⟩ := h.live k t ht hi
      refine ⟨u, hu, huk, hpub, n, p, hat, fun r hr hrk => ?_⟩
      -- what is new belongs to the session just stored
      exact hlt r ((hold r hr).resolve_right fun he => hk (huk.symm.trans (hrk.symm.trans he))) hrk

/-- A session is stored that sends on a chain in use, past its releases. -/
theorem AccountInv.commit (h : AccountInv P codec a us) {s : SessionState β} (hs : Sound P s)
    (hl : s.sendInitialized = true → ∃ u ∈ us, u.key = s.peerId ∧ SendsOn P a.released s u) :
    AccountInv P codec (a.commit s) us :=
  h.store hs h.released h.distinct (fun _ hr => Or.inl hr) hl

/-- A session is stored and the next message of the chain it sends on is released. -/
theorem AccountInv.release (h : AccountInv P codec a us) {key : String} {r : Sealed β} {payload : JsonMap} {u : Used β}
    (hu : u ∈ us) (hid : r.state.peerId = key) (hs : Sound P r.state)
    (hseal : u.Seals P ⟨key, r.header, r.keys, payload.fields⟩)
    (hbefore : ∀ r' ∈ a.released, r'.key = u.key → r'.header.dh.dhPublicKey = u.pub →
      r'.header.dh.messageNumber < r.header.dh.messageNumber)
    (hpub : u.pub = r.state.ourPublicKey) {p : Nat} (hat : SendAt P r.state u.start (r.header.dh.messageNumber + 1) p) :
    AccountInv P codec (a.release key r payload) us := by
  refine h.store hs (fun r' hr' => ?_) ?_ (fun r' hr' => ?_) (fun _ => ?_)
  · rcases List.mem_cons.mp hr' with rfl | hr'
    · exact ⟨u, hu, hseal⟩
    · exact h.released r' hr'
  · rw [List.map_cons, List.nodup_cons]
    refine ⟨fun hm => ?_, h.distinct⟩
    obtain ⟨r', hr', he⟩ := List.mem_map.mp hm
    simp only [Release.id, Prod.mk.injEq] at he
    have := hbefore r' hr' (he.1.trans hseal.key.symm) (he.2.1.trans hseal.pub.symm)
    omega
  · rcases List.mem_cons.mp hr' with rfl | hr'
    · exact Or.inr hid.symm
    · exact Or.inl hr'
  · refine ⟨u, hu, hseal.key.trans hid.symm, hpub, _, p, hat, fun r' hr' hk' hp' => ?_⟩
    rcases List.mem_cons.mp hr' with rfl | hr'
    · exact Nat.lt_succ_self _
    · exact Nat.lt_succ_of_lt (hbefore r' hr' hk' hp')

end Commits
/-! ## One call -/

section Calls

variable {P : Primitives β} {codec : RatchetMessageCodec β} {a : Account β} {us : List (Used β)}
  {saved : Option (SessionState β)} {peer : Contact} {conversation messageId sender : String} {fresh : X25519Seed β}
  {s : SessionState β}

/-- A new session is sound. -/
theorem newSession_sound {hex : String} (hp : codec.identity.privateKey.length = 32) (hi : isIdentity hex = true)
    (conversation : String) : Sound P (codec.newSession P hex conversation) where
  ok := openedSession_ok P _ _ _ hp (identityOf_parseIdentity hi).1
  recv := by
    refine ⟨(codec.newSession P hex conversation).recvChainKey, 0, ?_, rfl, rfl⟩
    simp only [RatchetMessageCodec.newSession, openedSession]
    split <;> simp
  counter := ⟨0, rfl⟩
  idle _ := rfl

/-- The session that a call works on. -/
theorem AccountInv.loaded (h : AccountInv P codec a us) (hl : a.Loads P saved (sessionKey peer conversation) fresh)
    (hs : codec.state P saved peer conversation fresh = .ok s) :
    s.peerId = sessionKey peer conversation ∧ Sound P s := by
  obtain ⟨-, rfl | ⟨rfl, hi, hp, rfl⟩⟩ := RatchetMessageCodec.state_inv hs
  · have hk : a.sessions (sessionKey peer conversation) = some s := (hl.saved.resolve_left (by simp)).symm
    exact ⟨h.peerId _ _ hk, h.sound _ _ hk⟩
  · exact ⟨rfl, newSession_sound hp hi conversation⟩

/-- The chain that a session sends on when a call loads it, nothing released on the first chain if it is opened. -/
theorem AccountInv.loaded_live (hc : CollisionFree P) (h : AccountInv P codec a us)
    (hl : a.Loads P saved (sessionKey peer conversation) fresh)
    (hs : codec.state P saved peer conversation fresh = .ok s)
    (hu : saved = none → codec.ownId < peer.chhayaId.publicKey → a.Unused P codec (sessionKey peer conversation)) :
    ∃ us', AccountInv P codec a us' ∧ (s.sendInitialized = true →
      ∃ u ∈ us', u.key = sessionKey peer conversation ∧ SendsOn P a.released s u) := by
  obtain ⟨-, rfl | ⟨rfl, hi, hp, rfl⟩⟩ := RatchetMessageCodec.state_inv hs
  · have hk : a.sessions (sessionKey peer conversation) = some s := (hl.saved.resolve_left (by simp)).symm
    exact ⟨us, h, h.live _ _ hk⟩
  · obtain ⟨us', h', hm⟩ := h.firstChain hc hi conversation
    refine ⟨us', h', fun hinit => ⟨_, hm, rfl, rfl, 0, 0, ⟨length_chainA _ _ _, ?_, rfl, rfl⟩, ?_⟩⟩
    · have hlt : codec.ownId < peer.chhayaId.publicKey := of_decide_eq_true hinit
      simp only [RatchetMessageCodec.newSession, openedSession, decide_eq_true hlt, if_true]
      rfl
    · intro r hr hk hpub
      exact absurd hpub (hu rfl (of_decide_eq_true hinit) r hr hk)

/-- A message more on a live chain. -/
theorem Sound.sent (h : Sound P s) (hi : s.sendInitialized = true) (start : List β) (n : Nat) (e : Int) :
    Sound P { s.sent P start n with spqrEpoch := e } where
  ok := ⟨h.ok.1, h.ok.2, h.ok.3, h.ok.4⟩
  recv := by
    obtain ⟨st, c, hr⟩ := h.recv
    exact ⟨st, c, hr.1, hr.2, hr.3⟩
  counter := ⟨n + 1, rfl⟩
  idle hf := absurd (hi.symm.trans hf) (by decide)

/-- The responder's first-send ratchet. -/
theorem Sound.firstSent (h : Sound P s) (f : X25519Seed β) : Sound P (s.firstSent P f.1) where
  ok := ⟨f.2, rfl, h.ok.3, h.ok.4⟩
  recv := by
    obtain ⟨st, c, hr⟩ := h.recv
    exact ⟨st, c, hr.1, hr.2, hr.3⟩
  counter := h.counter
  idle hf := absurd hf Bool.noConfusion

/-- A send on a live chain in use keeps the invariant. -/
theorem AccountInv.encrypt_live (h : AccountInv P codec a us) {key : String} (payload : JsonMap) {r : Sealed β}
    (hs : Sound P s) (hid : s.peerId = key) (hi : s.sendInitialized = true) {u : Used β} (hu : u ∈ us)
    (hk : u.key = key) (ho : SendsOn P a.released s u)
    (hr : (TripleRatchet.encrypt P fresh).run s = .ok (r.header, r.keys) r.state) :
    AccountInv P codec (a.release key r payload) us := by
  obtain ⟨hpub, n, p, hat, hlt⟩ := ho
  obtain ⟨hn, h1, -, h3, -, h5, h6⟩ := TripleRatchet.encrypt_live_inv hi hat hs.ok hr
  obtain rfl : r.header.dh.messageNumber = n := h3
  have hsound := h6 ▸ hs.sent hi u.start r.header.dh.messageNumber (r.header.dh.messageNumber / 10 : Nat)
  have hsent := h6 ▸ hat.sent (r.header.dh.messageNumber / 10 : Nat)
  exact h.release hu (by rw [h6]; exact hid) hsound ⟨hk, hpub.trans h1.symm, hn, _, h5⟩ hlt (by rw [h6]; exact hpub)
    hsent

/-- A committed `encrypt` keeps the invariant. -/
theorem AccountInv.encrypt (hc : CollisionFree P) (h : AccountInv P codec a us)
    (hl : a.Loads P saved (sessionKey peer conversation) fresh) {payload : JsonMap} {r : Sealed β}
    (hu : saved = none → codec.ownId < peer.chhayaId.publicKey → a.Unused P codec (sessionKey peer conversation))
    (hrun : codec.encrypt P saved peer conversation messageId sender payload fresh = .ok r) :
    ∃ us', AccountInv P codec (a.release (sessionKey peer conversation) r payload) us' := by
  obtain ⟨s, hs, hr, -⟩ := RatchetMessageCodec.encrypt_inv hrun
  obtain ⟨hid, hsound⟩ := h.loaded hl hs
  cases hi : s.sendInitialized with
  | true =>
    obtain ⟨us', h', hlive⟩ := h.loaded_live hc hl hs hu
    obtain ⟨u, hmem, hk, ho⟩ := hlive hi
    exact ⟨us', h'.encrypt_live payload hsound hid hi hmem hk ho hr⟩
  | false =>
    rw [TripleRatchet.encrypt_first fresh hi hsound.ok.remotePublicKey_length] at hr
    have hnew := h.newChain hc (sessionKey peer conversation) s.rootKey hl.fresh s.remotePublicKey
    have hat : SendAt P (s.firstSent P fresh.1) (kdfChain P s.rootKey (P.x25519 fresh.1 s.remotePublicKey)) 0 0 :=
      ⟨length_kdfChain _ _ _, rfl, hsound.idle hi, hsound.idle hi⟩
    have hnone : ∀ r ∈ a.released, r.header.dh.dhPublicKey ≠ P.x25519Public fresh.1 := fun r hr he =>
      hl.fresh (he ▸ h.released_mem hr)
    have hend := hnew.encrypt_live payload (hsound.firstSent fresh) hid rfl List.mem_cons_self rfl
      ⟨rfl, 0, 0, hat, fun r hr _ he => absurd he (hnone r hr)⟩ hr
    obtain ⟨-, h1, -, -, -, -, h6⟩ := TripleRatchet.encrypt_live_inv rfl hat (hsound.firstSent fresh).ok hr
    refine ⟨_, hend.publics (p := r.state.ourPublicKey :: r.state.remotePublicKey :: a.publics) fun A hA => ?_⟩
    have h7 : r.state.ourPublicKey = P.x25519Public fresh.1 := by rw [h6]; rfl
    have h8 : r.state.remotePublicKey = s.remotePublicKey := by rw [h6]; rfl
    simp only [Account.release, Account.commit, List.mem_cons, h7, h8] at hA ⊢
    tauto

/-- A ratchet draws a new key pair and resets the counter. -/
theorem Sound.ratcheted (h : Sound P s) {dh : Bytes} (hdh : dh.length = 32) (f : X25519Seed β) (start : List β)
    (c k n : Nat) :
    Sound P (((s.staged P start c k).ratcheted P dh f.1).received P (s.nextStart P dh) 0 n) where
  ok := ⟨f.2, rfl, hdh, h.ok.4⟩
  recv := ⟨_, _, (RecvAt.ratcheted P (s.staged P start c k) dh f.1).received n⟩
  counter := ⟨0, rfl⟩
  idle _ := rfl

/-- Messages received on the current chain. -/
theorem Sound.received (h : Sound P s) {start : List β} {c : Nat} (hr : RecvAt P s start c) (n : Nat) :
    Sound P (s.received P start c n) where
  ok := ⟨h.ok.1, h.ok.2, h.ok.3, h.ok.4⟩
  recv := ⟨_, _, hr.received n⟩
  counter := h.counter
  idle := h.idle

/-- A cached key taken. -/
theorem Sound.erase (h : Sound P s) (k : String) : Sound P { s with skipped := s.skipped.erase k } where
  ok := ⟨h.ok.1, h.ok.2, h.ok.3, h.ok.4⟩
  recv := by
    obtain ⟨st, c, hr⟩ := h.recv
    exact ⟨st, c, hr.1, hr.2, hr.3⟩
  counter := h.counter
  idle := h.idle

/-- A committed `decrypt` keeps the invariant. -/
theorem AccountInv.decrypt (hc : CollisionFree P) (h : AccountInv P codec a us)
    (hl : a.Loads P saved (sessionKey peer conversation) fresh) {envelope : String} {r : Opened β}
    (hf : Call.Fresh P codec a (.decrypt saved peer conversation messageId sender envelope fresh))
    (hrun : codec.decrypt P saved peer conversation messageId sender envelope fresh = .ok r) :
    ∃ us', AccountInv P codec (a.commit r.state) us' := by
  obtain ⟨wire, headerBytes, s, body, hw, hs, hh, hr, -⟩ := RatchetMessageCodec.decrypt_inv hrun
  obtain ⟨hid, hsound⟩ := h.loaded hl hs
  obtain ⟨start, c, hrecv⟩ := hsound.recv
  obtain ⟨k, hd, -⟩ := TripleRatchet.decrypt_inv hsound.ok hrecv hr
  have hpub : headerBytes.take 32 = r.header.dh.dhPublicKey := by
    rw [← (TripleHeader.toBytes_fromBytes hh).1, TripleHeader.toBytes, RatchetHeader.toBytes, List.append_assoc,
      List.append_assoc, List.take_left' r.header.dh.dhPublicKey_length]
  -- an initiator that opens its session either may use its first chain or meets another key than the peer's first
  have hu : (r.header.dh.dhPublicKey = s.remotePublicKey ∨ ∃ v, s.skipped.lookup (skipKey r.header.dh.dhPublicKey
      r.header.dh.messageNumber) = some v) → saved = none → codec.ownId < peer.chhayaId.publicKey →
      a.Unused P codec (sessionKey peer conversation) := by
    intro hcase hn hlt
    refine (hf hn hlt).resolve_right fun hne => hne wire headerBytes hw ?_
    obtain ⟨-, rfl | ⟨-, hi, hp, rfl⟩⟩ := RatchetMessageCodec.state_inv hs
    · cases hn
    · rcases hcase with he | ⟨v, hv⟩
      · exact hpub.trans he
      · cases hv
  rcases DoubleRatchet.decrypt_cases hsound.ok hrecv hd with ⟨hk, hs'⟩ | ⟨-, hk, -, -, -, hs'⟩ | ⟨-, -, -, -, -, hs'⟩
  · obtain ⟨us', h', hlive⟩ := h.loaded_live hc hl hs (hu (Or.inr ⟨_, hk⟩))
    rw [hs']
    refine ⟨us', h'.commit (hsound.erase _) fun hi => ?_⟩
    obtain ⟨u, hmem, hk, hp, n, p, hat, hlt⟩ := hlive hi
    exact ⟨u, hmem, hk.trans hid.symm, hp, n, p, ⟨hat.1, hat.2, hat.3, hat.4⟩, hlt⟩
  · obtain ⟨us', h', hlive⟩ := h.loaded_live hc hl hs (hu (Or.inl hk))
    rw [hs']
    refine ⟨us', h'.commit (hsound.received hrecv _) fun hi => ?_⟩
    obtain ⟨u, hmem, hk, hp, n, p, hat, hlt⟩ := hlive hi
    exact ⟨u, hmem, hk.trans hid.symm, hp, n, p, ⟨hat.1, hat.2, hat.3, hat.4⟩, hlt⟩
  · obtain ⟨m, hm⟩ := hsound.counter
    have hnew := h.newChain hc (sessionKey peer conversation)
      (kdfRoot P s.rootKey (P.x25519 s.ourPrivateKey r.header.dh.dhPublicKey)) hl.fresh r.header.dh.dhPublicKey
    have hsound' := hsound.ratcheted r.header.dh.dhPublicKey_length fresh start c (r.header.dh.prevChainLength - c)
      r.header.dh.messageNumber
    have hend := hnew.commit hsound' fun _ => ⟨_, List.mem_cons_self, hid.symm, rfl, 0, m,
      ⟨length_kdfChain _ _ _, rfl, rfl, hm⟩, fun r' hr' _ he => absurd (h.released_mem hr') (he ▸ hl.fresh)⟩
    rw [hs']
    refine ⟨_, hend.publics (p := _ :: _ :: a.publics) fun A hA => ?_⟩
    simp only [Account.commit, List.mem_cons] at hA ⊢
    rcases hA with rfl | rfl | rfl | rfl | hA
    · exact Or.inl rfl
    · exact Or.inr (Or.inl rfl)
    · exact Or.inl rfl
    · exact Or.inr (Or.inl rfl)
    · exact Or.inr (Or.inr hA)

end Calls

/-! ## Runs -/

section Runs

variable {P : Primitives β} {codec : RatchetMessageCodec β} {a : Account β}

theorem AccountInv.start (P : Primitives β) (codec : RatchetMessageCodec β) :
    AccountInv P codec (Account.start P codec) [] where
  own := List.mem_singleton_self _
  starts := List.nodup_nil
  origin _ hu := (List.not_mem_nil hu).elim
  released _ hr := (List.not_mem_nil hr).elim
  distinct := List.nodup_nil
  peerId _ _ hs := by cases hs
  sound _ _ hs := by cases hs
  live _ _ hs := by cases hs

/-- Fresh calls keep the invariant. -/
theorem reachable_accountInv (hc : CollisionFree P) (h : Account.Reachable P codec (Call.Fresh P codec) a) :
    ∃ us, AccountInv P codec a us := by
  induction h with
  | start => exact ⟨[], AccountInv.start P codec⟩
  | step _ hf hs ih =>
    obtain ⟨us, h⟩ := ih
    cases hs with
    | encrypt loads run => exact h.encrypt hc loads hf run
    | decrypt loads run => exact h.decrypt hc loads hf run
    | failed => exact ⟨us, h⟩

/-- Under the invariant different envelopes are sealed under different keys. -/
theorem AccountInv.keys_ne (hc : CollisionFree P) {us : List (Used β)} (h : AccountInv P codec a us) :
    a.released.Pairwise fun r r' => r.keys.messageKey ≠ r'.keys.messageKey := by
  refine List.Pairwise.imp_of_mem ?_ (List.pairwise_map.mp h.distinct)
  intro r r' hr hr' hne he
  obtain ⟨u, hu, hs⟩ := h.released r hr
  obtain ⟨u', hu', hs'⟩ := h.released r' hr'
  obtain ⟨seed, hk⟩ := hs.keys
  obtain ⟨seed', hk'⟩ := hs'.keys
  rw [hk, hk'] at he
  obtain ⟨h1, h2⟩ := sealKeys_inj hc (h.origin u hu).length_start (h.origin u' hu').length_start hs.number_le
    hs'.number_le he
  obtain rfl := List.inj_on_of_nodup_map h.starts hu hu' h1
  exact hne (by rw [Release.id, Release.id, ← hs.key, ← hs'.key, ← hs.pub, ← hs'.pub, h2])

/-- Where an initiator that finds no session has released nothing on the first chain, or ratchets at once, no two
envelopes with different payloads are ever sealed under one key and nonce. -/
theorem release_no_reuse (hc : CollisionFree P) (h : Account.Reachable P codec (Call.Fresh P codec) a) : a.NoReuse := by
  obtain ⟨us, h⟩ := reachable_accountInv hc h
  exact (h.keys_ne hc).imp fun hne _ he => hne he.1

end Runs
/-! ## A lost session -/

/-- The payload of a text message. -/
def textPayload (text : String) : JsonMap where
  fields := [("content".toList, .str text.toList), ("ttlMs".toList, .null)]
  wf := by simp [Json.WF, Json.WFFields]

/-- The account whose private key repeats `b`. -/
def octetCodec (b : UInt8) : RatchetMessageCodec SymByte where
  identity := ⟨symbolic.x25519Public (octetSeed b).1, (octetSeed b).1⟩
  ownId := identityOf (symbolic.x25519Public (octetSeed b).1)

/-- The verified contact with that account. -/
def octetContact (b : UInt8) : Contact where
  id := "peer"
  chhayaId := { publicKey := identityOf (symbolic.x25519Public (octetSeed b).1) }
  displayName := "peer"
  isVerified := true

theorem octetCodec_state (a b : UInt8) (conversation : String) (fresh : X25519Seed SymByte) :
    (octetCodec a).state symbolic none (octetContact b) conversation fresh =
      .ok ((octetCodec a).newSession symbolic (octetContact b).chhayaId.publicKey conversation) :=
  RatchetMessageCodec.state_none rfl (isIdentity_identityOf (symbolic.length_x25519Public _)) (octetSeed a).2 rfl

/-- A live session sends the next message of its chain. -/
theorem RatchetMessageCodec.encrypt_live {P : Primitives β} {codec : RatchetMessageCodec β} {saved : Option (SessionState β)}
    {peer : Contact} {conversation : String} {fresh : X25519Seed β} {s : SessionState β} {start : List β} {n p : Nat}
    (hs : codec.state P saved peer conversation fresh = .ok s) (hi : s.sendInitialized = true) (hat : SendAt P s start n p)
    (hok : s.Ok P) (hn : n ≤ 0xFFFFFFFF) (messageId sender : String) (payload : JsonMap) :
    ∃ r, codec.encrypt P saved peer conversation messageId sender payload fresh = .ok r ∧
      r.keys = sealKeys P s.spqrSeed start n ∧ r.state = { s.sent P start n with spqrEpoch := (n / 10 : Nat) } :=
  ⟨_, encrypt_ok messageId sender payload hs (TripleRatchet.encrypt_run fresh hi hat hok hn), rfl, rfl⟩

/-- The session that the initiator opens on a conversation. -/
def octetSession (conversation : String) : SessionState SymByte :=
  (octetCodec 1).newSession symbolic (octetContact 2).chhayaId.publicKey conversation

theorem octetSession_live (conversation : String) : (octetSession conversation).sendInitialized = true ∧
    SendAt symbolic (octetSession conversation) ((octetCodec 1).firstChain symbolic (octetContact 2) conversation) 0 0 ∧
    (octetSession conversation).Ok symbolic := by
  have hlt : (octetCodec 1).ownId < (octetContact 2).chhayaId.publicKey := by decide
  have hid : isIdentity (octetContact 2).chhayaId.publicKey = true :=
    isIdentity_identityOf (symbolic.length_x25519Public _)
  refine ⟨by simp [octetSession, RatchetMessageCodec.newSession, openedSession, hlt], ⟨length_chainA _ _ _, ?_, rfl, rfl⟩,
    (newSession_sound (P := symbolic) (octetSeed 1).2 hid conversation).ok⟩
  simp only [octetSession, RatchetMessageCodec.newSession, openedSession, decide_eq_true hlt, if_true]
  rfl

theorem octetSession_publics (conversation : String) :
    (octetSession conversation).ourPublicKey = symbolic.x25519Public (octetSeed 1).1 ∧
      (octetSession conversation).remotePublicKey = symbolic.x25519Public (octetSeed 2).1 :=
  ⟨rfl, parseIdentity_identityOf _⟩

/-- That session once its first message was sent. -/
theorem octetSession_sent {conversation : String} {s : SessionState SymByte}
    (hs : s = { (octetSession conversation).sent symbolic
      ((octetCodec 1).firstChain symbolic (octetContact 2) conversation) 0 with spqrEpoch := 0 }) :
    s.peerId = sessionKey (octetContact 2) conversation ∧ s.sendInitialized = true ∧
      SendAt symbolic s ((octetCodec 1).firstChain symbolic (octetContact 2) conversation) 1 0 ∧ s.Ok symbolic := by
  obtain ⟨hi, hat, hok⟩ := octetSession_live conversation
  rw [hs]
  exact ⟨rfl, hi, hat.sent 0, ⟨hok.1, hok.2, hok.3, hok.4⟩⟩

/-- What the initiator sends first on a session it opens. -/
theorem octetCodec_encrypt (conversation messageId text : String) (fresh : X25519Seed SymByte) :
    ∃ r, (octetCodec 1).encrypt symbolic none (octetContact 2) conversation messageId "sender" (textPayload text) fresh
      = .ok r ∧ r.keys = sealKeys symbolic (octetSession conversation).spqrSeed
        ((octetCodec 1).firstChain symbolic (octetContact 2) conversation) 0 ∧
      r.state = { (octetSession conversation).sent symbolic
        ((octetCodec 1).firstChain symbolic (octetContact 2) conversation) 0 with spqrEpoch := 0 } := by
  obtain ⟨hi, hat, hok⟩ := octetSession_live conversation
  exact RatchetMessageCodec.encrypt_live (octetCodec_state 1 2 conversation fresh) hi hat hok (Nat.zero_le _) messageId
    "sender" (textPayload text)

/-- A run goes on with a call that returns an envelope. -/
theorem Account.Reachable.encrypt {P : Primitives β} {codec : RatchetMessageCodec β} {ok : Account β → Call β → Prop}
    {a : Account β} (h : Account.Reachable P codec ok a) {saved : Option (SessionState β)} {peer : Contact}
    {conversation messageId sender : String} {payload : JsonMap} {fresh : X25519Seed β} {r : Sealed β}
    (hr : codec.encrypt P saved peer conversation messageId sender payload fresh = .ok r)
    (hsaved : saved = none ∨ saved = a.sessions (sessionKey peer conversation)) (hfresh : P.x25519Public fresh.1 ∉ a.publics)
    (hok : ok a (.encrypt saved peer conversation messageId sender payload fresh)) :
    Account.Reachable P codec ok (a.release (sessionKey peer conversation) r payload) :=
  h.step hok (.encrypt ⟨hsaved, hfresh⟩ hr)

/-- The initiator sends, loses its session and sends again: two payloads under one key and nonce. -/
theorem release_reuse : ∃ a, Account.Reachable symbolic (octetCodec 1) (fun _ _ => True) a ∧ ¬a.NoReuse := by
  obtain ⟨hp, hq⟩ := octetSession_publics "conversation"
  obtain ⟨r, hr, hk, hs⟩ := octetCodec_encrypt "conversation" "first" "hello" (octetSeed 3)
  obtain ⟨r', hr', hk', -⟩ := octetCodec_encrypt "conversation" "second" "goodbye" (octetSeed 4)
  have h1 : Account.Reachable symbolic (octetCodec 1) (fun _ _ => True) _ :=
    Account.Reachable.start.encrypt hr (Or.inl rfl) (by decide) trivial
  have hnew : symbolic.x25519Public (octetSeed 4).1 ∉ (Account.release (Account.start symbolic (octetCodec 1))
      (sessionKey (octetContact 2) "conversation") r (textPayload "hello")).publics := by
    simp only [Account.release, Account.commit, hs, SessionState.sent, hp, hq]
    decide
  refine ⟨_, h1.encrypt hr' (Or.inl rfl) hnew trivial, fun h => ?_⟩
  have h3 := (List.pairwise_cons.mp h).1 _ List.mem_cons_self
  refine h3 (by simp [textPayload]) ?_
  rw [hk, hk']
  exact ⟨rfl, rfl⟩

/-- An initiator sends two messages on one conversation; a call fails; then it sends one on another conversation. -/
theorem release_no_reuse_thrice : ∃ a : Account SymByte,
    a.released.map Release.payload = [textPayload "goodbye", textPayload "again", textPayload "hello"].map JsonMap.fields ∧
    Account.Reachable symbolic (octetCodec 1) (Call.Fresh symbolic (octetCodec 1)) a ∧ a.NoReuse := by
  obtain ⟨hp, hq⟩ := octetSession_publics "conversation"
  obtain ⟨r, hr, -, hs⟩ := octetCodec_encrypt "conversation" "first" "hello" (octetSeed 3)
  obtain ⟨hid, hi, hat, hok⟩ := octetSession_sent hs
  have hstate : (octetCodec 1).state symbolic (some r.state) (octetContact 2) "conversation" (octetSeed 4) =
      .ok r.state := rfl
  obtain ⟨r', hr', -, hs'⟩ := RatchetMessageCodec.encrypt_live hstate hi hat hok (by decide) "second" "sender"
    (textPayload "again")
  obtain ⟨r'', hr'', -⟩ := octetCodec_encrypt "other" "third" "goodbye" (octetSeed 5)
  let a₀ := Account.start symbolic (octetCodec 1)
  let a₁ := a₀.release (sessionKey (octetContact 2) "conversation") r (textPayload "hello")
  let a₂ := a₁.release (sessionKey (octetContact 2) "conversation") r' (textPayload "again")
  have hpublics₁ : symbolic.x25519Public (octetSeed 4).1 ∉ a₁.publics := by
    simp only [a₁, Account.release, Account.commit, hs, SessionState.sent, hp, hq]
    decide
  have hpublics₂ : symbolic.x25519Public (octetSeed 5).1 ∉ a₂.publics := by
    simp only [a₂, a₁, Account.release, Account.commit, hs', hs, SessionState.sent, hp, hq]
    decide
  have hsaved : some r.state = a₁.sessions (sessionKey (octetContact 2) "conversation") := by
    rw [← hid]
    exact (Function.update_self r.state.peerId (some r.state) fun _ => none).symm
  have hother : sessionKey (octetContact 2) "conversation" ≠ sessionKey (octetContact 2) "other" := fun h => by
    have := congrArg String.toList h
    simp [sessionKey] at this
  have hunused : a₂.Unused symbolic (octetCodec 1) (sessionKey (octetContact 2) "other") := by
    intro x hx hkey
    rcases List.mem_cons.mp hx with rfl | hx
    · exact absurd hkey hother
    · obtain rfl := List.mem_singleton.mp hx
      exact absurd hkey hother
  have h1 : Account.Reachable symbolic (octetCodec 1) (Call.Fresh symbolic (octetCodec 1)) a₁ :=
    Account.Reachable.start.encrypt hr (Or.inl rfl) (by decide) fun _ _ _ hm => (List.not_mem_nil hm).elim
  have h2 : Account.Reachable symbolic (octetCodec 1) (Call.Fresh symbolic (octetCodec 1)) a₂ :=
    h1.encrypt hr' (Or.inr hsaved) hpublics₁ fun h => by cases h
  have h3 := h2.step (c := .encrypt none (octetContact 2) "other" "third" "sender" (textPayload "goodbye") (octetSeed 5))
    (fun _ _ => hunused) (.failed _)
  have h4 := h3.encrypt hr'' (Or.inl rfl) hpublics₂ fun _ _ => hunused
  exact ⟨_, rfl, h4, release_no_reuse symbolic_collisionFree h4⟩

end Chhaya
