import Chhaya.Client.App
import Chhaya.Ratchet.Reachable

/-!
# What holds of the app in every state

A verified contact has an identity that the user compared; a stored session was opened with such an identity; the sessions,
the keys seen and the sealed envelopes are those of an account whose calls are fresh; an id is sealed, requested and held
with one envelope; a message of ours is pending with that envelope in the outbox, or held.

- `SessionWith.encrypt`, `SessionWith.decrypt`: the sessions that the codec hands to a commit.
- `Inv.commitOutgoing`, `Inv.commitReceived`, `Inv.request`, `Inv.commitSent`: what the service does keeps the invariant.
- `UserStep.inv`: what the screens do keeps it.
-/

namespace Chhaya

open MessagingService

variable {β : Type}

/-! ## Sessions with confirmed identities -/

/-- The sessions that calls make of one. -/
inductive Evolved (P : Primitives β) (s₀ : SessionState β) : SessionState β → Prop
  | opened : Evolved P s₀ s₀
  | call {s : SessionState β} (h : Evolved P s₀ s) (c : SessionCall β) : Evolved P s₀ (c.after P s)

section Sessions

variable {P : Primitives β} {codec : RatchetMessageCodec β} {s : SessionState β}

theorem newSession_healthy {hex : String} (hp : codec.identity.privateKey.length = 32) (hi : isIdentity hex = true)
    (conversation : String) : Healthy P (codec.newSession P hex conversation) := by
  have hs : 32 ≤ (codec.directSecret P hex conversation).length := by
    rw [RatchetMessageCodec.directSecret, P.length_hkdf]
  exact .opened (DoubleRatchet.initSession_run P (conversation ++ ":" ++ hex) (codec.ownId < hex)
    ⟨codec.identity.privateKey, hp⟩ hs (identityOf_parseIdentity hi).1 hp)

theorem Evolved.healthy {s₀ : SessionState β} (h₀ : Healthy P s₀) (h : Evolved P s₀ s) : Healthy P s := by
  induction h with
  | opened => exact h₀
  | call _ c ih => exact ih.call c

theorem OnChain.peerId {start : List β} {c n : Nat} {r : EStateM.Result DartError (SessionState β) (MessageKeyBundle β)}
    (h : OnChain P s start c n r) : (leaves r).peerId = s.peerId := by
  cases h <;> rfl

theorem live_peerId (fresh : List β) : (s.live P fresh).peerId = s.peerId := by
  unfold SessionState.live
  split <;> rfl

theorem Healthy.decrypt_peerId (h : Healthy P s) (fresh : X25519Seed β) (header : RatchetHeader) :
    (leaves ((DoubleRatchet.decrypt P fresh header).run s)).peerId = s.peerId := by
  obtain ⟨start, c, -, -, ho⟩ := h.outcome fresh header
  generalize (DoubleRatchet.decrypt P fresh header).run s = r at ho
  cases ho with
  | cached => rfl
  | current _ _ ho => exact ho.peerId
  | stuck => rfl
  | tooMany => rfl
  | ratchet _ _ _ _ ho => exact ho.peerId

/-- A call leaves a session under its key. -/
theorem Healthy.call_peerId (h : Healthy P s) (call : SessionCall β) : (call.after P s).peerId = s.peerId := by
  cases call with
  | decrypt fresh header =>
    rw [SessionCall.after, SessionCall.run, leaves_map]
    exact h.decrypt_peerId fresh header
  | decryptTriple fresh header =>
    rw [SessionCall.after, SessionCall.run, leaves_map, TripleRatchet.leaves_decrypt]
    exact h.decrypt_peerId fresh header.dh
  | encrypt fresh =>
    obtain ⟨start, n, p, -, -, -, -, ⟨_, _, h1, -⟩ | ⟨e, -, h1, -⟩⟩ := h.encrypt_outcome fresh <;>
      simp only [SessionCall.after, SessionCall.run, EStateM.run_bind, h1]
    · exact live_peerId fresh.1
    · rfl
  | encryptTriple fresh =>
    obtain ⟨start, n, p, -, -, -, -, ⟨_, _, -, h1⟩ | ⟨e, -, -, h1⟩⟩ := h.encrypt_outcome fresh <;>
      simp only [SessionCall.after, SessionCall.run, EStateM.run_bind, h1]
    · exact live_peerId fresh.1
    · rfl

/-- A session stored under `key` was opened with the key of a confirmed identity, and calls have made of it what it is. -/
structure SessionWith (P : Primitives β) (codec : RatchetMessageCodec β) (confirmed : List String) (key : String)
    (s : SessionState β) : Prop where
  peerId : s.peerId = key
  length : codec.identity.privateKey.length = 32
  opened : ∃ hex ∈ confirmed, ∃ conversation, key = conversation ++ ":" ++ hex ∧ isIdentity hex = true ∧
    Evolved P (codec.newSession P hex conversation) s

variable {confirmed : List String} {key : String}

theorem SessionWith.healthy (h : SessionWith P codec confirmed key s) : Healthy P s := by
  obtain ⟨hex, -, conversation, -, hi, he⟩ := h.opened
  exact he.healthy (newSession_healthy h.length hi conversation)

theorem SessionWith.mono {confirmed' : List String} (hc : confirmed ⊆ confirmed')
    (h : SessionWith P codec confirmed key s) : SessionWith P codec confirmed' key s := by
  obtain ⟨hex, hm, rest⟩ := h.opened
  exact ⟨h.peerId, h.length, hex, hc hm, rest⟩

theorem SessionWith.call (h : SessionWith P codec confirmed key s) (c : SessionCall β) :
    SessionWith P codec confirmed key (c.after P s) := by
  obtain ⟨hex, hm, conversation, hk, hi, he⟩ := h.opened
  exact ⟨(h.healthy.call_peerId c).trans h.peerId, h.length, hex, hm, conversation, hk, hi, he.call c⟩

variable {saved : Option (SessionState β)} {peer : Contact} {conversation messageId sender : String} {fresh : X25519Seed β}

/-- The session a call works on: the stored one, or one opened with the peer's key. -/
theorem SessionWith.loaded (hsaved : ∀ s, saved = some s → SessionWith P codec confirmed (sessionKey peer conversation) s)
    (hpeer : peer.isVerified = true → peer.chhayaId.publicKey ∈ confirmed)
    (h : codec.state P saved peer conversation fresh = .ok s) :
    SessionWith P codec confirmed (sessionKey peer conversation) s := by
  obtain ⟨hv, h | ⟨-, hi, hp, rfl⟩⟩ := RatchetMessageCodec.state_inv h
  · exact hsaved s h
  · exact ⟨rfl, hp, _, hpeer hv, conversation, rfl, hi, .opened⟩

/-- The session that `encrypt` hands to its commit. -/
theorem SessionWith.encrypt (hsaved : ∀ s, saved = some s → SessionWith P codec confirmed (sessionKey peer conversation) s)
    (hpeer : peer.isVerified = true → peer.chhayaId.publicKey ∈ confirmed) {payload : JsonMap} {r : Sealed β}
    (h : codec.encrypt P saved peer conversation messageId sender payload fresh = .ok r) :
    SessionWith P codec confirmed (sessionKey peer conversation) r.state := by
  obtain ⟨s, hs, hr, -⟩ := RatchetMessageCodec.encrypt_inv h
  have hc := (SessionWith.loaded hsaved hpeer hs).call (.encryptTriple fresh)
  simp only [SessionCall.after, SessionCall.run, EStateM.run_bind, hr] at hc
  exact hc

/-- The session that `decrypt` hands to its commit. -/
theorem SessionWith.decrypt (hsaved : ∀ s, saved = some s → SessionWith P codec confirmed (sessionKey peer conversation) s)
    (hpeer : peer.isVerified = true → peer.chhayaId.publicKey ∈ confirmed) {envelope : String} {r : Opened β}
    (h : codec.decrypt P saved peer conversation messageId sender envelope fresh = .ok r) :
    SessionWith P codec confirmed (sessionKey peer conversation) r.state := by
  obtain ⟨-, -, s, -, -, hs, -, hr, -⟩ := RatchetMessageCodec.decrypt_inv h
  have hc := (SessionWith.loaded hsaved hpeer hs).call (.decryptTriple fresh r.header)
  rw [SessionCall.after, SessionCall.run, leaves_map, hr] at hc
  exact hc

end Sessions

/-! ## The invariant -/

/-- A verified contact has an identity that the user compared. -/
def Contact.Confirmed (confirmed : List String) (c : Contact) : Prop :=
  c.isVerified = true → c.chhayaId.publicKey ∈ confirmed

theorem Contact.Confirmed.mono {confirmed confirmed' : List String} {c : Contact} (hc : confirmed ⊆ confirmed')
    (h : c.Confirmed confirmed) : c.Confirmed confirmed' := fun hv => hc (h hv)

namespace App

/-- So it is of all contacts and of all participants. -/
structure Trusted (confirmed : List String) (contacts : List Contact) (conversations : List Conversation) : Prop where
  contacts : ∀ c ∈ contacts, c.Confirmed confirmed
  participants : ∀ k ∈ conversations, ∀ c ∈ k.participants, c.Confirmed confirmed

/-- The posted envelope seals the payload of a release under its keys. -/
def Carries (P : Primitives β) (p : MessagingService.Posted) (r : Release β) : Prop :=
  ∃ sender body, p.content = RatchetMessageCodec.envelopeText r.header.toBytes body ∧
    AesGcm.encryptBytes P r.keys.messageKey (utf8Encode (jsonEncode (.obj r.payload))) r.keys.nonce
      (RatchetMessageCodec.aad p.conversationId p.messageId sender ++ r.header.toBytes) = .ok body

/-- Sessions, keys seen and sealed envelopes are those of an account. -/
structure Refines (P : Primitives β) (sessions : String → Option (SessionState β)) (publics : List Bytes)
    (sealed : List MessagingService.Posted) (a : Account β) : Prop where
  stored : a.sessions = sessions
  seen : a.publics = publics
  carried : List.Forall₂ (Carries P) sealed a.released
  kept : ∀ r ∈ a.released, sessions r.key ≠ none

/-- What is sealed, in the outbox, requested and held. -/
structure Ledger (outbox : String → Option String) (sealed requested held : List MessagingService.Posted) : Prop where
  once : (sealed.map MessagingService.Posted.messageId).Nodup
  queued : ∀ id envelope, outbox id = some envelope → ∃ p ∈ sealed, p.messageId = id ∧ p.content = envelope
  asked : ∀ q ∈ requested, ∃ p ∈ sealed, p.messageId = q.messageId ∧ p.content = q.content
  taken : ∀ p ∈ held, p ∈ requested
  takenOnce : (held.map MessagingService.Posted.messageId).Nodup

/-- A row of ours is pending with its envelope in the outbox, or is held. -/
structure Settled (sealed held : List MessagingService.Posted) (outbox : String → Option String) (m : Message) : Prop where
  pending : m.isSent = false → ∃ p ∈ sealed, p.messageId = m.id ∧ p.conversationId = m.conversationId ∧
    outbox m.id = some p.content
  sent : m.isSent = true → ∀ p ∈ sealed, p.messageId = m.id → p ∈ held

/-- The invariant. What is said of rows of ours holds where nothing fetched passes as ours. -/
structure Inv (P : Primitives β) (codec : RatchetMessageCodec β) (honest : Prop) (s : App β) : Prop where
  stored : Trusted s.confirmed s.db.contacts s.db.conversations
  screens : Trusted s.confirmed s.shown s.listed
  sessions : ∀ key t, s.db.sessions key = some t → SessionWith P codec s.confirmed key t
  keyed : s.db.Keyed
  account : ∃ a, Account.Reachable P codec (Call.Fresh P codec) a ∧ Refines P s.db.sessions s.publics s.sealed a
  ledger : Ledger s.db.outbox s.sealed s.requested s.held
  rows : honest → ∀ m ∈ s.db.messages, m.senderId = "me" → Settled s.sealed s.held s.db.outbox m
  exact : honest → ∀ q ∈ s.requested, q ∈ s.sealed

section Parts

variable {confirmed : List String} {contacts : List Contact} {conversations : List Conversation} {c : Contact}
  {outbox : String → Option String} {sealed requested held : List MessagingService.Posted}
  {p q : MessagingService.Posted} {m : Message}

theorem Trusted.mono {confirmed' : List String} (hc : confirmed ⊆ confirmed')
    (h : Trusted confirmed contacts conversations) : Trusted confirmed' contacts conversations :=
  ⟨fun c hm => (h.contacts c hm).mono hc, fun k hk c hm => (h.participants k hk c hm).mono hc⟩

/-- What is added is trusted too. -/
theorem Trusted.update {contacts' : List Contact} {conversations' : List Conversation}
    (h : Trusted confirmed contacts conversations) (hc : ∀ c ∈ contacts', c ∈ contacts ∨ c.Confirmed confirmed)
    (hk : ∀ k ∈ conversations', k ∈ conversations ∨ ∀ c ∈ k.participants, c.Confirmed confirmed) :
    Trusted confirmed contacts' conversations' where
  contacts c hm := (hc c hm).elim (h.contacts c) id
  participants k hm := (hk k hm).elim (h.participants k) id

theorem mem_addContact {d : LocalDatabase β} {c' : Contact} (h : c' ∈ (d.addContact c).contacts) :
    c' ∈ d.contacts ∨ c' = c := by
  rcases List.mem_append.mp h with h | h
  · exact Or.inl (List.mem_filter.mp h).1
  · exact Or.inr (List.mem_singleton.mp h)

theorem mem_addConversation {d : LocalDatabase β} {k k' : Conversation} (h : k' ∈ (d.addConversation k).conversations) :
    k' ∈ d.conversations ∨ k' = k := by
  rcases List.mem_append.mp h with h | h
  · exact Or.inl (List.mem_filter.mp h).1
  · exact Or.inr (List.mem_singleton.mp h)

theorem Trusted.addContact {d : LocalDatabase β} (h : Trusted confirmed d.contacts d.conversations)
    (hc : c.Confirmed confirmed) : Trusted confirmed (d.addContact c).contacts d.conversations :=
  h.update (fun _ hm => (mem_addContact hm).imp_right (by rintro rfl; exact hc)) fun _ hk => Or.inl hk

theorem Trusted.addConversation {d : LocalDatabase β} {k : Conversation} (h : Trusted confirmed d.contacts d.conversations)
    (hk : ∀ c ∈ k.participants, c.Confirmed confirmed) : Trusted confirmed d.contacts (d.addConversation k).conversations :=
  h.update (fun _ hm => Or.inl hm) fun _ hm => (mem_addConversation hm).imp_right (by rintro rfl; exact hk)

theorem Trusted.cons {k : Conversation} (h : Trusted confirmed contacts conversations)
    (hk : ∀ c ∈ k.participants, c.Confirmed confirmed) : Trusted confirmed contacts (k :: conversations) :=
  h.update (fun _ hm => Or.inl hm) fun _ hm => (List.mem_cons.mp hm).symm.imp_right (by rintro rfl; exact hk)

theorem Trusted.consContact (h : Trusted confirmed contacts conversations) (hc : c.Confirmed confirmed) :
    Trusted confirmed (c :: contacts) conversations :=
  h.update (fun _ hm => (List.mem_cons.mp hm).symm.imp_right (by rintro rfl; exact hc)) fun _ hk => Or.inl hk

/-- The only envelope sealed for an id. -/
theorem Ledger.unique (h : Ledger outbox sealed requested held) (hp : p ∈ sealed) (hq : q ∈ sealed)
    (he : p.messageId = q.messageId) : p = q := List.inj_on_of_nodup_map h.once hp hq he

/-- An envelope more is sealed. -/
theorem Ledger.seal (h : Ledger outbox sealed requested held)
    (hp : p.messageId ∉ sealed.map MessagingService.Posted.messageId) :
    Ledger (Function.update outbox p.messageId (some p.content)) (p :: sealed) requested held where
  once := by
    rw [List.map_cons, List.nodup_cons]
    exact ⟨hp, h.once⟩
  queued id envelope ho := by
    rw [Function.update_apply] at ho
    split at ho
    case isTrue he => exact ⟨p, List.mem_cons_self, he.symm, Option.some.inj ho⟩
    case isFalse =>
      obtain ⟨q, hq, rest⟩ := h.queued id envelope ho
      exact ⟨q, List.mem_cons_of_mem _ hq, rest⟩
  asked q hq := by
    obtain ⟨q', hq', rest⟩ := h.asked q hq
    exact ⟨q', List.mem_cons_of_mem _ hq', rest⟩
  taken := h.taken
  takenOnce := h.takenOnce

/-- An envelope leaves the outbox. -/
theorem Ledger.sent (h : Ledger outbox sealed requested held) (id : String) :
    Ledger (Function.update outbox id none) sealed requested held where
  once := h.once
  queued id' envelope ho := by
    rw [Function.update_apply] at ho
    split at ho
    · cases ho
    · exact h.queued id' envelope ho
  asked := h.asked
  taken := h.taken
  takenOnce := h.takenOnce

/-- A sealed envelope is requested. -/
theorem Ledger.request (h : Ledger outbox sealed requested held)
    (hq : ∃ p ∈ sealed, p.messageId = q.messageId ∧ p.content = q.content) {a : Except DartError Unit}
    {held' : List MessagingService.Posted}
    (ht : Takes held q a held') : Ledger outbox sealed (q :: requested) held' where
  once := h.once
  queued := h.queued
  asked q' hm := by
    rcases List.mem_cons.mp hm with rfl | hm
    · exact hq
    · exact h.asked q' hm
  taken p hm := by
    cases ht with
    | taken =>
      rcases List.mem_cons.mp hm with rfl | hm
      · exact List.mem_cons_self
      · exact List.mem_cons_of_mem _ (h.taken p hm)
    | again => exact List.mem_cons_of_mem _ (h.taken p hm)
    | refused => exact List.mem_cons_of_mem _ (h.taken p hm)
  takenOnce := by
    cases ht with
    | taken _ new =>
      rw [List.map_cons, List.nodup_cons]
      exact ⟨new, h.takenOnce⟩
    | again => exact h.takenOnce
    | refused => exact h.takenOnce

theorem Takes.subset {a : Except DartError Unit} {held' : List MessagingService.Posted} (h : Takes held p a held') :
    held ⊆ held' := by
  cases h with
  | taken => exact List.subset_cons_self _ _
  | again => exact List.Subset.refl _
  | refused => exact List.Subset.refl _

/-- Where the server answers that it took a request, it holds it. -/
theorem Takes.mem {held' : List MessagingService.Posted} (h : Takes held p (.ok ()) held') : p ∈ held' := by
  cases h with
  | taken => exact List.mem_cons_self
  | again _ old => exact old

end Parts

/-! ## Steps -/

section Steps

variable {P : Primitives β} {codec : RatchetMessageCodec β} {honest : Prop} {s : App β}

theorem rows_upsert {φ ψ : Message → Prop} {l : List Message} {x : Message} (hx : ψ x)
    (h : ∀ m ∈ l, m.id ≠ x.id → φ m → ψ m) (hl : ∀ m ∈ l, φ m) : ∀ m ∈ LocalDatabase.upsert l x, ψ m := by
  intro m hm
  rcases LocalDatabase.mem_upsert.mp hm with rfl | ⟨hm, hne⟩
  · exact hx
  · exact h m hm hne (hl m hm)

theorem Inv.addContact {c : Contact} (h : Inv P codec honest s) (hc : c.Confirmed s.confirmed) :
    Inv P codec honest { s with db := s.db.addContact c } :=
  { h with stored := h.stored.addContact hc }

theorem Inv.addConversation {k : Conversation} (h : Inv P codec honest s)
    (hk : ∀ c ∈ k.participants, c.Confirmed s.confirmed) :
    Inv P codec honest { s with db := s.db.addConversation k, listed := k :: s.listed } :=
  { h with
    stored := h.stored.addConversation hk
    screens := h.screens.cons hk }

/-- A row is written that is not ours, or that is settled. -/
theorem Inv.addMessage {m : Message} (h : Inv P codec honest s)
    (hm : honest → m.senderId = "me" → Settled s.sealed s.held s.db.outbox m) :
    Inv P codec honest { s with db := s.db.addMessage m } :=
  { h with
    keyed := LocalDatabase.upsert_nodup h.keyed
    rows := fun hh => rows_upsert (hm hh) (fun _ _ _ hr => hr) (h.rows hh) }

/-- A session is stored. -/
theorem sessions_commit {confirmed : List String} {sessions : String → Option (SessionState β)} {key : String}
    {t : SessionState β} (h : ∀ key t, sessions key = some t → SessionWith P codec confirmed key t)
    (ht : SessionWith P codec confirmed key t) :
    ∀ key' u, Function.update sessions t.peerId (some t) key' = some u → SessionWith P codec confirmed key' u := by
  intro key' u hu
  rw [Function.update_apply] at hu
  split at hu
  case isTrue he =>
    obtain rfl := Option.some.inj hu
    obtain rfl := he.trans ht.peerId
    exact ht
  case isFalse => exact h key' u hu

variable {saved : Option (SessionState β)} {peer : Contact} {conversation messageId sender envelope : String}
  {payload : JsonMap} {fresh : X25519Seed β}

/-- A call of the codec on the session as it is stored. -/
structure Loaded (P : Primitives β) (s : App β) (saved : Option (SessionState β)) (peer : Contact) (conversation : String)
    (fresh : X25519Seed β) : Prop where
  saved : saved = s.db.sessions (sessionKey peer conversation)
  fresh : P.x25519Public fresh.1 ∉ s.publics
  peer : peer.Confirmed s.confirmed

theorem Loaded.sessionWith (hl : Loaded P s saved peer conversation fresh) (h : Inv P codec honest s) :
    ∀ t, saved = some t → SessionWith P codec s.confirmed (sessionKey peer conversation) t := by
  intro t ht
  exact h.sessions _ t (hl.saved.symm.trans ht)

/-- Where no session is stored nothing was released on it. -/
theorem Loaded.unused {a : Account β} (hl : Loaded P s saved peer conversation fresh)
    (ha : Refines P s.db.sessions s.publics s.sealed a) (hn : saved = none) :
    a.Unused P codec (sessionKey peer conversation) := by
  intro r hr hk
  have := ha.kept r hr
  rw [hk, ← hl.saved] at this
  exact absurd hn this

theorem Loaded.loads {a : Account β} (hl : Loaded P s saved peer conversation fresh)
    (ha : Refines P s.db.sessions s.publics s.sealed a) : a.Loads P saved (sessionKey peer conversation) fresh where
  saved := Or.inr (by rw [hl.saved, ha.stored])
  fresh := by
    rw [ha.seen]
    exact hl.fresh

theorem kept_commit {sessions : String → Option (SessionState β)} {rs : List (Release β)} {t : SessionState β}
    (h : ∀ r ∈ rs, sessions r.key ≠ none) : ∀ r ∈ rs, Function.update sessions t.peerId (some t) r.key ≠ none := by
  intro r hr
  rw [Function.update_apply]
  split
  · exact Option.some_ne_none _
  · exact h r hr

/-- The commit of `encrypt`: a session, a pending row and its envelope. -/
theorem Inv.commitOutgoing {m : Message} {r : Sealed β} (h : Inv P codec honest s)
    (hl : Loaded P s saved peer m.conversationId fresh) (hid : m.id ∉ s.sealed.map MessagingService.Posted.messageId)
    (hm : m.isSent = false)
    (hrun : codec.encrypt P saved peer m.conversationId m.id sender payload fresh = .ok r) :
    Inv P codec honest { s with
      db := s.db.commitOutgoingMessage r.state m r.envelope
      publics := s.seen r.state
      sealed := ⟨m.conversationId, r.envelope, m.id⟩ :: s.sealed } := by
  have hsession := SessionWith.encrypt (hl.sessionWith h) hl.peer hrun
  have hledger := Ledger.seal (p := ⟨m.conversationId, r.envelope, m.id⟩) h.ledger hid
  refine { h with
    sessions := sessions_commit h.sessions hsession
    keyed := LocalDatabase.upsert_nodup h.keyed
    account := ?_
    ledger := hledger
    rows := fun hh => rows_upsert (fun _ => ⟨fun _ => ?_, fun hs => ?_⟩)
      (fun x _ hne hx hme => ⟨fun hs => ?_, fun hs p hp he => ?_⟩) (h.rows hh)
    exact := fun hh q hq => List.mem_cons_of_mem _ (h.exact hh q hq) }
  · obtain ⟨a, hr, ha⟩ := h.account
    refine ⟨_, hr.step (c := .encrypt saved peer m.conversationId m.id sender payload fresh)
      (fun hn _ => hl.unused ha hn) (.encrypt (hl.loads ha) hrun), ?_, ?_, ?_, ?_⟩
    · show Function.update a.sessions r.state.peerId (some r.state) = _
      rw [ha.stored]
      rfl
    · show r.state.ourPublicKey :: r.state.remotePublicKey :: a.publics = _
      rw [ha.seen]
      rfl
    · obtain ⟨-, -, -, haad, hplain, body, hbody, henv⟩ := RatchetMessageCodec.encrypt_inv hrun
      refine List.Forall₂.cons ⟨sender, body, henv, ?_⟩ ha.carried
      rw [← hplain, ← haad]
      exact hbody
    · intro r' hr'
      rcases List.mem_cons.mp hr' with rfl | hr'
      · show Function.update s.db.sessions r.state.peerId (some r.state) (sessionKey peer m.conversationId) ≠ none
        rw [← hsession.peerId, Function.update_self]
        exact Option.some_ne_none _
      · exact kept_commit ha.kept r' hr'
  · exact ⟨_, List.mem_cons_self, rfl, rfl, Function.update_self _ _ _⟩
  · rw [hm] at hs
    cases hs
  · obtain ⟨p, hp, h1, h2, h3⟩ := (hx hme).pending hs
    refine ⟨p, List.mem_cons_of_mem _ hp, h1, h2, ?_⟩
    show Function.update s.db.outbox m.id (some r.envelope) x.id = _
    rw [Function.update_of_ne hne]
    exact h3
  · rcases List.mem_cons.mp hp with rfl | hp
    · exact absurd he.symm hne
    · exact (hx hme).sent hs p hp he

/-- The commit of `decrypt`: a session and a row of a peer. -/
theorem Inv.commitReceived {m : Message} {r : Opened β} (h : Inv P codec honest s)
    (hl : Loaded P s saved peer conversation fresh) (hm : honest → m.senderId ≠ "me")
    (hrun : codec.decrypt P saved peer conversation messageId sender envelope fresh = .ok r) :
    Inv P codec honest { s with db := s.db.commitReceivedMessage r.state m, publics := s.seen r.state } := by
  refine { h with
    sessions := sessions_commit h.sessions (SessionWith.decrypt (hl.sessionWith h) hl.peer hrun)
    keyed := LocalDatabase.upsert_nodup h.keyed
    account := ?_
    rows := fun hh => rows_upsert (fun hme => absurd hme (hm hh)) (fun _ _ _ hr => hr) (h.rows hh) }
  obtain ⟨a, hr, ha⟩ := h.account
  refine ⟨_, hr.step (c := .decrypt saved peer conversation messageId sender envelope fresh)
    (fun hn _ => Or.inl (hl.unused ha hn)) (.decrypt (hl.loads ha) hrun), ?_, ?_, ha.carried, kept_commit ha.kept⟩
  · show Function.update a.sessions r.state.peerId (some r.state) = _
    rw [ha.stored]
    rfl
  · show r.state.ourPublicKey :: r.state.remotePublicKey :: a.publics = _
    rw [ha.seen]
    rfl

/-- The server was asked to take an envelope. -/
theorem Inv.request {q : MessagingService.Posted} (h : Inv P codec honest s)
    (hq : ∃ p ∈ s.sealed, p.messageId = q.messageId ∧ p.content = q.content) (hh : honest → q ∈ s.sealed)
    {a : Except DartError Unit} {held : List MessagingService.Posted} (ht : Takes s.held q a held) :
    Inv P codec honest { s with requested := q :: s.requested, held } :=
  { h with
    ledger := h.ledger.request hq ht
    rows := fun hon m hm hme => ⟨((h.rows hon) m hm hme).pending, fun hs p hp he =>
      ht.subset (((h.rows hon) m hm hme).sent hs p hp he)⟩
    exact := fun hon q' hq' => (List.mem_cons.mp hq').elim (fun he => he ▸ hh hon) (h.exact hon q') }

/-- A message of ours that the server holds is marked. -/
theorem Inv.commitSent {m : Message} (h : Inv P codec honest s)
    (hm : honest → m.isSent = true ∧ ∀ p ∈ s.sealed, p.messageId = m.id → p ∈ s.held) :
    Inv P codec honest { s with db := s.db.commitMessageSent m } := by
  refine { h with
    keyed := LocalDatabase.upsert_nodup h.keyed
    ledger := h.ledger.sent m.id
    rows := fun hh => rows_upsert (fun _ => ⟨fun hs => ?_, fun _ => (hm hh).2⟩) (fun x _ hne hx hme => ⟨fun hs => ?_,
      (hx hme).sent⟩) (h.rows hh) }
  · rw [(hm hh).1] at hs
    cases hs
  · obtain ⟨p, hp, h1, h2, h3⟩ := (hx hme).pending hs
    refine ⟨p, hp, h1, h2, ?_⟩
    show Function.update s.db.outbox m.id none x.id = _
    rw [Function.update_of_ne hne]
    exact h3

end Steps

/-! ## Steps of the screens -/

section Screens

variable {P : Primitives β} {codec : RatchetMessageCodec β} {honest : Prop} {s s' : App β}

/-- The user compares an identity. -/
theorem Inv.confirm (h : Inv P codec honest s) (hex : String) :
    Inv P codec honest { s with confirmed := hex :: s.confirmed } :=
  { h with
    stored := h.stored.mono (List.subset_cons_self _ _)
    screens := h.screens.mono (List.subset_cons_self _ _)
    sessions := fun key t ht => (h.sessions key t ht).mono (List.subset_cons_self _ _) }

theorem Inv.hold {c : Contact} (h : Inv P codec honest s) (hc : c.Confirmed s.confirmed) :
    Inv P codec honest { s with shown := c :: s.shown } :=
  { h with screens := h.screens.consContact hc }

theorem Inv.delete (h : Inv P codec honest s) {messages : List Message} {conversations : List Conversation}
    (hm : messages.Sublist s.db.messages)
    (hk : ∀ k ∈ conversations, k ∈ s.db.conversations ∨ ∀ c ∈ k.participants, c.Confirmed s.confirmed) :
    Inv P codec honest { s with db := { s.db with messages, conversations } } :=
  { h with
    stored := h.stored.update (fun _ hc => Or.inl hc) hk
    keyed := h.keyed.sublist (hm.map _)
    rows := fun hh m hin => h.rows hh m (hm.subset hin) }

/-- A step of a screen keeps the invariant. -/
theorem UserStep.inv (hs : UserStep s s') (h : Inv P codec honest s) : Inv P codec honest s' := by
  cases hs with
  | contacts =>
    refine { h with screens := h.screens.update (fun c hc => ?_) fun _ hk => Or.inl hk }
    exact (List.mem_append.mp hc).symm.imp_right (h.stored.contacts c)
  | conversations =>
    refine { h with screens := h.screens.update (fun _ hc => Or.inl hc) fun k hk => ?_ }
    exact (List.mem_append.mp hk).symm.imp_right (h.stored.participants k)
  | @verify c hc =>
    have hc : Contact.Confirmed (c.chhayaId.publicKey :: s.confirmed)
        { c with isVerified := true, verificationLevel := 3 } := fun _ => List.mem_cons_self
    exact ((h.confirm _).addContact hc).hold hc
  | @toggleBlock c hc blocked =>
    have hc : Contact.Confirmed s.confirmed { c with isBlocked := blocked } := fun hv => h.screens.contacts c hc hv
    exact (h.addContact hc).hold hc
  | addContact hv => exact h.addContact fun hv' => absurd (hv.symm.trans hv') Bool.false_ne_true
  | @startChat c hc k hk =>
    refine h.addConversation fun c' hc' => ?_
    rw [hk] at hc'
    obtain rfl := List.mem_singleton.mp hc'
    exact h.screens.contacts _ hc
  | @pin k hk pinned => exact h.addConversation (h.screens.participants k hk)
  | deleteConversation id => exact h.delete (List.Sublist.refl _) fun k hk => Or.inl (List.mem_filter.mp hk).1
  | deleteMessages conversationId => exact h.delete List.filter_sublist fun _ hk => Or.inl hk
  | deleteParticipants conversationId =>
    refine h.delete (List.Sublist.refl _) fun k hk => ?_
    obtain ⟨r, hr, rfl⟩ := List.mem_map.mp hk
    split
    · exact Or.inr fun c hc => (List.not_mem_nil hc).elim
    · exact Or.inl hr
  | deleteMessage id => exact h.delete List.filter_sublist fun _ hk => Or.inl hk
  | markRead hm => exact h.addMessage fun _ hme => absurd hme hm

end Screens

end App

end Chhaya
