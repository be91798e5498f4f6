import Chhaya.Codec.Channel
import Chhaya.Codec.Storage
import Chhaya.Ratchet.Receiving

/-!
# Whole calls of the codec

A call of `encrypt` or `decrypt` from the load of the session to its end. It works on a session object, which a step that
throws leaves half way and `finally` wipes; what is stored changes only where the call commits, and a callback that throws
may have stored something by then.

- `EncryptCall.run_eq`, `DecryptCall.run_eq`: a call stores what `encrypt` and `decrypt` compute from what it loaded.
- `decrypt_fresh`: what an envelope decrypts to does not depend on the key pair that is drawn.
- `failed_call_harmless`: a call that throws leaves what is stored, and with it what every envelope decrypts to, where its
  callback is atomic.
- `failed_call_stores`: a callback that saves the session and throws.
-/

namespace Chhaya

variable {β : Type}

/-! ## Calls -/

/-- A `commit` callback: whether it returns or throws, and what is stored then. What it stores beside the session is the
caller's. -/
abbrev Commit (storage : SessionStorage β) (ω : Type) :=
  SessionState β → ω → storage.Sessions → Except DartError Unit × storage.Sessions

/-- A callback that writes in one transaction, as `commitReceivedMessage` and `commitOutgoingMessage`: what throws in it is
rolled back. -/
def Commit.transaction {storage : SessionStorage β} {ω : Type}
    (writes : SessionState β → ω → storage.Sessions → Except DartError storage.Sessions) : Commit storage ω :=
  fun state out sessions =>
    match writes state out sessions with
    | .ok sessions' => (.ok (), sessions')
    | .error e => (.error e, sessions)

/-- A callback that throws has stored nothing. -/
def Commit.Atomic {storage : SessionStorage β} {ω : Type} (commit : Commit storage ω) : Prop :=
  ∀ {state : SessionState β} {out : ω} {sessions sessions' : storage.Sessions} {e : DartError},
    commit state out sessions = (.error e, sessions') → sessions' = sessions

/-- A call in progress: what is stored, and the session object that it works on. -/
structure Live (storage : SessionStorage β) where
  sessions : storage.Sessions
  state : SessionState β

abbrev CallM (storage : SessionStorage β) := EStateM DartError (Live storage)

/-- `wipe`. -/
def SessionState.wipe (P : Primitives β) (s : SessionState β) : SessionState β :=
  { s with
    rootKey := zeros P s.rootKey.length
    sendChainKey := zeros P s.sendChainKey.length
    recvChainKey := zeros P s.recvChainKey.length
    ourPrivateKey := zeros P s.ourPrivateKey.length
    spqrSeed := zeros P s.spqrSeed.length
    skipped := ∅ }

section Calls

variable {storage : SessionStorage β} {α ω : Type} (P : Primitives β)

/-- A step of the ratchet on the session object. -/
def onState (x : RatchetM β α) : CallM storage α := fun live =>
  match x live.state with
  | .ok a s => .ok a { live with state := s }
  | .error e s => .error e { live with state := s }

/-- What throws without a change. -/
def orThrow (x : Except DartError α) : CallM storage α := fun live =>
  match x with
  | .ok a => .ok a live
  | .error e => .error e live

/-- `finally`: the session object is wiped. -/
def wiping (x : CallM storage α) : CallM storage α := fun live =>
  match x live with
  | .ok a l => .ok a { l with state := l.state.wipe P }
  | .error e l => .error e { l with state := l.state.wipe P }

/-- What `commit` or `saveSession` makes of what is stored. -/
def store (commit : Option (Commit storage ω)) (state : SessionState β) (out : ω) (sessions : storage.Sessions) :
    Except DartError Unit × storage.Sessions :=
  match commit with
  | some commit => commit state out sessions
  | none => Commit.transaction (fun state _ => storage.saveSession state) state out sessions

/-- The end of a call. -/
def committing (commit : Option (Commit storage ω)) (out : ω) : CallM storage ω := fun live =>
  match store commit live.state out live.sessions with
  | (.ok _, sessions) => .ok out { live with sessions := sessions }
  | (.error e, sessions) => .error e { live with sessions := sessions }

/-- `_state`. -/
def loadState (codec : RatchetMessageCodec β) (peer : Contact) (conversation : String) (fresh : X25519Seed β)
    (sessions : storage.Sessions) : Except DartError (SessionState β) := do
  if !peer.isVerified then
    throw (.state "Verify this contact using their QR code first")
  codec.state P (← storage.loadSession sessions (sessionKey peer conversation)) peer conversation fresh

/-- What a call returns or throws, and what is stored then. -/
def finished : EStateM.Result DartError (Live storage) α → Except DartError α × storage.Sessions
  | .ok a live => (.ok a, live.sessions)
  | .error e live => (.error e, live.sessions)

/-- A call on the session object that `_state` returns. -/
def onSession (state : Except DartError (SessionState β)) (body : CallM storage α) (sessions : storage.Sessions) :
    Except DartError α × storage.Sessions :=
  match state with
  | .error e => (.error e, sessions)
  | .ok s => finished (body ⟨sessions, s⟩)

/-- The arguments of `encrypt`. `jsonEncode` may throw on the payload. -/
structure EncryptCall (storage : SessionStorage β) where
  peer : Contact
  conversation : String
  messageId : String
  sender : String
  payload : Except DartError JsonMap
  commit : Option (Commit storage String)
  fresh : X25519Seed β

/-- `encrypt`. -/
def EncryptCall.run (codec : RatchetMessageCodec β) (c : EncryptCall storage) (sessions : storage.Sessions) :
    Except DartError String × storage.Sessions :=
  onSession (loadState P codec c.peer c.conversation c.fresh sessions) (do
    let (header, keys) ← onState (TripleRatchet.encrypt P c.fresh)
    wiping P do
      let aad := RatchetMessageCodec.aad c.conversation c.messageId c.sender ++ header.toBytes
      let payload ← orThrow c.payload
      let bytes ← orThrow (AesGcm.encryptBytes P keys.messageKey (utf8Encode (jsonEncode (.obj payload.fields))) keys.nonce aad)
      committing c.commit (RatchetMessageCodec.envelopeText header.toBytes bytes)) sessions

/-- The arguments of `decrypt`. -/
structure DecryptCall (storage : SessionStorage β) where
  peer : Contact
  conversation : String
  messageId : String
  sender : String
  envelope : String
  commit : Option (Commit storage JsonFields)
  fresh : X25519Seed β

/-- `decrypt`. -/
def DecryptCall.run (codec : RatchetMessageCodec β) (c : DecryptCall storage) (sessions : storage.Sessions) :
    Except DartError JsonFields × storage.Sessions :=
  match RatchetMessageCodec.wireOf c.envelope with
  | .error e => (.error e, sessions)
  | .ok (wire, headerBytes) =>
    onSession (loadState P codec c.peer c.conversation c.fresh sessions) (do
      let header ← orThrow (TripleHeader.fromBytes headerBytes)
      let keys ← onState (TripleRatchet.decrypt P c.fresh header)
      wiping P do
        let aad := RatchetMessageCodec.aad c.conversation c.messageId c.sender ++ headerBytes
        let text ← orThrow (asString (field wire "body"))
        let body ← orThrow (base64Decode text)
        let plain ← orThrow (AesGcm.decryptBytes P keys.messageKey body aad)
        let payload ← orThrow (decodeMap plain)
        committing c.commit payload) sessions

/-! ## What a call does -/

variable {P} {codec : RatchetMessageCodec β} {γ : Type} {sessions sessions' : storage.Sessions}

/-- What a call returns and stores that has computed a session and a result. -/
def settle (commit : Option (Commit storage ω)) (sessions : storage.Sessions) :
    Except DartError (SessionState β × ω) → Except DartError ω × storage.Sessions
  | .error e => (.error e, sessions)
  | .ok (state, out) =>
    match store commit state out sessions with
    | (.ok _, sessions') => (.ok out, sessions')
    | (.error e, sessions') => (.error e, sessions')

theorem bind_ok {ε α γ : Type} (a : α) (f : α → Except ε γ) : ((.ok a : Except ε α) >>= f) = f a := rfl

theorem loadState_eq {peer : Contact} {conversation : String} {fresh : X25519Seed β} {saved : Option (SessionState β)}
    (h : storage.loadSession sessions (sessionKey peer conversation) = .ok saved) :
    loadState P codec peer conversation fresh sessions = codec.state P saved peer conversation fresh := by
  unfold loadState
  rw [h]
  cases hv : peer.isVerified with
  | true => rfl
  | false =>
    unfold RatchetMessageCodec.state
    rw [hv]
    rfl

/-- The end of a call in progress. -/
theorem finished_wiping (commit : Option (Commit storage ω)) (out : ω) (s : SessionState β) :
    finished (wiping P (committing commit out) ⟨sessions, s⟩) = settle commit sessions (.ok (s, out)) := by
  rcases hs : store commit s out sessions with ⟨_ | _, sessions'⟩ <;> simp only [wiping, committing, settle, finished, hs]

section Finished

variable {f : α → CallM storage γ} {l : Live storage} {a : α} {e : DartError}

theorem finished_orThrow_ok : finished ((orThrow (.ok a) >>= f) l) = finished (f a l) := rfl

theorem finished_wiping_ok : finished (wiping P (orThrow (.ok a) >>= f) l) = finished (wiping P (f a) l) := rfl

theorem finished_wiping_error : finished (wiping P (orThrow (.error e) >>= f) l) = (.error e, l.sessions) := rfl

theorem finished_onState_ok {x : RatchetM β α} {s s' : SessionState β} (h : x.run s = .ok a s') :
    finished ((onState x >>= f) ⟨sessions, s⟩) = finished (f a ⟨sessions, s'⟩) := by
  have hx : onState x ⟨sessions, s⟩ = .ok a ⟨sessions, s'⟩ := by
    unfold onState
    simp only [show x s = .ok a s' from h]
  show finished (EStateM.bind (onState x) f _) = _
  unfold EStateM.bind
  rw [hx]

theorem finished_onState_error {x : RatchetM β α} {s s' : SessionState β} (h : x.run s = .error e s') :
    finished ((onState x >>= f) ⟨sessions, s⟩) = (.error e, sessions) := by
  have hx : onState x ⟨sessions, s⟩ = .error e ⟨sessions, s'⟩ := by
    unfold onState
    simp only [show x s = .error e s' from h]
  show finished (EStateM.bind (onState x) f _) = _
  unfold EStateM.bind
  rw [hx]
  rfl

end Finished

/-- `decrypt` stores what the codec computes from what it loaded. -/
theorem DecryptCall.run_eq {c : DecryptCall storage} {saved : Option (SessionState β)}
    (h : storage.loadSession sessions (sessionKey c.peer c.conversation) = .ok saved) :
    c.run P codec sessions = settle c.commit sessions ((fun r => (r.state, r.payload)) <$>
      codec.decrypt P saved c.peer c.conversation c.messageId c.sender c.envelope c.fresh) := by
  unfold run RatchetMessageCodec.decrypt
  cases hw : RatchetMessageCodec.wireOf c.envelope with
  | error e => rfl
  | ok w =>
    obtain ⟨wire, headerBytes⟩ := w
    simp only [onSession, loadState_eq h, bind_ok]
    cases hs : codec.state P saved c.peer c.conversation c.fresh with
    | error e => rfl
    | ok s =>
      cases hh : TripleHeader.fromBytes headerBytes with
      | error e => rfl
      | ok header =>
        cases hr : (TripleRatchet.decrypt P c.fresh header).run s with
        | error e s' =>
          simp only [finished_orThrow_ok, finished_onState_error hr, bind_ok, hr]
          rfl
        | ok keys s' =>
          simp only [finished_orThrow_ok, finished_onState_ok hr, bind_ok, hr]
          cases ht : asString (field wire "body") with
          | error e => rfl
          | ok text =>
            cases hb : base64Decode text with
            | error e => simp only [finished_wiping_ok, bind_ok, hb]; rfl
            | ok body =>
              cases hp : AesGcm.decryptBytes P keys.messageKey body
                  (RatchetMessageCodec.aad c.conversation c.messageId c.sender ++ headerBytes) with
              | error e => simp only [finished_wiping_ok, bind_ok, hb, hp]; rfl
              | ok plain =>
                cases hd : decodeMap plain with
                | error e => simp only [finished_wiping_ok, bind_ok, hb, hp, hd]; rfl
                | ok payload =>
                  simp only [finished_wiping_ok, finished_wiping, bind_ok, hb, hp, hd]
                  rfl

/-- `encrypt` stores what the codec computes from what it loaded. -/
theorem EncryptCall.run_eq {c : EncryptCall storage} {saved : Option (SessionState β)} {payload : JsonMap}
    (h : storage.loadSession sessions (sessionKey c.peer c.conversation) = .ok saved) (hp : c.payload = .ok payload) :
    c.run P codec sessions = settle c.commit sessions ((fun r => (r.state, r.envelope)) <$>
      codec.encrypt P saved c.peer c.conversation c.messageId c.sender payload c.fresh) := by
  unfold run RatchetMessageCodec.encrypt
  simp only [onSession, loadState_eq h, hp]
  cases hs : codec.state P saved c.peer c.conversation c.fresh with
  | error e => rfl
  | ok s =>
    cases hr : (TripleRatchet.encrypt P c.fresh).run s with
    | error e s' =>
      simp only [finished_onState_error hr, bind_ok, hr]
      rfl
    | ok step s' =>
      obtain ⟨header, keys⟩ := step
      simp only [finished_onState_ok hr, bind_ok, hr]
      cases hb : AesGcm.encryptBytes P keys.messageKey (utf8Encode (jsonEncode (.obj payload.fields))) keys.nonce
          (RatchetMessageCodec.aad c.conversation c.messageId c.sender ++ header.toBytes) with
      | error e => simp only [finished_wiping_ok, hb]; rfl
      | ok bytes =>
        simp only [finished_wiping_ok, finished_wiping, bind_ok, hb]
        rfl

/-- What cannot be written as JSON is not sent. -/
theorem EncryptCall.run_payload_error (codec : RatchetMessageCodec β) (sessions : storage.Sessions)
    {c : EncryptCall storage} {e : DartError} (hp : c.payload = .error e) :
    ∃ e', c.run P codec sessions = (.error e', sessions) := by
  unfold run
  cases loadState P codec c.peer c.conversation c.fresh sessions with
  | error e' => exact ⟨e', rfl⟩
  | ok s =>
    cases hr : (TripleRatchet.encrypt P c.fresh).run s with
    | error e' s' => exact ⟨e', finished_onState_error hr⟩
    | ok step s' =>
      refine ⟨e, ?_⟩
      show finished ((onState (TripleRatchet.encrypt P c.fresh) >>= _) _) = _
      rw [finished_onState_ok hr, hp]
      exact finished_wiping_error

/-! ## Calls that throw -/

theorem Commit.transaction_atomic (writes : SessionState β → ω → storage.Sessions → Except DartError storage.Sessions) :
    (Commit.transaction writes).Atomic := by
  intro state out sessions sessions' e h
  unfold Commit.transaction at h
  cases hw : writes state out sessions with
  | ok s => rw [hw] at h; cases h
  | error e' => rw [hw] at h; cases h; rfl

/-- The callback threw, and left `sessions'`. -/
def Threw (commit : Option (Commit storage ω)) (sessions sessions' : storage.Sessions) : Prop :=
  ∃ c ∈ commit, ∃ state out e, c state out sessions = (.error e, sessions')

/-- An atomic callback leaves what is stored where it throws. -/
theorem Threw.unchanged {commit : Option (Commit storage ω)} (h : Threw commit sessions sessions')
    (ha : ∀ c ∈ commit, c.Atomic) : sessions' = sessions := by
  obtain ⟨c, hc, state, out, e, h⟩ := h
  exact ha c hc h

/-- What is stored where the callback, or `saveSession` in its place, throws. -/
theorem store_error {commit : Option (Commit storage ω)} {state : SessionState β} {out : ω} {e : DartError}
    (h : store commit state out sessions = (.error e, sessions')) :
    sessions' = sessions ∨ Threw commit sessions sessions' := by
  cases commit with
  | none => exact Or.inl (@Commit.transaction_atomic _ _ _ (fun state _ => storage.saveSession state) state out _ _ _ h)
  | some c => exact Or.inr ⟨c, rfl, state, out, e, h⟩

theorem settle_error {commit : Option (Commit storage ω)} {x : Except DartError (SessionState β × ω)} {e : DartError}
    (h : settle commit sessions x = (.error e, sessions')) : sessions' = sessions ∨ Threw commit sessions sessions' := by
  unfold settle at h
  cases x with
  | error e =>
    cases h
    exact Or.inl rfl
  | ok r =>
    rcases hs : store commit r.1 r.2 sessions with ⟨_ | _, s⟩
    · simp only [hs] at h
      cases h
      exact store_error hs
    · simp only [hs] at h
      cases h

/-- A session that cannot be loaded ends the call. -/
theorem loadState_error (codec : RatchetMessageCodec β) (fresh : X25519Seed β) {peer : Contact} {conversation : String}
    {e : DartError} (h : storage.loadSession sessions (sessionKey peer conversation) = .error e) :
    ∃ e', loadState P codec peer conversation fresh sessions = .error e' := by
  unfold loadState
  rw [h]
  cases peer.isVerified <;> exact ⟨_, rfl⟩

/-- An `encrypt` that throws stores nothing, unless its callback does. -/
theorem EncryptCall.run_error {c : EncryptCall storage} {e : DartError}
    (h : c.run P codec sessions = (.error e, sessions')) : sessions' = sessions ∨ Threw c.commit sessions sessions' := by
  cases hp : c.payload with
  | error e₁ =>
    obtain ⟨e₂, hrun⟩ := run_payload_error (P := P) codec sessions hp
    rw [hrun] at h
    cases h
    exact Or.inl rfl
  | ok payload =>
    cases hl : storage.loadSession sessions (sessionKey c.peer c.conversation) with
    | ok saved =>
      rw [run_eq hl hp] at h
      exact settle_error h
    | error e₁ =>
      obtain ⟨e₂, hs⟩ := loadState_error (P := P) codec c.fresh hl
      unfold run at h
      rw [hs] at h
      cases h
      exact Or.inl rfl

/-- A `decrypt` that throws stores nothing, unless its callback does. -/
theorem DecryptCall.run_error {c : DecryptCall storage} {e : DartError}
    (h : c.run P codec sessions = (.error e, sessions')) : sessions' = sessions ∨ Threw c.commit sessions sessions' := by
  cases hl : storage.loadSession sessions (sessionKey c.peer c.conversation) with
  | ok saved =>
    rw [run_eq hl] at h
    exact settle_error h
  | error e₁ =>
    obtain ⟨e₂, hs⟩ := loadState_error (P := P) codec c.fresh hl
    unfold run at h
    cases hw : RatchetMessageCodec.wireOf c.envelope with
    | error e =>
      rw [hw] at h
      cases h
      exact Or.inl rfl
    | ok w =>
      rw [hw] at h
      simp only [hs] at h
      cases h
      exact Or.inl rfl

end Calls

/-! ## The drawn key pair -/

section Fresh

variable {P : Primitives β}

/-- The session that `_state` opens has the account's own key pair. -/
theorem state_fresh {codec : RatchetMessageCodec β} {saved : Option (SessionState β)} {peer : Contact}
    {conversation : String} (fresh fresh' : X25519Seed β) :
    codec.state P saved peer conversation fresh = codec.state P saved peer conversation fresh' := rfl

/-- What an envelope decrypts to does not depend on the key pair that is drawn. -/
theorem decrypt_fresh {codec : RatchetMessageCodec β} {saved : Option (SessionState β)} {peer : Contact}
    {conversation messageId sender envelope : String} {fresh : X25519Seed β} {r : Opened β} (fresh' : X25519Seed β)
    (h : codec.decrypt P saved peer conversation messageId sender envelope fresh = .ok r) :
    ∃ r', codec.decrypt P saved peer conversation messageId sender envelope fresh' = .ok r' ∧ r'.payload = r.payload := by
  unfold RatchetMessageCodec.decrypt at h ⊢
  obtain ⟨⟨wire, headerBytes⟩, hw, h⟩ := except_bind_ok h
  obtain ⟨s, hs, h⟩ := except_bind_ok h
  obtain ⟨header, hh, h⟩ := except_bind_ok h
  cases hr : (TripleRatchet.decrypt P fresh header).run s with
  | error e s' => simp only [hr] at h; cases h
  | ok keys s' =>
    simp only [hr] at h
    obtain ⟨t', ht⟩ := TripleRatchet.decrypt_fresh fresh' hr
    obtain ⟨text, hx, h⟩ := except_bind_ok h
    obtain ⟨body, hb, h⟩ := except_bind_ok h
    obtain ⟨plain, hp, h⟩ := except_bind_ok h
    obtain ⟨payload, hd, h⟩ := except_bind_ok h
    cases h
    refine ⟨⟨t', payload, header, keys, RatchetMessageCodec.aad conversation messageId sender ++ headerBytes, plain⟩, ?_,
      rfl⟩
    simp only [hw, bind_ok, state_fresh fresh' fresh, hs, hh, ht, hx, hb, hp, hd]
    rfl

end Fresh

/-! ## Failed calls -/

section Failed

variable {storage : SessionStorage β} {P : Primitives β} {codec : RatchetMessageCodec β}
  {sessions sessions' : storage.Sessions}

/-- A call of either kind. -/
inductive CodecCall (storage : SessionStorage β)
  | encrypt (c : EncryptCall storage)
  | decrypt (c : DecryptCall storage)

/-- The callback of the call is atomic; `saveSession` in its place always is. -/
def CodecCall.Atomic : CodecCall storage → Prop
  | encrypt c => ∀ commit ∈ c.commit, commit.Atomic
  | decrypt c => ∀ commit ∈ c.commit, commit.Atomic

/-- The callback of the call threw, and left `sessions'`. -/
def CodecCall.CommitThrew : CodecCall storage → storage.Sessions → storage.Sessions → Prop
  | encrypt c => Threw c.commit
  | decrypt c => Threw c.commit

/-- The call throws, and `sessions'` is stored then. -/
def CodecCall.Throws (P : Primitives β) (codec : RatchetMessageCodec β) (sessions : storage.Sessions) :
    CodecCall storage → storage.Sessions → Prop
  | encrypt c, sessions' => ∃ e, c.run P codec sessions = (.error e, sessions')
  | decrypt c, sessions' => ∃ e, c.run P codec sessions = (.error e, sessions')

/-- A call that throws stores nothing, unless its callback does. -/
theorem CodecCall.Throws.stored {call : CodecCall storage} (h : call.Throws P codec sessions sessions') :
    sessions' = sessions ∨ call.CommitThrew sessions sessions' := by
  cases call with
  | encrypt c =>
    obtain ⟨e, h⟩ := h
    exact EncryptCall.run_error h
  | decrypt c =>
    obtain ⟨e, h⟩ := h
    exact DecryptCall.run_error h

/-- A callback that is atomic stores nothing where it throws. -/
theorem CodecCall.CommitThrew.unchanged {call : CodecCall storage} (h : call.CommitThrew sessions sessions')
    (ha : call.Atomic) : sessions' = sessions := by
  cases call with
  | encrypt c => exact Threw.unchanged h ha
  | decrypt c => exact Threw.unchanged h ha

/-- The same envelope once more, with another commit and another key pair drawn. -/
def DecryptCall.again (c : DecryptCall storage) (commit : Option (Commit storage JsonFields)) (fresh : X25519Seed β) :
    DecryptCall storage := { c with commit, fresh }

/-- A `decrypt` that returns: the codec opened the envelope under the loaded session, and the commit went through. -/
theorem DecryptCall.run_ok {c : DecryptCall storage} {payload : JsonFields}
    (h : c.run P codec sessions = (.ok payload, sessions')) :
    ∃ saved r, storage.loadSession sessions (sessionKey c.peer c.conversation) = .ok saved ∧
      codec.decrypt P saved c.peer c.conversation c.messageId c.sender c.envelope c.fresh = .ok r ∧ r.payload = payload := by
  cases hl : storage.loadSession sessions (sessionKey c.peer c.conversation) with
  | error e =>
    obtain ⟨e', hs⟩ := loadState_error (P := P) codec c.fresh hl
    unfold run at h
    cases hw : RatchetMessageCodec.wireOf c.envelope with
    | error e => rw [hw] at h; cases h
    | ok w =>
      rw [hw] at h
      simp only [hs] at h
      cases h
  | ok saved =>
    rw [run_eq hl] at h
    cases hd : codec.decrypt P saved c.peer c.conversation c.messageId c.sender c.envelope c.fresh with
    | error e => rw [hd] at h; cases h
    | ok r =>
      refine ⟨saved, r, rfl, hd, ?_⟩
      rw [hd] at h
      change settle c.commit sessions (.ok (r.state, r.payload)) = _ at h
      unfold settle at h
      rcases hst : store c.commit r.state r.payload sessions with ⟨_ | _, st⟩
      · simp only [hst] at h
        cases h
      · simp only [hst] at h
        cases h
        rfl

/-- What decrypted decrypts to the same payload again, as long as the commit goes through. -/
theorem DecryptCall.run_again {c : DecryptCall storage} {payload : JsonFields}
    (h : c.run P codec sessions = (.ok payload, sessions')) {commit : Option (Commit storage JsonFields)}
    (hcommit : ∀ s, ∃ stored, store commit s payload sessions = (.ok (), stored)) (fresh : X25519Seed β) :
    ∃ stored, (c.again commit fresh).run P codec sessions = (.ok payload, stored) := by
  obtain ⟨saved, r, hl, hd, rfl⟩ := run_ok h
  obtain ⟨r', hd', hp⟩ := decrypt_fresh fresh hd
  obtain ⟨stored, hst⟩ := hcommit r'.state
  refine ⟨stored, ?_⟩
  have hrun : (c.again commit fresh).run P codec sessions = settle commit sessions ((fun r => (r.state, r.payload)) <$>
      codec.decrypt P saved c.peer c.conversation c.messageId c.sender c.envelope fresh) :=
    run_eq (c := c.again commit fresh) hl
  rw [hrun, hd']
  change settle commit sessions (.ok (r'.state, r'.payload)) = _
  unfold settle
  simp only [hp, hst]

/-- A call that throws leaves the stored sessions alone, or as its own callback has left them that threw. Where the callback
is atomic they are left alone, and every envelope that decrypted before decrypts to the same payload after it. -/
theorem failed_call_harmless {call : CodecCall storage} (h : call.Throws P codec sessions sessions') :
    (sessions' = sessions ∨ call.CommitThrew sessions sessions') ∧
    (call.Atomic → sessions' = sessions ∧
      ∀ (c : DecryptCall storage) (payload : JsonFields) (stored : storage.Sessions),
        c.run P codec sessions = (.ok payload, stored) → ∀ (commit : Option (Commit storage JsonFields)),
        (∀ s, ∃ stored', store commit s payload sessions' = (.ok (), stored')) → ∀ fresh,
        ∃ stored', (c.again commit fresh).run P codec sessions' = (.ok payload, stored')) := by
  refine ⟨h.stored, fun ha => ?_⟩
  obtain rfl : sessions' = sessions := h.stored.elim id fun hc => hc.unchanged ha
  exact ⟨rfl, fun c payload stored hrun commit hcommit fresh => DecryptCall.run_again hrun hcommit fresh⟩

/-- Sessions under their names, as they are. -/
def sessionTable : SessionStorage SymByte where
  Sessions := String → Option (SessionState SymByte)
  loadSession sessions peerId := .ok (sessions peerId)
  saveSession state sessions := .ok (Function.update sessions state.peerId (some state))

/-- No session is stored. -/
def emptyTable : sessionTable.Sessions := fun _ => none

/-- The call that decrypts the first message of a conversation. -/
def firstCall (envelope : String) (commit : Option (Commit sessionTable JsonFields)) : DecryptCall sessionTable :=
  ⟨octetContact 1, "conversation", "message", "sender", envelope, commit, octetSeed 4⟩

/-- There is such a message, and the call stores what its callback makes of the session. -/
theorem firstCall_run : ∃ (envelope : String) (o : Opened SymByte), ∀ commit,
    (firstCall envelope commit).run symbolic (octetCodec 2) emptyTable =
      settle commit emptyTable (.ok (o.state, o.payload)) := by
  obtain ⟨r, o, -, hdec, -⟩ := first_message "message" "sender" (textPayload "hello") (octetSeed 3) (octetSeed 4)
  refine ⟨r.envelope, o, fun commit => ?_⟩
  have hl : sessionTable.loadSession emptyTable
      (sessionKey (firstCall r.envelope commit).peer (firstCall r.envelope commit).conversation) = .ok none := rfl
  refine (DecryptCall.run_eq hl).trans ?_
  show settle commit emptyTable ((fun r => (r.state, r.payload)) <$> (octetCodec 2).decrypt symbolic none
    (octetContact 1) "conversation" "message" "sender" r.envelope (octetSeed 4)) = _
  rw [hdec]
  rfl

/-- A callback that saves the session and then throws; in a transaction what it saved is rolled back. -/
theorem failed_call_harmless_commit : ∃ (writes : SessionState SymByte → JsonFields → sessionTable.Sessions →
    Except DartError sessionTable.Sessions) (c : DecryptCall sessionTable) (sessions : sessionTable.Sessions)
    (payload : JsonFields) (stored : sessionTable.Sessions),
    c.commit = some (Commit.transaction writes) ∧
      (CodecCall.decrypt c).Throws symbolic (octetCodec 2) emptyTable sessions ∧ sessions = emptyTable ∧
      (c.again none (octetSeed 5)).run symbolic (octetCodec 2) sessions = (.ok payload, stored) := by
  obtain ⟨envelope, o, hrun⟩ := firstCall_run
  let writes : SessionState SymByte → JsonFields → sessionTable.Sessions → Except DartError sessionTable.Sessions :=
    fun state _ sessions => (sessionTable.saveSession state sessions).bind fun _ => .error (.state "disk full")
  have hthrow := hrun (some (Commit.transaction writes))
  have hatomic : (CodecCall.decrypt (firstCall envelope (some (Commit.transaction writes)))).Atomic := fun c hc => by
    obtain rfl := Option.some.inj hc
    exact Commit.transaction_atomic writes
  have hthrows : (CodecCall.decrypt (firstCall envelope (some (Commit.transaction writes)))).Throws symbolic (octetCodec 2)
      emptyTable _ := ⟨_, hthrow⟩
  obtain ⟨hsame, hagain⟩ := (failed_call_harmless hthrows).2 hatomic
  obtain ⟨stored, hstored⟩ := hagain _ _ _ (hrun none) none (fun s => ⟨_, rfl⟩) (octetSeed 5)
  exact ⟨writes, _, _, o.payload, stored, rfl, hthrows, hsame, hstored⟩

/-- A callback that saves the session and then throws, outside a transaction: the call throws, and the session is stored. -/
theorem failed_call_stores : ¬∀ (call : CodecCall sessionTable) (sessions sessions' : sessionTable.Sessions),
    call.Throws symbolic (octetCodec 2) sessions sessions' → sessions' = sessions := by
  intro h
  obtain ⟨envelope, o, hrun⟩ := firstCall_run
  have hthrow := hrun (some fun state _ sessions =>
    (.error (.state "disk full"), Function.update sessions state.peerId (some state)))
  have hsame := h (.decrypt _) _ _ ⟨_, hthrow⟩
  have hstored : (some o.state : Option (SessionState SymByte)) = none :=
    (Function.update_self o.state.peerId (some o.state) emptyTable).symm.trans (congrFun hsame o.state.peerId)
  cases hstored

end Failed

end Chhaya
