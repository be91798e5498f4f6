import Chhaya.Lib.Trace
import Chhaya.Server.Authorization
import Chhaya.Server.Calls

/-!
# Who owns a device

Four statements of the handlers write the table of devices, and a push that was refused clears tokens in it. A device keeps
its user, and its name, platform and push token are set only by requests that were authenticated as that user.

- `exec_deviceStep`: what a statement does to the table.
- `Pushed.kept`: what a refused push does to it.
- `handle_along`: a request writes devices only for the user it was authenticated as.
- `device_ownership`: every run of requests.
-/

namespace Chhaya

namespace Server

/-! ## Authenticated requests -/

/-- The calls that a request has made. -/
abbrev Answers := List (Async.Answered Op Ans ServerError)

/-- The claim was accepted: its challenge was consumed and holds the hash of its proof. -/
def Claim.Accepted (platform : Platform) (claim : Claim) (h : Answers) : Prop :=
  ⟨.sql (.consumeChallenge claim.challengeId claim.publicKey claim.deviceId claim.purpose),
    .ok (some (platform.tokenHash claim.identityProof))⟩ ∈ h

/-- A request that has made the calls `h` and makes the call `op` is authenticated as the user: its session token was
found to be the user's, it has proved the user's key and credential, or it has proved the key of the account that it
creates. -/
inductive AuthenticatedAs (platform : Platform) (call : Call) (h : Answers) (op : Op) (user : Uuid) : Prop
  | session {token : String} (ht : call.authorization.bind bearer = some token)
    (ha : ⟨.sql (.authenticate (platform.tokenHash token)), .ok (some user)⟩ ∈ h)
  | login {body : Option Json} {data : Login} {publicKey recoveryPhraseHash : String} (hb : call.request = .postLogin body)
    (hs : loginSchema body = .ok data) (hc : data.claim.Accepted platform h)
    (ha : ⟨.sql (.activeUser data.chhayaId), .ok (some (user, publicKey, recoveryPhraseHash))⟩ ∈ h)
    (hv : verifyCredential platform data.recoveryPhraseHash recoveryPhraseHash = true)
  | account {body : Option Json} {data : Register} {u : NewUser} {v : NewDevice} (hb : call.request = .postRegister body)
    (hs : registerSchema body = .ok data) (hc : data.claim.Accepted platform h)
    (hid : data.chhayaId = "05" ++ data.publicKey) (hu : u.id = user ∧ u.chhayaId = data.chhayaId)
    (ha : op = .sql (.insertAccount u v) ∨ ⟨.sql (.insertAccount u v), .ok ()⟩ ∈ h)

/-- A device is written only for a user whom the request is authenticated as. -/
def Entitled (platform : Platform) (call : Call) (h : Answers) (op : Op) : Prop :=
  ∀ user, op.deviceUser = some user → AuthenticatedAs platform call h op user

/-! ## The table -/

/-- Ids of devices are unique. -/
def Db.DeviceKeys (d : Db) : Prop := (d.devices.map DeviceRow.id).Nodup

/-- What one statement does to the table for users who satisfy `may`. -/
structure DeviceStep (may : Uuid → Prop) (d d' : Db) : Prop where
  keys : d'.DeviceKeys
  kept : ∀ v ∈ d.devices, ∃ v' ∈ d'.devices, v'.id = v.id ∧ v'.userId = v.userId
  set : ∀ v' ∈ d'.devices, (∃ v ∈ d.devices, v.id = v'.id ∧ v.deviceName = v'.deviceName ∧ v.platform = v'.platform ∧
    v.fcmToken = v'.fcmToken) ∨ may v'.userId

section Statements

variable {platform : Platform} {may : Uuid → Prop} {d d' : Db}

/-- The table is as it was. -/
theorem DeviceStep.same (hk : d.DeviceKeys) (h : d'.devices = d.devices) : DeviceStep may d d' := by
  refine ⟨?_, fun v hv => ⟨v, h ▸ hv, rfl, rfl⟩, fun v hv => Or.inl ⟨v, h ▸ hv, rfl, rfl, rfl, rfl⟩⟩
  rw [Db.DeviceKeys, h]
  exact hk

/-- A row is new. -/
theorem DeviceStep.insert (hk : d.DeviceKeys) {v : DeviceRow} (hv : ∀ r ∈ d.devices, r.id ≠ v.id) (hm : may v.userId)
    (h : d'.devices = v :: d.devices) : DeviceStep may d d' := by
  refine ⟨?_, fun r hr => ⟨r, h ▸ List.mem_cons_of_mem _ hr, rfl, rfl⟩, fun r hr => ?_⟩
  · rw [Db.DeviceKeys, h, List.map_cons, List.nodup_cons]
    refine ⟨fun hmem => ?_, hk⟩
    obtain ⟨r, hr, hid⟩ := List.mem_map.mp hmem
    exact hv r hr hid
  · rw [h] at hr
    rcases List.mem_cons.mp hr with rfl | hr
    · exact Or.inr hm
    · exact Or.inl ⟨r, hr, rfl, rfl, rfl, rfl⟩

/-- The row with an id is updated, which is its user's. -/
theorem DeviceStep.update (hk : d.DeviceKeys) {id : Uuid} {f : DeviceRow → DeviceRow}
    (hf : ∀ r, (f r).id = r.id ∧ (f r).userId = r.userId) {v : DeviceRow}
    (hv : (d.devices.find? fun r => r.id == id) = some v) (hm : may v.userId)
    (h : d'.devices = d.devices.map fun r => if r.id = id then f r else r) : DeviceStep may d d' := by
  have hsame : ∀ r : DeviceRow, (if r.id = id then f r else r).id = r.id ∧ (if r.id = id then f r else r).userId = r.userId := by
    intro r
    split
    · exact hf r
    · exact ⟨rfl, rfl⟩
  refine ⟨?_, fun r hr => ⟨_, h ▸ List.mem_map_of_mem hr, hsame r⟩, fun r' hr' => ?_⟩
  · have hids : (d.devices.map fun r => if r.id = id then f r else r).map DeviceRow.id = d.devices.map DeviceRow.id := by
      rw [List.map_map]
      exact List.map_congr_left fun r _ => (hsame r).1
    rw [Db.DeviceKeys, h, hids]
    exact hk
  · rw [h] at hr'
    obtain ⟨r, hr, rfl⟩ := List.mem_map.mp hr'
    by_cases hid : r.id = id
    · have hrv : r = v := by
        refine List.inj_on_of_nodup_map hk hr (List.mem_of_find?_eq_some hv) ?_
        have hvid : v.id = id := by simpa using List.find?_some hv
        exact hid.trans hvid.symm
      rw [if_pos hid, (hf r).2, hrv]
      exact Or.inr hm
    · rw [if_neg hid]
      exact Or.inl ⟨r, hr, rfl, rfl, rfl, rfl⟩

/-- A statement that writes no device. -/
theorem exec_deviceless {q : Sql} (hq : Deviceless (.sql q)) {x : q.Rows × Db} (h : exec platform d q = some x) :
    x.2.devices = d.devices := by
  refine (exec_frame h).devices ?_
  cases q with
  | insertAccount | registerFCMToken | upsertDevice | linkDevice => cases hq
  | _ => simp [Sql.writes]

/-- What a statement does to the table. -/
theorem exec_deviceStep (hk : d.DeviceKeys) {q : Sql} {x : q.Rows × Db} (h : exec platform d q = some x) :
    DeviceStep (fun user => (Op.sql q).deviceUser = some user) d x.2 := by
  by_cases hq : Deviceless (.sql q)
  · exact .same hk (exec_deviceless hq h)
  cases q with
  | insertAccount u v =>
    obtain ⟨deviceId, -, h⟩ := Option.bind_eq_some_iff.mp h
    obtain ⟨d', hd, h⟩ := Option.bind_eq_some_iff.mp h
    cases h
    unfold Db.insertAccount at hd
    split at hd
    · cases hd
    · rename_i hfree
      cases hd
      simp only [Bool.or_eq_true, List.any_eq_true, beq_iff_eq, not_or, not_exists, not_and] at hfree
      exact .insert hk (fun r hr => hfree.2 r hr) rfl rfl
  | registerFCMToken => cases h
  | upsertDevice v =>
    obtain ⟨deviceId, -, h⟩ := Option.bind_eq_some_iff.mp h
    cases h
    show DeviceStep _ d (d.upsertDevice v deviceId).2
    unfold Db.upsertDevice
    split
    · rename_i hfind
      exact .insert hk (fun r hr => by simpa using List.find?_eq_none.mp hfind r hr) rfl rfl
    · rename_i r hfind
      split
      · rename_i hu
        exact .update hk (f := fun r => ⟨r.id, r.userId, v.deviceName, v.platform, v.fcmToken, r.publicKey, d.now, r.isLinked⟩)
          (fun r => ⟨rfl, rfl⟩) hfind (congrArg some hu.symm) rfl
      · exact .same hk rfl
  | linkDevice v =>
    obtain ⟨deviceId, -, h⟩ := Option.bind_eq_some_iff.mp h
    cases h
    show DeviceStep _ d (d.linkDevice v deviceId).2
    unfold Db.linkDevice
    split
    · rename_i hfind
      exact .insert hk (fun r hr => by simpa using List.find?_eq_none.mp hfind r hr) rfl rfl
    · rename_i r hfind
      split
      · rename_i hu
        exact .update hk (f := fun r => { r with isLinked := true, lastActiveAt := d.now }) (fun r => ⟨rfl, rfl⟩) hfind
          (congrArg some hu.symm) rfl
      · exact .same hk rfl
  | _ => exact (hq rfl).elim

end Statements

/-! ## What a request was authenticated as -/

section Handlers

variable {platform : Platform} {call : Call} {h : Answers} {α : Type}

theorem Claim.Accepted.cons {claim : Claim} {x : Async.Answered Op Ans ServerError} (hc : claim.Accepted platform h) :
    claim.Accepted platform (x :: h) := List.mem_cons_of_mem _ hc

/-- A program of calls that write no device. -/
theorem Deviceless.along {p : Prog α} (hp : p.Every Deviceless) : p.Along (Entitled platform call) (fun _ _ => True) h :=
  hp.along fun op h hop user hu => by rw [hop] at hu; cases hu

/-- One call that writes no device. -/
theorem await_along {op : Op} {f : Ans op → Prog α} (hop : Deviceless op)
    (hf : ∀ a, (f a).Along (Entitled platform call) (fun _ _ => True) (⟨op, .ok a⟩ :: h)) :
    (Async.bind (Async.await op) f).Along (Entitled platform call) (fun _ _ => True) h := by
  refine ⟨fun user hu => ?_, fun a => ?_⟩
  · rw [hop] at hu
    cases hu
  · cases a with
    | ok a => exact hf a
    | error e => exact trivial

/-- One call that writes a device for a user whom the request is authenticated as. -/
theorem write_along {op : Op} {f : Ans op → Prog α} {user : Uuid} (hop : op.deviceUser = some user)
    (ha : AuthenticatedAs platform call h op user)
    (hf : ∀ a, (f a).Along (Entitled platform call) (fun _ _ => True) (⟨op, .ok a⟩ :: h)) :
    (Async.bind (Async.await op) f).Along (Entitled platform call) (fun _ _ => True) h := by
  refine ⟨fun user' hu => ?_, fun a => ?_⟩
  · rw [hop] at hu
    cases hu
    exact ha
  · cases a with
    | ok a => exact hf a
    | error e => exact trivial

/-- A body is parsed. -/
theorem parse_along {γ : Type} {s : Zod.Schema α} {j : Option Json} {f : α → Prog γ}
    (hf : ∀ a, s j = .ok a → (f a).Along (Entitled platform call) (fun _ _ => True) h) :
    ((parse s j).bind f).Along (Entitled platform call) (fun _ _ => True) h := by
  unfold parse
  cases hs : s j with
  | ok a => exact hf a hs
  | error issues => exact trivial

/-- Behind the session check the request is authenticated as the user. -/
theorem authMiddleware_along {next : Uuid → Prog Response}
    (hn : ∀ user h, (∀ op, AuthenticatedAs platform call h op user) →
      (next user).Along (Entitled platform call) (fun _ _ => True) h) :
    (authMiddleware platform call.authorization next).Along (Entitled platform call) (fun _ _ => True) h := by
  unfold authMiddleware
  cases ht : call.authorization.bind bearer with
  | none => exact trivial
  | some token =>
    show (Async.bind (authenticateToken platform token) _).Along _ _ _
    unfold authenticateToken
    split
    · refine await_along rfl fun found => ?_
      cases found with
      | none => exact trivial
      | some user => exact hn user _ fun op => .session ht List.mem_cons_self
    · exact trivial

/-- `POST /devices/link`. -/
theorem postLink_along {user : Uuid} (ha : ∀ op, AuthenticatedAs platform call h op user) (body : Option Json) :
    (postLink user body).Along (Entitled platform call) (fun _ _ => True) h := by
  refine parse_along fun data _ => write_along rfl (ha _) fun linked => ?_
  show Async.Along _ _ (if linked ≠ 1 then _ else _) _
  split <;> exact trivial

/-- The push token is for the user whom the request is authenticated as. -/
theorem registerToken_along {user : Uuid} {deviceId : String} {fcmToken : Option String} {f : Unit → Prog α}
    (ha : ∀ op, AuthenticatedAs platform call h op user)
    (hf : (f ()).Every Deviceless) :
    ((registerToken user deviceId fcmToken).bind f).Along (Entitled platform call) (fun _ _ => True) h := by
  unfold registerToken
  cases orNull fcmToken with
  | none => exact Deviceless.along hf
  | some token => exact write_along rfl (ha _) fun _ => Deviceless.along hf

theorem issueSession_every {user : Uuid} {claim : Claim} : (issueSession platform user claim).Every Deviceless :=
  .bind (.await rfl) fun _ => .bind (.await rfl) fun _ => trivial

/-- A challenge is consumed, and the claim is accepted or the request is refused. -/
theorem consume_along {claim : Claim} {f : Bool → Prog α}
    (hf : ∀ h, claim.Accepted platform h → (f true).Along (Entitled platform call) (fun _ _ => True) h)
    (hr : (f false).Every Deviceless) :
    ((consumeIdentityChallenge platform claim).bind f).Along (Entitled platform call) (fun _ _ => True) h := by
  unfold consumeIdentityChallenge
  rw [Async.bind_eq, Async.bind_assoc]
  refine await_along rfl fun hash => ?_
  cases hash with
  | none => exact Deviceless.along hr
  | some proofHash =>
    show (f (proofHash == platform.tokenHash claim.identityProof)).Along _ _ _
    cases hp : proofHash == platform.tokenHash claim.identityProof with
    | true =>
      refine hf _ ?_
      rw [beq_iff_eq.mp hp]
      exact List.mem_cons_self
    | false => exact Deviceless.along hr

/-- What is made of a result writes no device. -/
theorem attempt_along {γ : Type} {p : Prog α} {f : Except ServerError α → Prog γ}
    (hp : p.Along (Entitled platform call) (fun _ _ => True) h) (hf : ∀ r, (f r).Every Deviceless) :
    (p.attempt.bind f).Along (Entitled platform call) (fun _ _ => True) h :=
  Async.Along.bind (Async.Along.attempt (hp.mono fun r _ _ => Deviceless.along (hf r)))

theorem catching_along {failed : String} {p : Prog Response}
    (hp : p.Along (Entitled platform call) (fun _ _ => True) h) :
    (catching failed p).Along (Entitled platform call) (fun _ _ => True) h := by
  refine attempt_along hp fun r => ?_
  rcases r with (_ | _) | _ <;> exact trivial

/-- The account of a request whose claim was accepted. -/
theorem createAccount_along {body : Option Json} {data : Register} (hb : call.request = .postRegister body)
    (hs : registerSchema body = .ok data) (hc : data.claim.Accepted platform h) :
    (createAccount platform data).Along (Entitled platform call) (fun _ _ => True) h := by
  refine await_along rfl fun found => ?_
  show Async.Along _ _ (if found = true then _ else if data.chhayaId ≠ "05" ++ data.publicKey then _ else _) _
  split
  · exact trivial
  split
  · exact trivial
  rename_i hid
  refine await_along rfl fun userId => ?_
  show ((hashCredential platform data.recoveryPhraseHash).bind _).Along _ _ _
  unfold hashCredential
  rw [Async.bind_eq, Async.bind_assoc]
  refine await_along rfl fun salt => ?_
  refine write_along rfl (.account hb hs hc.cons.cons.cons (not_not.mp hid) ⟨rfl, rfl⟩ (Or.inl rfl)) fun _ => ?_
  refine registerToken_along (fun op => .account hb hs hc.cons.cons.cons.cons (not_not.mp hid) ⟨rfl, rfl⟩
    (Or.inr List.mem_cons_self)) ?_
  exact issueSession_every.bind fun _ => trivial

/-- `POST /auth/register`. -/
theorem postRegister_along {body : Option Json} (hb : call.request = .postRegister body) :
    (postRegister platform body).Along (Entitled platform call) (fun _ _ => True) h :=
  catching_along (parse_along fun _ hs => consume_along (fun _ hc => createAccount_along hb hs hc) trivial)

/-- The device and the session of a request whose claim and credential were accepted. -/
theorem openSession_along {data : Login} {user : Uuid} {publicKey : String}
    (ha : ∀ h', (∀ x ∈ h, x ∈ h') → ∀ op, AuthenticatedAs platform call h' op user) :
    (openSession platform data user publicKey).Along (Entitled platform call) (fun _ _ => True) h := by
  refine write_along rfl (ha _ (fun _ hx => hx) _) fun device => ?_
  show Async.Along _ _ (if device ≠ 1 then _ else _) _
  split
  · exact trivial
  · refine registerToken_along (fun op => ha _ (fun _ hx => List.mem_cons_of_mem _ hx) op) ?_
    exact .bind (.await rfl) fun _ => issueSession_every.bind fun _ => trivial

/-- `POST /auth/login`. -/
theorem postLogin_along {body : Option Json} (hb : call.request = .postLogin body) :
    (postLogin platform body).Along (Entitled platform call) (fun _ _ => True) h := by
  refine catching_along (parse_along fun data hs => consume_along (fun h hc => ?_) trivial)
  refine await_along rfl fun found => ?_
  rcases found with - | ⟨user, publicKey, recoveryPhraseHash⟩
  · exact trivial
  show Async.Along _ _ (if verifyCredential platform data.recoveryPhraseHash recoveryPhraseHash = true then _ else _) _
  split
  · rename_i hv
    exact openSession_along fun h' hh op => .login hb hs (hh _ (List.mem_cons_of_mem _ hc)) (hh _ List.mem_cons_self) hv
  · exact trivial

/-- A request writes devices only for the user it was authenticated as. -/
theorem handle_along (call : Call) (h : Answers) :
    (handle platform call).Along (Entitled platform call) (fun _ _ => True) h := by
  have plain : ∀ {p : Uuid → Prog Response} {h : Answers}, (∀ user, (p user).Every Conversational) →
      (authMiddleware platform call.authorization p).Along (Entitled platform call) (fun _ _ => True) h :=
    fun hp => Deviceless.along (authMiddleware_every (fun _ => rfl) fun user => (hp user).mono fun _ ho => ho.2)
  unfold handle
  cases hr : call.request with
  | postChallenge body => exact Deviceless.along (postChallenge_quiet.mono fun _ ho => ho.2)
  | postRegister body => exact postRegister_along hr
  | postLogin body => exact postLogin_along hr
  | postLogout => exact plain fun _ => postLogout_every
  | postContacts body => exact plain fun _ => postContacts_every
  | postConversations body => exact plain fun _ => postConversations_every
  | getConversations => exact plain fun _ => getConversations_every
  | postMessages body =>
    exact Deviceless.along (authMiddleware_every (fun _ => rfl) fun _ => postMessages_foreign.mono fun _ ho => ho.2)
  | getMessages => exact plain fun _ => getMessages_every
  | postRead => exact plain fun _ => postRead_every
  | postLink body => exact authMiddleware_along fun user h ha => postLink_along ha body

/-- Every request from its arrival to its response. -/
theorem serve_along (call : Call) (h : Answers) : (serve platform call).Along (Entitled platform call) (fun _ _ => True) h :=
  await_along rfl fun _ => attempt_along (handle_along call _) fun _ => trivial

end Handlers

/-! ## Every run -/

section Runs

variable {platform : Platform} {w w' : World}

/-- What an operation does to the table. -/
theorem Effect.deviceStep {op : Op} {a : Except ServerError (Ans op)} (hk : w.db.DeviceKeys) (he : Effect platform w op a w') :
    DeviceStep (fun user => op.deviceUser = some user) w.db w'.db := by
  have hsql : ∀ {q : Sql} {t : Nat} {a : q.Rows} {d : Db}, exec platform (w.db.at t) q = some (a, d) →
      DeviceStep (fun user => (Op.sql q).deviceUser = some user) w.db d := by
    intro q t a d he
    have hs := exec_deviceStep (d := w.db.at t) hk he
    exact ⟨hs.keys, hs.kept, hs.set⟩
  cases he with
  | sql q t a d he => exact hsql he
  | lost q t a d e he => exact hsql he
  | _ => exact .same hk rfl

/-- Every row of `d` is there in `d'`, with its user. -/
def DevicesKept (d d' : Db) : Prop := ∀ v ∈ d.devices, ∃ v' ∈ d'.devices, v'.id = v.id ∧ v'.userId = v.userId

theorem DevicesKept.trans {d d' d'' : Db} (h : DevicesKept d d') (h' : DevicesKept d' d'') : DevicesKept d d'' := by
  intro v hv
  obtain ⟨v', hv', hid, hu⟩ := h v hv
  obtain ⟨v'', hv'', hid', hu'⟩ := h' v' hv'
  exact ⟨v'', hv'', hid'.trans hid, hu'.trans hu⟩

/-- What happens between the calls of the handlers: the table of devices is left alone, or the push service has refused
tokens of a user who was notified, which are removed. -/
def Pushed (w w' : World) : Prop :=
  w'.db.devices = w.db.devices ∨ ∃ n ∈ w.audit.notified, ∃ user ∈ n.users, ∃ tokens,
    w'.db.devices = (w.db.removeFCMTokens user tokens).devices

/-- Devices keep their ids and users. -/
theorem Pushed.kept (hk : w.db.DeviceKeys) (h : Pushed w w') : w'.db.DeviceKeys ∧ DevicesKept w.db w'.db := by
  rcases h with h | ⟨-, -, user, -, tokens, h⟩
  · rw [Db.DeviceKeys, h]
    exact ⟨hk, fun v hv => ⟨v, h ▸ hv, rfl, rfl⟩⟩
  · have hsame : ∀ r : DeviceRow,
        (if r.userId = user ∧ ∃ token ∈ tokens, r.fcmToken = some token then { r with fcmToken := none } else r).id = r.id ∧
        (if r.userId = user ∧ ∃ token ∈ tokens, r.fcmToken = some token then { r with fcmToken := none } else r).userId =
          r.userId := fun r => by
      split <;> exact ⟨rfl, rfl⟩
    have hids : (w.db.removeFCMTokens user tokens).devices.map DeviceRow.id = w.db.devices.map DeviceRow.id := by
      show (w.db.devices.map _).map DeviceRow.id = _
      rw [List.map_map]
      exact List.map_congr_left fun r _ => (hsame r).1
    refine ⟨?_, fun v hv => ⟨_, h ▸ List.mem_map_of_mem hv, hsame v⟩⟩
    rw [Db.DeviceKeys, h, hids]
    exact hk

/-- The requests on a server, with what they have called. -/
abbrev Requests.Traced (platform : Platform) (w : World) (l : List (Async.Made Call Op Ans ServerError World))
    (c : Async.Pool Call Op Ans ServerError Response World) : Prop :=
  Async.Pool.Traced (Effect platform) (serve platform) Pushed w l c

variable {l : List (Async.Made Call Op Ans ServerError World)} {c : Async.Pool Call Op Ans ServerError Response World}

/-- Devices keep their ids and users. -/
theorem Requests.Traced.kept (hk : w.db.DeviceKeys) (h : Requests.Traced platform w l c) :
    c.state.db.DeviceKeys ∧ (∀ s ∈ w :: l.map Async.Made.after, DevicesKept s.db c.state.db) ∧
      ∀ e ∈ l, DeviceStep (fun user => e.answered.op.deviceUser = some user) e.before.db e.after.db := by
  induction h with
  | init =>
    refine ⟨hk, fun s hs => ?_, fun e he => (List.not_mem_nil he).elim⟩
    obtain rfl := List.mem_singleton.mp hs
    exact fun v hv => ⟨v, hv, rfl, rfl⟩
  | @call l s s' m i op k a ts us n es _ he ih =>
    obtain ⟨hkeys, hkept, hsteps⟩ := ih
    have hs := he.deviceStep hkeys
    refine ⟨hs.keys, fun x hx => ?_, fun e he => ?_⟩
    · rcases List.mem_cons.mp hx with rfl | hx
      · exact (hkept x List.mem_cons_self).trans hs.kept
      · rcases List.mem_cons.mp hx with rfl | hx
        · exact fun v hv => ⟨v, hv, rfl, rfl⟩
        · exact (hkept x (List.mem_cons_of_mem _ hx)).trans hs.kept
    · rcases List.mem_cons.mp he with rfl | he
      · exact hs
      · exact hsteps e he
  | @quiet l c c' _ hs ih =>
    have hpushed : Pushed c.state c'.state := by
      cases hs with
      | call he => exact he.elim
      | other ho => exact ho
      | _ => exact Or.inl rfl
    obtain ⟨hkeys, hkept⟩ := hpushed.kept ih.1
    exact ⟨hkeys, fun s hs => (ih.2.1 s hs).trans hkept, ih.2.2⟩

/-- In every run of requests a device keeps its user, and its name, platform and push token are set only by requests that
were authenticated as that user. -/
theorem device_ownership (hk : w.db.DeviceKeys) (h : Requests.Traced platform w l c) :
    (c.state.db.DeviceKeys ∧ ∀ s ∈ w :: l.map Async.Made.after, DevicesKept s.db c.state.db) ∧
    ∀ l₁ e l₀, l = l₁ ++ e :: l₀ → ∀ v' ∈ e.after.db.devices,
      (∃ v ∈ e.before.db.devices, v.id = v'.id ∧ v.deviceName = v'.deviceName ∧ v.platform = v'.platform ∧
        v.fcmToken = v'.fcmToken) ∨
      AuthenticatedAs platform e.call (Async.callsOf e.number l₀) e.answered.op v'.userId := by
  obtain ⟨hkeys, hkept, hsteps⟩ := h.kept hk
  refine ⟨⟨hkeys, hkept⟩, fun l₁ e l₀ hl v' hv' => ?_⟩
  have he : e ∈ l := hl ▸ List.mem_append_right _ List.mem_cons_self
  have hentitled : Entitled platform e.call (Async.callsOf e.number l₀) e.answered.op :=
    h.called (fun call => serve_along call []) hl
  exact ((hsteps e he).set v' hv').imp_right (hentitled v'.userId)

end Runs

/-! ## One device -/

namespace Linker

open Reader (platform token db uuid bearer_call isHex64_token authenticate_token)

def fields : List (List Char × Json) :=
  [("deviceId".toList, .str (uuid 7).text.toList), ("publicKey".toList, .str token.toList)]

def call : Call := ⟨some ("Bearer " ++ token), .postLink (some (.obj fields))⟩

def device : DeviceRow := ⟨uuid 7, uuid 1, "Linked Device", "unknown", none, token, 20, true⟩

theorem schema_data : linkDeviceSchema (some (.obj fields)) = .ok ⟨(uuid 7).text, none, none, token⟩ := by
  have h1 : Zod.lookup fields "deviceId" = some (.str (uuid 7).text.toList) := rfl
  have h2 : Zod.lookup fields "deviceName" = none := rfl
  have h3 : Zod.lookup fields "platform" = none := rfl
  have h4 : Zod.lookup fields "publicKey" = some (.str token.toList) := rfl
  have huuid : Zod.string [Zod.uuid] (some (.str (uuid 7).text.toList)) = .ok (uuid 7).text :=
    Zod.string_uuid (uuid 7).isUuid_text
  have hhex : Zod.string [Zod.regex Zod.isHex64] (some (.str token.toList)) = .ok token := Zod.string_regex isHex64_token
  unfold linkDeviceSchema Zod.object
  simp only [Zod.property, h1, h2, h3, h4, Zod.optional, huuid, hhex]
  rfl

theorem link : exec platform db (.linkDevice ⟨uuid 1, (uuid 7).text, "Linked Device", "unknown", none, token⟩) =
    some (1, { db with devices := [device] }) := by
  simp only [exec, Uuid.read_text, Option.bind_eq_bind, Option.bind_some]
  rfl

theorem runs : Async.Runs (Effect platform) (serve platform call) ⟨db, {}⟩ (some (.ok ⟨200, .success⟩))
    ⟨{ db with devices := [device] }, { received := [call] }⟩ := by
  refine serve_runs (r := .ok ⟨200, .success⟩) (.receive _ _) ?_
  have ha : Effect platform ⟨db, { received := [call] }⟩ (.sql (.authenticate (platform.tokenHash token)))
      (.ok (some (uuid 1))) ⟨db, { received := [call] }⟩ := .atOnce (congrArg (fun u => some (u, db)) authenticate_token)
  refine authMiddleware_runs bearer_call isHex64_token ha ?_
  unfold postLink
  rw [parse_ok schema_data]
  exact .call (.atOnce link) (.done _ _)

end Linker

/-- A device is linked. -/
theorem device_ownership_link : ∃ l c, Requests.Traced Reader.platform ⟨Reader.db, {}⟩ l c ∧
    c.state.db.devices = [Linker.device] ∧ ∀ l₁ e l₀, l = l₁ ++ e :: l₀ → ∀ v' ∈ e.after.db.devices,
      (∃ v ∈ e.before.db.devices, v.id = v'.id ∧ v.deviceName = v'.deviceName ∧ v.platform = v'.platform ∧
        v.fcmToken = v'.fcmToken) ∨
      AuthenticatedAs Reader.platform e.call (Async.callsOf e.number l₀) e.answered.op v'.userId := by
  have hr : Async.Pool.Reachable (Effect Reader.platform) (serve Reader.platform)
      Pushed (fun _ _ => True) ⟨Reader.db, {}⟩ _ :=
    .finish Linker.runs (.step .init (.start Linker.call) trivial)
  obtain ⟨l, hl⟩ := hr.traced
  have hk : Reader.db.DeviceKeys := List.nodup_nil
  exact ⟨l, _, hl, rfl, (device_ownership hk hl).2⟩

end Server

end Chhaya
