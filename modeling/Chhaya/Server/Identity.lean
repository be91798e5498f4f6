import Chhaya.Lib.Provenance
import Chhaya.Server.Devices
import Chhaya.Server.Registration

/-!
# Who gets a session

A session is stored at the end of a registration or a login. Its token stands for an account whose key was proved: the
request presented the hash of a challenge that was issued for the key, and the challenge is gone.

- `handle_authentic`: what a request has shown when it makes a challenge, an account or a session.
- `exec_sessions`, `exec_challenges`, `exec_identities`: what a statement does to the three tables.
- `Requests.Authenticating.inv`: every session, challenge and account of a run.
- `authentication_soundness`: every run of requests.
-/

namespace Chhaya

namespace Server

/-! ## What a request has shown -/

/-- A request that has made the calls `h` may open a session for the user: its claim was accepted, and it has found the
account with the claimed key, whose credential it knows, or made it. -/
inductive Vouched (platform : Platform) (call : Call) (h : Answers) (claim : Claim) (user : Uuid) : Prop
  | login {body : Option Json} {data : Login} {publicKey recoveryPhraseHash : String} (hb : call.request = .postLogin body)
    (hs : loginSchema body = .ok data) (hd : claim = data.claim) (hc : claim.Accepted platform h)
    (ha : ⟨.sql (.activeUser data.chhayaId), .ok (some (user, publicKey, recoveryPhraseHash))⟩ ∈ h)
    (hv : verifyCredential platform data.recoveryPhraseHash recoveryPhraseHash = true)
  | register {body : Option Json} {data : Register} {u : NewUser} {v : NewDevice} (hb : call.request = .postRegister body)
    (hs : registerSchema body = .ok data) (hd : claim = data.claim) (hc : claim.Accepted platform h)
    (hu : u.id = user ∧ u.chhayaId = "05" ++ data.publicKey ∧ u.publicKey = data.publicKey)
    (ha : ⟨.sql (.insertAccount u v), .ok ()⟩ ∈ h)

/-- The challenge was made for what the request asks, with a key, an id and a nonce that were drawn for it. -/
def Challenge.Drawn (platform : Platform) (call : Call) (h : Answers) (c : Challenge) : Prop :=
  ∃ (body : Option Json) (data : ChallengeRequest) (privateKey nonce : {l : Bytes // l.length = 32}) (id : Uuid),
    call.request = .postChallenge body ∧ challengeSchema body = .ok data ∧
    ⟨.randomBytes 32, .ok privateKey⟩ ∈ h ∧ ⟨.randomUUID, .ok id⟩ ∈ h ∧ ⟨.randomBytes 32, .ok nonce⟩ ∈ h ∧
    ¬(sharedSecret platform privateKey.1 data.publicKey).all (· == 0) ∧
    c = challengeOf platform privateKey.1 id nonce.1 data.publicKey data.deviceId data.purpose

/-- What has to be shown for a challenge, an account or a session. -/
def Authentic (platform : Platform) (call : Call) (h : Answers) : Op → Prop
  | .sql (.insertChallenge c) => c.Drawn platform call h
  | .sql (.insertAccount u _) => u.chhayaId = "05" ++ u.publicKey
  | .sql (.insertSession tokenHash user claim) => Vouched platform call h claim user ∧
    ∃ token : {l : Bytes // l.length = 32}, ⟨.randomBytes 32, .ok token⟩ ∈ h ∧ tokenHash = platform.tokenHash (hexOf token.1)
  | _ => True

section Handlers

variable {platform : Platform} {call : Call} {h : Answers} {α : Type}

theorem Foreign.authentic {op : Op} (ho : Foreign op) : Authentic platform call h op := by
  cases op with
  | sql q =>
    cases q with
    | insertChallenge | insertAccount | insertSession => cases ho
    | _ => exact trivial
  | _ => exact trivial

/-- A program that makes no challenge, account or session. -/
theorem Foreign.along {p : Prog α} (hp : p.Every Foreign) : p.Along (Authentic platform call) (fun _ _ => True) h :=
  Async.Every.along hp fun _ _ ho => ho.authentic

/-- One call, and then the rest. -/
theorem step_authentic (op : Op) {f : Ans op → Prog α} (ho : Authentic platform call h op)
    (hf : ∀ a, (f a).Along (Authentic platform call) (fun _ _ => True) (⟨op, .ok a⟩ :: h)) :
    (Async.bind (Async.await op) f).Along (Authentic platform call) (fun _ _ => True) h :=
  .await_bind ho (fun _ => trivial) hf

theorem parse_authentic {γ : Type} {s : Zod.Schema α} {j : Option Json} {f : α → Prog γ}
    (hf : ∀ a, s j = .ok a → (f a).Along (Authentic platform call) (fun _ _ => True) h) :
    ((parse s j).bind f).Along (Authentic platform call) (fun _ _ => True) h := by
  unfold parse
  cases hs : s j with
  | ok a => exact hf a hs
  | error issues => exact trivial

theorem attempt_authentic {γ : Type} {p : Prog α} {f : Except ServerError α → Prog γ}
    (hp : p.Along (Authentic platform call) (fun _ _ => True) h) (hf : ∀ r, (f r).Every Foreign) :
    (p.attempt.bind f).Along (Authentic platform call) (fun _ _ => True) h :=
  Async.Along.bind (Async.Along.attempt (hp.mono fun r _ _ => Foreign.along (hf r)))

theorem catching_authentic {failed : String} {p : Prog Response}
    (hp : p.Along (Authentic platform call) (fun _ _ => True) h) :
    (catching failed p).Along (Authentic platform call) (fun _ _ => True) h := by
  refine attempt_authentic hp fun r => ?_
  rcases r with (_ | _) | _ <;> exact trivial

/-- `POST /auth/challenge`. -/
theorem postChallenge_authentic {body : Option Json} (hb : call.request = .postChallenge body) :
    (postChallenge platform body).Along (Authentic platform call) (fun _ _ => True) h := by
  refine parse_authentic fun data hs => attempt_authentic ?_ fun r => by cases r <;> exact trivial
  show ((createIdentityChallenge platform data.publicKey data.deviceId data.purpose).bind _).Along _ _ _
  unfold createIdentityChallenge
  rw [Async.bind_eq, Async.bind_assoc]
  refine step_authentic (.randomBytes 32) trivial fun pair => ?_
  show Async.Along _ _ (Async.bind (if (sharedSecret platform pair.1 data.publicKey).all (· == 0) = true then _ else _) _) _
  split
  case isTrue => exact trivial
  case isFalse hzero =>
    rw [Async.bind_eq, Async.bind_assoc]
    refine step_authentic .randomUUID trivial fun id => ?_
    rw [Async.bind_eq, Async.bind_assoc]
    refine step_authentic (.randomBytes 32) trivial fun nonce => ?_
    refine step_authentic (.sql .deleteExpiredChallenges) trivial fun _ => ?_
    refine step_authentic (.sql (.insertChallenge _)) ?_ fun _ => trivial
    exact ⟨body, data, pair, nonce, id, hb, hs, by simp, by simp, by simp, hzero, rfl⟩

/-- A challenge is consumed, and the claim is accepted or the request is refused. -/
theorem consume_authentic {claim : Claim} {f : Bool → Prog α}
    (hf : ∀ h, claim.Accepted platform h → (f true).Along (Authentic platform call) (fun _ _ => True) h)
    (hr : (f false).Every Foreign) :
    ((consumeIdentityChallenge platform claim).bind f).Along (Authentic platform call) (fun _ _ => True) h := by
  unfold consumeIdentityChallenge
  rw [Async.bind_eq, Async.bind_assoc]
  refine step_authentic (.sql (.consumeChallenge _ _ _ _)) trivial fun hash => ?_
  cases hash with
  | none => exact Foreign.along hr
  | some proofHash =>
    show (f (proofHash == platform.tokenHash claim.identityProof)).Along _ _ _
    cases hp : proofHash == platform.tokenHash claim.identityProof with
    | true =>
      refine hf _ ?_
      rw [beq_iff_eq.mp hp]
      exact List.mem_cons_self
    | false => exact Foreign.along hr

/-- The session of a request that is vouched for. -/
theorem issueSession_authentic {user : Uuid} {claim : Claim} {f : String → Prog α}
    (hv : ∀ x, Vouched platform call (x :: h) claim user) (hf : ∀ token, (f token).Every Foreign) :
    ((issueSession platform user claim).bind f).Along (Authentic platform call) (fun _ _ => True) h := by
  unfold issueSession
  rw [Async.bind_eq, Async.bind_assoc]
  refine step_authentic (.randomBytes 32) trivial fun token => ?_
  rw [Async.bind_eq, Async.bind_assoc]
  refine step_authentic (.sql (.insertSession _ _ _)) ⟨hv _, token, List.mem_cons_self, rfl⟩ fun _ => ?_
  exact Foreign.along (hf _)

/-- A push token is stored or not, and then the rest. -/
theorem registerToken_authentic {user : Uuid} {deviceId : String} {fcmToken : Option String} {f : Unit → Prog α}
    (hf : ∀ h', h ⊆ h' → (f ()).Along (Authentic platform call) (fun _ _ => True) h') :
    ((registerToken user deviceId fcmToken).bind f).Along (Authentic platform call) (fun _ _ => True) h := by
  unfold registerToken
  cases orNull fcmToken with
  | none => exact hf h fun _ hx => hx
  | some token =>
    exact step_authentic (.sql (.registerFCMToken _ _ _)) trivial fun _ => hf _ (List.subset_cons_self _ _)

theorem Claim.Accepted.subset {claim : Claim} {h' : Answers} (hc : claim.Accepted platform h) (hh : h ⊆ h') :
    claim.Accepted platform h' := hh hc

/-- The account and the session of a registration whose claim was accepted. -/
theorem createAccount_authentic {body : Option Json} {data : Register} (hb : call.request = .postRegister body)
    (hs : registerSchema body = .ok data) (hc : data.claim.Accepted platform h) :
    (createAccount platform data).Along (Authentic platform call) (fun _ _ => True) h := by
  refine step_authentic (.sql (.userExists _)) trivial fun found => ?_
  show Async.Along _ _ (if found = true then _ else if data.chhayaId ≠ "05" ++ data.publicKey then _ else _) _
  split
  · exact trivial
  split
  · exact trivial
  rename_i hid
  have hid := not_not.mp hid
  refine step_authentic .randomUUID trivial fun userId => ?_
  show ((hashCredential platform data.recoveryPhraseHash).bind _).Along _ _ _
  unfold hashCredential
  rw [Async.bind_eq, Async.bind_assoc]
  refine step_authentic (.randomBytes 16) trivial fun salt => ?_
  refine step_authentic (.sql (.insertAccount _ _)) hid fun _ => registerToken_authentic fun h' hh => ?_
  refine issueSession_authentic (fun x => ?_) fun _ => trivial
  have hall := List.subset_cons_of_subset x hh
  refine .register hb hs rfl (hc.cons.cons.cons.cons.subset hall) ⟨rfl, hid, rfl⟩ (hall List.mem_cons_self)

/-- The device and the session of a login whose claim and credential were accepted. -/
theorem openSession_authentic {data : Login} {user : Uuid} {publicKey : String}
    (hv : ∀ h', h ⊆ h' → Vouched platform call h' data.claim user) :
    (openSession platform data user publicKey).Along (Authentic platform call) (fun _ _ => True) h := by
  refine step_authentic (.sql (.upsertDevice _)) trivial fun device => ?_
  show Async.Along _ _ (if device ≠ 1 then _ else _) _
  split
  · exact trivial
  refine registerToken_authentic fun h' hh => step_authentic (.sql (.touchLastSeen _)) trivial fun _ => ?_
  refine issueSession_authentic (fun x => hv _ fun y hy => ?_) fun _ => trivial
  exact List.mem_cons_of_mem _ (List.mem_cons_of_mem _ (hh (List.mem_cons_of_mem _ hy)))

/-- What a request has shown when it makes a challenge, an account or a session. -/
theorem handle_authentic (call : Call) (h : Answers) :
    (handle platform call).Along (Authentic platform call) (fun _ _ => True) h := by
  by_cases hc : ∃ body, call.request = .postChallenge body
  · obtain ⟨body, hb⟩ := hc
    rw [handle, hb]
    exact postChallenge_authentic hb
  by_cases hr : ∃ body, call.request = .postRegister body
  · obtain ⟨body, hb⟩ := hr
    rw [handle, hb]
    exact catching_authentic (parse_authentic fun data hs =>
      consume_authentic (fun _ hc => createAccount_authentic hb hs hc) trivial)
  by_cases hl : ∃ body, call.request = .postLogin body
  · obtain ⟨body, hb⟩ := hl
    rw [handle, hb]
    refine catching_authentic (parse_authentic fun data hs => consume_authentic (fun h hc => ?_) trivial)
    refine step_authentic (.sql (.activeUser _)) trivial fun found => ?_
    rcases found with - | ⟨user, publicKey, recoveryPhraseHash⟩
    · exact trivial
    show Async.Along _ _ (if verifyCredential platform data.recoveryPhraseHash recoveryPhraseHash = true then _ else _) _
    split
    case isTrue hv =>
      exact openSession_authentic fun h' hh => .login hb hs rfl (hh (List.mem_cons_of_mem _ hc)) (hh List.mem_cons_self) hv
    case isFalse => exact trivial
  · exact Foreign.along (handle_foreign (fun body hb => hc ⟨body, hb⟩) (fun body hb => hr ⟨body, hb⟩) fun body hb => hl ⟨body, hb⟩)

theorem serve_authentic (call : Call) (h : Answers) :
    (serve platform call).Along (Authentic platform call) (fun _ _ => True) h :=
  step_authentic (.receive call) trivial fun _ => attempt_authentic (handle_authentic call _) fun _ => trivial

end Handlers

/-! ## The tables -/

/-- Who a user is. -/
def UserRow.identity (u : UserRow) : Uuid × String × String := (u.id, u.chhayaId, u.publicKey)

/-- Ids are unique, and every identifier is that of its key. -/
structure Db.Identities (d : Db) : Prop where
  ids : (d.users.map UserRow.id).Nodup
  keys : ∀ u ∈ d.users, u.chhayaId = "05" ++ u.publicKey

/-- The account is there. -/
def Db.HasIdentity (d : Db) (user : Uuid) (chhayaId publicKey : String) : Prop :=
  (user, chhayaId, publicKey) ∈ d.users.map UserRow.identity

/-- What else happens on the server makes no challenge and no session, and leaves everybody who they are. -/
structure AuthKept (w w' : World) : Prop where
  sessions : w'.db.sessions ⊆ w.db.sessions
  challenges : w'.db.challenges ⊆ w.db.challenges
  users : w'.db.users.map UserRow.identity = w.db.users.map UserRow.identity

section Statements

variable {platform : Platform} {d d' : Db}

theorem Db.Identities.congr (h : d.Identities) (he : d'.users.map UserRow.identity = d.users.map UserRow.identity) :
    d'.Identities := by
  have hids : d'.users.map UserRow.id = d.users.map UserRow.id := by
    have hfst := congrArg (List.map Prod.fst) he
    rwa [List.map_map, List.map_map] at hfst
  refine ⟨hids ▸ h.ids, fun u hu => ?_⟩
  have hmem : u.identity ∈ d.users.map UserRow.identity := he ▸ List.mem_map_of_mem hu
  obtain ⟨u₀, hu₀, hsame⟩ := List.mem_map.mp hmem
  obtain ⟨-, hid, hkey⟩ : u₀.id = u.id ∧ u₀.chhayaId = u.chhayaId ∧ u₀.publicKey = u.publicKey := by
    simpa [UserRow.identity] using hsame
  rw [← hid, ← hkey]
  exact h.keys u₀ hu₀

theorem Db.HasIdentity.key {user : Uuid} {chhayaId publicKey : String} (h : d.HasIdentity user chhayaId publicKey)
    (hi : d.Identities) : chhayaId = "05" ++ publicKey := by
  obtain ⟨u, hu, he⟩ := List.mem_map.mp h
  obtain ⟨-, rfl, rfl⟩ : u.id = user ∧ u.chhayaId = chhayaId ∧ u.publicKey = publicKey := by
    simpa [UserRow.identity] using he
  exact hi.keys u hu

/-- A session is stored by its own statement only. -/
theorem exec_sessions {q : Sql} {x : q.Rows × Db} (h : exec platform d q = some x) {s : SessionRow} (hs : s ∈ x.2.sessions) :
    s ∈ d.sessions ∨ ∃ claim, q = .insertSession s.tokenHash s.userId claim := by
  by_cases hw : .sessions ∈ q.writes
  · cases q with
    | insertSession tokenHash user claim =>
      obtain ⟨d', hd, h⟩ := Option.map_eq_some_iff.mp h
      cases h
      unfold Db.insertSession at hd
      split at hd <;> cases hd
      rcases List.mem_cons.mp hs with rfl | hs
      · exact Or.inr ⟨claim, rfl⟩
      · exact Or.inl hs
    | deleteSession tokenHash =>
      cases h
      exact Or.inl (List.mem_filter.mp hs).1
    | _ => simp [Sql.writes] at hw
  · exact Or.inl ((exec_frame h).sessions hw ▸ hs)

/-- A challenge is stored by its own statement only, for two minutes. -/
theorem exec_challenges {q : Sql} {x : q.Rows × Db} (h : exec platform d q = some x) {r : ChallengeRow}
    (hr : r ∈ x.2.challenges) : r ∈ d.challenges ∨ ∃ c deviceId, q = .insertChallenge c ∧ Uuid.read c.deviceId = some deviceId ∧
      r = ⟨c.challengeId, c.publicKey, deviceId, c.purpose, c.proofHash, x.2.now + 120 * 1000000⟩ := by
  by_cases hw : .challenges ∈ q.writes
  · cases q with
    | deleteExpiredChallenges =>
      cases h
      exact Or.inl (List.mem_filter.mp hr).1
    | insertChallenge c =>
      obtain ⟨deviceId, hid, h⟩ := Option.bind_eq_some_iff.mp h
      obtain ⟨d', hd, h⟩ := Option.bind_eq_some_iff.mp h
      cases h
      unfold Db.insertChallenge at hd
      split at hd <;> cases hd
      rcases List.mem_cons.mp hr with rfl | hr
      · exact Or.inr ⟨c, deviceId, rfl, hid, rfl⟩
      · exact Or.inl hr
    | consumeChallenge id publicKey deviceId purpose =>
      obtain ⟨_, -, h⟩ := Option.bind_eq_some_iff.mp h
      obtain ⟨_, -, h⟩ := Option.bind_eq_some_iff.mp h
      cases h
      exact Or.inl (List.mem_filter.mp hr).1
    | _ => simp [Sql.writes] at hw
  · exact Or.inl ((exec_frame h).challenges hw ▸ hr)

/-- An account is made by its own statement only, under a new id. -/
theorem exec_identities {q : Sql} {x : q.Rows × Db} (h : exec platform d q = some x) :
    x.2.users.map UserRow.identity = d.users.map UserRow.identity ∨ ∃ u v, q = .insertAccount u v ∧
      x.2.users.map UserRow.identity = (u.id, u.chhayaId, u.publicKey) :: d.users.map UserRow.identity ∧
      ∀ r ∈ d.users, r.id ≠ u.id := by
  by_cases hw : .users ∈ q.writes
  · cases q with
    | insertAccount u v =>
      obtain ⟨-, -, hfree, -, husers, -⟩ := exec_insertAccount h
      exact Or.inr ⟨u, v, rfl, by rw [husers]; rfl, fun r hr => (hfree r hr).1⟩
    | touchLastSeen user =>
      cases h
      refine Or.inl ?_
      show (d.users.map _).map UserRow.identity = _
      rw [List.map_map]
      refine List.map_congr_left fun u _ => ?_
      show UserRow.identity (if u.id = user then _ else _) = _
      split <;> rfl
    | _ => simp [Sql.writes] at hw
  · exact Or.inl (by rw [(exec_frame h).users hw])

/-- Whose account was found. -/
theorem exec_activeUser {chhayaId : String} {user : Uuid} {publicKey recoveryPhraseHash : String}
    (h : exec platform d (.activeUser chhayaId) = some (some (user, publicKey, recoveryPhraseHash), d')) :
    d' = d ∧ d.HasIdentity user chhayaId publicKey := by
  obtain ⟨hfound, rfl⟩ := Prod.mk.inj (Option.some.inj h)
  obtain ⟨u, hu, he⟩ := Option.map_eq_some_iff.mp hfound
  obtain ⟨rfl, rfl, -⟩ : u.id = user ∧ u.publicKey = publicKey ∧ u.recoveryPhraseHash = recoveryPhraseHash := by
    simpa using he
  have hid : u.chhayaId = chhayaId := by
    have hp := List.find?_some hu
    simp only [Bool.and_eq_true, beq_iff_eq] at hp
    exact hp.1
  exact ⟨rfl, List.mem_map.mpr ⟨u, List.mem_of_find?_eq_some hu, by rw [UserRow.identity, hid]⟩⟩

/-- The challenge that was consumed is gone. -/
theorem exec_consumed {id publicKey deviceId purpose proofHash : String}
    (h : exec platform d (.consumeChallenge id publicKey deviceId purpose) = some (some proofHash, d')) :
    ∃ r ∈ d.challenges, r ∉ d'.challenges ∧ Uuid.read id = some r.id ∧ r.publicKey = publicKey ∧
      Uuid.read deviceId = some r.deviceId ∧ r.purpose = purpose ∧ r.proofHash = proofHash ∧ d'.now < r.expiresAt := by
  obtain ⟨id', hid, h⟩ := Option.bind_eq_some_iff.mp h
  obtain ⟨deviceId', hdev, h⟩ := Option.bind_eq_some_iff.mp h
  obtain ⟨hfound, rfl⟩ := Prod.mk.inj (Option.some.inj h)
  obtain ⟨r, hr, rfl⟩ := Option.map_eq_some_iff.mp hfound
  have hc := List.find?_some hr
  refine ⟨r, List.mem_of_find?_eq_some hr, fun hmem => ?_, ?_⟩
  · have hnot := (List.mem_filter.mp hmem).2
    rw [hc] at hnot
    cases hnot
  · simp only [Db.consumes, Bool.and_eq_true, beq_iff_eq, decide_eq_true_eq] at hc
    exact ⟨hc.1.1.1.1 ▸ hid, hc.1.1.1.2, hc.1.1.2 ▸ hdev, hc.1.2, rfl, hc.2⟩

end Statements

/-! ## Every run -/

section Runs

variable {platform : Platform} {w w' : World}

/-- What an operation makes of the database: nothing, or what its statement makes of it at some time. -/
theorem Effect.database {op : Op} {a : Except ServerError (Ans op)} (he : Effect platform w op a w') :
    w'.db = w.db ∨ ∃ (q : Sql) (t : Nat) (x : q.Rows × Db), op = .sql q ∧ exec platform (w.db.at t) q = some x ∧ w'.db = x.2 := by
  cases he with
  | sql q t a d he => exact Or.inr ⟨q, t, (a, d), rfl, he, rfl⟩
  | lost q t a d e he => exact Or.inr ⟨q, t, (a, d), rfl, he, rfl⟩
  | _ => exact Or.inl rfl

/-- An answer is what the statement returned. -/
theorem Effect.answered {q : Sql} {a : q.Rows} (he : Effect platform w (.sql q) (.ok a) w') :
    ∃ t, exec platform (w.db.at t) q = some (a, w'.db) := by
  cases he with
  | sql _ t _ d he => exact ⟨t, he⟩

theorem Effect.identities {op : Op} {a : Except ServerError (Ans op)} (he : Effect platform w op a w')
    (hop : ∀ u v, op = .sql (.insertAccount u v) → u.chhayaId = "05" ++ u.publicKey) (hi : w.db.Identities) :
    w'.db.Identities := by
  rcases he.database with hsame | ⟨q, t, x, rfl, hx, hd⟩
  · exact hsame ▸ hi
  rw [hd]
  rcases exec_identities hx with hsame | ⟨u, v, rfl, husers, hfree⟩
  · exact hi.congr hsame
  · have hids : x.2.users.map UserRow.id = u.id :: w.db.users.map UserRow.id := by
      have hfst := congrArg (List.map Prod.fst) husers
      rwa [List.map_map, List.map_cons, List.map_map] at hfst
    refine ⟨?_, fun r hr => ?_⟩
    · rw [hids, List.nodup_cons]
      refine ⟨fun hmem => ?_, hi.ids⟩
      obtain ⟨r, hr, hid⟩ := List.mem_map.mp hmem
      exact hfree r hr hid
    · have hmem : r.identity ∈ (u.id, u.chhayaId, u.publicKey) :: w.db.users.map UserRow.identity :=
        husers ▸ List.mem_map_of_mem hr
      rcases List.mem_cons.mp hmem with he | hold
      · obtain ⟨-, hid, hkey⟩ : r.id = u.id ∧ r.chhayaId = u.chhayaId ∧ r.publicKey = u.publicKey := by
          simpa [UserRow.identity] using he
        rw [hid, hkey]
        exact hop u v rfl
      · have hold : w.db.HasIdentity r.id r.chhayaId r.publicKey := hold
        exact hold.key hi

/-- Nobody changes who they are. -/
theorem Effect.hasIdentity {op : Op} {a : Except ServerError (Ans op)} (he : Effect platform w op a w') {user : Uuid}
    {chhayaId publicKey : String} (hi : w.db.HasIdentity user chhayaId publicKey) :
    w'.db.HasIdentity user chhayaId publicKey := by
  rcases he.database with hsame | ⟨q, t, x, rfl, hx, hd⟩
  · exact hsame ▸ hi
  rw [hd]
  unfold Db.HasIdentity
  rcases exec_identities hx with hsame | ⟨u, v, rfl, husers, -⟩
  · rw [hsame]
    exact hi
  · rw [husers]
    exact List.mem_cons_of_mem _ hi

/-- The requests on a server, with what they have called. -/
abbrev Requests.Authenticating (platform : Platform) (w : World) (l : List (Async.Made Call Op Ans ServerError World))
    (c : Async.Pool Call Op Ans ServerError Response World) : Prop :=
  Async.Pool.Traced (Effect platform) (serve platform) AuthKept w l c

/-- The call takes the challenge. -/
def Takes (e : Async.Made Call Op Ans ServerError World) (r : ChallengeRow) : Prop :=
  (∃ id publicKey deviceId purpose, e.answered.op = .sql (.consumeChallenge id publicKey deviceId purpose)) ∧
    r ∈ e.before.db.challenges ∧ r ∉ e.after.db.challenges

/-- The call issues the challenge, which was drawn for its request. -/
def Issues (platform : Platform) (l : List (Async.Made Call Op Ans ServerError World))
    (e : Async.Made Call Op Ans ServerError World) (c : Challenge) : Prop :=
  e.answered.op = .sql (.insertChallenge c) ∧ c.Drawn platform e.call (Async.callsOf e.number l)

/-- The request `n`, which has made its calls in `l`, presented the proof of a challenge: one that was issued for the same
key, device and purpose less than two minutes before it was taken. -/
def Claim.Proves (platform : Platform) (l : List (Async.Made Call Op Ans ServerError World)) (n : Nat) (claim : Claim) : Prop :=
  ∃ l₁ f l₂ g l₃ r c, l = l₁ ++ f :: l₂ ++ g :: l₃ ∧ f.number = n ∧ Takes f r ∧ Issues platform l₃ g c ∧
    Uuid.read claim.challengeId = some c.challengeId ∧ claim.publicKey = c.publicKey ∧ claim.purpose = c.purpose ∧
    Uuid.read claim.deviceId = Uuid.read c.deviceId ∧ platform.tokenHash claim.identityProof = c.proofHash ∧
    f.after.db.now < g.after.db.now + 120 * 1000000

/-- The session was opened by a request that was vouched for and that proved the key of the account. -/
def SessionRow.Opened (platform : Platform) (l : List (Async.Made Call Op Ans ServerError World)) (d : Db) (s : SessionRow) :
    Prop :=
  ∃ l₁ e l₀ claim, l = l₁ ++ e :: l₀ ∧ e.answered.op = .sql (.insertSession s.tokenHash s.userId claim) ∧
    Vouched platform e.call (Async.callsOf e.number l₀) claim s.userId ∧ claim.Proves platform l₀ e.number ∧
    d.HasIdentity s.userId ("05" ++ claim.publicKey) claim.publicKey

variable {l : List (Async.Made Call Op Ans ServerError World)} {c : Async.Pool Call Op Ans ServerError Response World}

/-- Every identifier is that of its key. -/
theorem Requests.Authenticating.identities (hi : w.db.Identities) (h : Requests.Authenticating platform w l c) :
    c.state.db.Identities := by
  have hop : ∀ {l₁ e l₀}, l = l₁ ++ e :: l₀ → ∀ u v, e.answered.op = .sql (.insertAccount u v) →
      u.chhayaId = "05" ++ u.publicKey := by
    intro l₁ e l₀ hl u v he
    have ha : Authentic platform e.call (Async.callsOf e.number l₀) e.answered.op :=
      h.called (fun call => serve_authentic call []) hl
    rw [he] at ha
    exact ha
  induction h with
  | init => exact hi
  | @call l s s' m i op k a ts us n es h he ih =>
    exact he.identities (fun u v => @hop [] ⟨m, i, ⟨op, a⟩, s, s'⟩ l rfl u v)
      (ih fun {l₁ e l₀} hl => @hop (⟨m, i, ⟨op, a⟩, s, s'⟩ :: l₁) e l₀ (by rw [hl]; rfl))
  | quiet h hs ih =>
    rcases hs.quiet_state with hsame | ho
    · rw [hsame]
      exact ih hop
    · exact (ih hop).congr ho.users

/-- Whoever was found or made is there. -/
theorem Requests.Authenticating.hasIdentity (h : Requests.Authenticating platform w l c) {user : Uuid}
    {chhayaId publicKey : String} {l₁ l₀ : List (Async.Made Call Op Ans ServerError World)}
    {e : Async.Made Call Op Ans ServerError World} (hl : l = l₁ ++ e :: l₀) (hi : e.after.db.HasIdentity user chhayaId publicKey) :
    c.state.db.HasIdentity user chhayaId publicKey :=
  h.lasting (K := fun w => w.db.HasIdentity user chhayaId publicKey) (fun he hK => he.hasIdentity hK)
    (fun ho hK => show _ ∈ _ from ho.users ▸ hK) hl hi

/-- Who is vouched for has the account of the claimed key. -/
theorem Requests.Authenticating.account (hi : w.db.Identities) (h : Requests.Authenticating platform w l c)
    {call : Call} {n : Nat} {claim : Claim} {user : Uuid} (hv : Vouched platform call (Async.callsOf n l) claim user) :
    c.state.db.HasIdentity user ("05" ++ claim.publicKey) claim.publicKey := by
  cases hv with
  | @login body data publicKey recoveryPhraseHash hb hs hd hc ha =>
    obtain ⟨e, he, -, hans⟩ := Async.mem_callsOf.mp ha
    obtain ⟨l₁, l₀, hl⟩ := List.append_of_mem he
    have heff := h.made he
    rw [hans] at heff
    obtain ⟨t, hexec⟩ := heff.answered
    obtain ⟨hd', hfound⟩ := exec_activeUser hexec
    have hafter : e.after.db.HasIdentity user data.chhayaId publicKey := by
      rw [hd']
      exact hfound
    have hthere := h.hasIdentity hl hafter
    have hkey := hthere.key (h.identities hi)
    have hclaim : claim.publicKey = publicKey := by
      rw [hd]
      show String.ofList (data.chhayaId.toList.drop 2) = publicKey
      rw [hkey, String.toList_append]
      exact String.ofList_toList
    rw [hclaim, ← hkey]
    exact hthere
  | @register body data u v hb hs hd hc hu ha =>
    obtain ⟨e, he, -, hans⟩ := Async.mem_callsOf.mp ha
    obtain ⟨l₁, l₀, hl⟩ := List.append_of_mem he
    have heff := h.made he
    rw [hans] at heff
    obtain ⟨t, hexec⟩ := heff.answered
    obtain ⟨-, -, -, -, husers, -⟩ := exec_insertAccount hexec
    have hafter : e.after.db.HasIdentity u.id u.chhayaId u.publicKey := by
      show _ ∈ _
      rw [show e.after.db.users = _ from husers]
      exact List.mem_cons_self
    have hthere := h.hasIdentity hl hafter
    rw [hu.1, hu.2.1, hu.2.2] at hthere
    rw [hd]
    exact hthere

/-- Every challenge was issued, less than two minutes before it expires. -/
theorem Requests.Authenticating.issued (hc : w.db.challenges = []) (h : Requests.Authenticating platform w l c)
    {r : ChallengeRow} (hr : r ∈ c.state.db.challenges) : ∃ l₁ g l₀ x, l = l₁ ++ g :: l₀ ∧ Issues platform l₀ g x ∧
      r.id = x.challengeId ∧ r.publicKey = x.publicKey ∧ r.purpose = x.purpose ∧ Uuid.read x.deviceId = some r.deviceId ∧
      r.proofHash = x.proofHash ∧ r.expiresAt = g.after.db.now + 120 * 1000000 := by
  have hsource := h.source (K := fun w => r ∈ w.db.challenges) (M := fun e => ∃ x deviceId,
      e.answered.op = .sql (.insertChallenge x) ∧ Uuid.read x.deviceId = some deviceId ∧
      r = ⟨x.challengeId, x.publicKey, deviceId, x.purpose, x.proofHash, e.after.db.now + 120 * 1000000⟩)
    (fun e he hr => by
      rcases he.database with hsame | ⟨q, t, x, hop, hx, hd⟩
      · exact Or.inl (hsame ▸ hr)
      · rw [hd] at hr
        rcases exec_challenges hx hr with hold | ⟨c, deviceId, rfl, hid, hrow⟩
        · exact Or.inl hold
        · exact Or.inr ⟨c, deviceId, hop, hid, hd ▸ hrow⟩)
    (fun ho hr => ho.challenges hr) hr
  rcases hsource with hstart | ⟨l₁, g, l₀, hl, x, deviceId, hop, hid, rfl⟩
  · rw [hc] at hstart
    cases hstart
  · have ha : Authentic platform g.call (Async.callsOf g.number l₀) g.answered.op :=
      h.called (fun call => serve_authentic call []) hl
    rw [hop] at ha
    exact ⟨l₁, g, l₀, x, hl, ⟨hop, ha⟩, rfl, rfl, rfl, hid, rfl, rfl⟩

/-- A claim that was accepted proves its key. -/
theorem Requests.Authenticating.proves (hc : w.db.challenges = []) (h : Requests.Authenticating platform w l c)
    {claim : Claim} {n : Nat} (ha : claim.Accepted platform (Async.callsOf n l)) : claim.Proves platform l n := by
  obtain ⟨f, hf, hn, hans⟩ := Async.mem_callsOf.mp ha
  obtain ⟨l₁, l₀, hl⟩ := List.append_of_mem hf
  have heff := h.made hf
  rw [hans] at heff
  obtain ⟨t, hexec⟩ := heff.answered
  obtain ⟨r, hr, hgone, hid, hkey, hdev, hpurpose, hhash, hnow⟩ := exec_consumed hexec
  obtain ⟨c₀, h₀, hstate⟩ := h.before hl
  obtain ⟨l₂, g, l₃, x, hl₀, hissues, hxid, hxkey, hxpurpose, hxdev, hxhash, hexpires⟩ :=
    Requests.Authenticating.issued (c := c₀) hc h₀ (r := r) (by rw [hstate]; exact hr)
  refine ⟨l₁, f, l₂, g, l₃, r, x, ?_, hn, ⟨⟨_, _, _, _, congrArg Async.Answered.op hans⟩, hr, hgone⟩, hissues, ?_, ?_, ?_, ?_,
    ?_, hexpires ▸ hnow⟩
  · rw [hl, hl₀, List.append_assoc, List.cons_append]
  · rw [hid, hxid]
  · rw [← hkey, hxkey]
  · rw [← hpurpose, hxpurpose]
  · rw [hdev, hxdev]
  · rw [← hhash, hxhash]

/-- In every run of requests a session stands for an account whose key was proved with an unexpired challenge that was
issued for it, a challenge is taken once for each time it is issued, whatever the proof, and every identifier is that of its
key. -/
theorem authentication_soundness (hs : w.db.sessions = []) (hc : w.db.challenges = []) (hi : w.db.Identities)
    (h : Requests.Authenticating platform w l c) :
    (∀ s ∈ c.state.db.sessions, s.Opened platform l c.state.db) ∧
    (∀ l₁ f l₂ g l₀ r, l = l₁ ++ f :: (l₂ ++ g :: l₀) → Takes f r → Takes g r →
      ∃ e ∈ l₂, ∃ x, e.answered.op = .sql (.insertChallenge x) ∧ x.challengeId = r.id ∧ x.proofHash = r.proofHash) ∧
    c.state.db.Identities := by
  refine ⟨fun s hmem => ?_, fun l₁ f l₂ g l₀ r hl hf hg => ?_, h.identities hi⟩
  · have hsource := h.source (K := fun w => s ∈ w.db.sessions) (M := fun e => ∃ claim,
        e.answered.op = .sql (.insertSession s.tokenHash s.userId claim))
      (fun e he hs => by
        rcases he.database with hsame | ⟨q, t, x, hop, hx, hd⟩
        · exact Or.inl (hsame ▸ hs)
        · rw [hd] at hs
          rcases exec_sessions hx hs with hold | ⟨claim, rfl⟩
          · exact Or.inl hold
          · exact Or.inr ⟨claim, hop⟩)
      (fun ho hs => ho.sessions hs) hmem
    rcases hsource with hstart | ⟨l₁, e, l₀, hl, claim, hop⟩
    · rw [hs] at hstart
      cases hstart
    have ha : Authentic platform e.call (Async.callsOf e.number l₀) e.answered.op :=
      h.called (fun call => serve_authentic call []) hl
    rw [hop] at ha
    obtain ⟨hv, -⟩ := ha
    obtain ⟨c₀, h₀, hstate⟩ := h.before hl
    have hproves : claim.Proves platform l₀ e.number := by
      cases hv with
      | login _ _ _ hc' => exact Requests.Authenticating.proves hc h₀ hc'
      | register _ _ _ hc' => exact Requests.Authenticating.proves hc h₀ hc'
    refine ⟨l₁, e, l₀, claim, hl, hop, hv, hproves, ?_⟩
    have hbefore := Requests.Authenticating.account hi h₀ hv
    rw [hstate] at hbefore
    exact h.hasIdentity hl ((h.made (hl ▸ List.mem_append_right _ List.mem_cons_self)).hasIdentity hbefore)
  · obtain ⟨c₀, h₀, hstate⟩ := h.before hl
    have hbetween := h₀.between (K := fun w => r ∉ w.db.challenges) (U := fun e => ∃ x,
        e.answered.op = .sql (.insertChallenge x) ∧ x.challengeId = r.id ∧ x.proofHash = r.proofHash)
      (fun e he hgone => by
        by_cases hr : r ∈ e.after.db.challenges
        · rcases he.database with hsame | ⟨q, t, x, hop, hx, hd⟩
          · exact absurd (hsame ▸ hr) hgone
          · rw [hd] at hr
            rcases exec_challenges hx hr with hold | ⟨c, deviceId, rfl, -, rfl⟩
            · exact absurd hold hgone
            · exact Or.inr ⟨c, hop, rfl, rfl⟩
        · exact Or.inl hr)
      (fun ho hgone hr => hgone (ho.challenges hr)) rfl hg.2.2
    rcases hbetween with hgone | hundone
    · rw [hstate] at hgone
      exact absurd hf.2.1 hgone
    · exact hundone

end Runs

/-! ## One account -/

namespace Enrollee

open Reader (token uuid isHex64_token)

def secret : {l : Bytes // l.length = 32} := ⟨List.replicate 32 1, List.length_replicate⟩

/-- The shared secret is the private key, and an HMAC is its key. -/
def platform : Platform := { Reader.platform with x25519 := fun privateKey _ => privateKey, tokenHash := id }

def challenge : Challenge := challengeOf platform secret.1 (uuid 5) secret.1 token (uuid 6).text "register"

def asks : Call :=
  ⟨none, .postChallenge (some (.obj [("publicKey".toList, .str token.toList), ("deviceId".toList, .str (uuid 6).text.toList),
    ("purpose".toList, .str "register".toList)]))⟩

def data : Register :=
  ⟨(uuid 5).text, hexOf secret.1, "05" ++ token, "reader", token, "key", token, (uuid 6).text, none, none, none⟩

def fields : List (List Char × Json) :=
  [("challengeId".toList, .str (uuid 5).text.toList), ("identityProof".toList, .str (hexOf secret.1).toList),
    ("chhayaId".toList, .str ("05" ++ token).toList), ("displayName".toList, .str "reader".toList),
    ("publicKey".toList, .str token.toList), ("encryptedPrivateKey".toList, .str "key".toList),
    ("recoveryPhraseHash".toList, .str token.toList), ("deviceId".toList, .str (uuid 6).text.toList)]

def enrolls : Call := ⟨none, .postRegister (some (.obj fields))⟩

def row : ChallengeRow := ⟨uuid 5, token, uuid 6, "register", hexOf secret.1, 120 * 1000000⟩

/-- The challenge is issued. -/
def issued : World := ⟨{ challenges := [row] }, { received := [asks], issued := [challenge] }⟩

def account : UserRow :=
  ⟨uuid 1, "05" ++ token, "reader", token, "key",
    ":".intercalate ["scrypt", hexOf (List.replicate 16 0), platform.scrypt token (hexOf (List.replicate 16 0))], 0, none, true⟩

def session : SessionRow := ⟨hexOf secret.1, uuid 1, 30 * 24 * 3600 * 1000000⟩

/-- The account has a session. -/
def enrolled : World :=
  ⟨{ users := [account], sessions := [session], devices := [⟨uuid 6, uuid 1, "Primary", "unknown", none, token, 0, false⟩] },
    { received := [enrolls, asks], issued := [challenge], consumed := [(row, 0)],
      granted := [⟨data.claim, uuid 1, hexOf secret.1⟩] }⟩

theorem schema_challenge : challengeSchema (some (.obj [("publicKey".toList, .str token.toList),
    ("deviceId".toList, .str (uuid 6).text.toList), ("purpose".toList, .str "register".toList)])) =
      .ok ⟨token, (uuid 6).text, "register"⟩ := by
  have hpurpose : Zod.enum ["register", "login"] (some (.str "register".toList)) = .ok "register" := by simp [Zod.enum]
  have hhex : Zod.string [Zod.regex Zod.isHex64] (some (.str token.toList)) = .ok token := Zod.string_regex isHex64_token
  have huuid : Zod.string [Zod.uuid] (some (.str (uuid 6).text.toList)) = .ok (uuid 6).text :=
    Zod.string_uuid (uuid 6).isUuid_text
  unfold challengeSchema Zod.object
  generalize hf : [("publicKey".toList, Json.str token.toList), _, _] = fields
  have h1 : Zod.lookup fields "publicKey" = some (.str token.toList) := by subst hf; rfl
  have h2 : Zod.lookup fields "deviceId" = some (.str (uuid 6).text.toList) := by subst hf; rfl
  have h3 : Zod.lookup fields "purpose" = some (.str "register".toList) := by subst hf; rfl
  simp only [Zod.property, h1, h2, h3, hpurpose, hhex, huuid]
  rfl

theorem schema_data : registerSchema (some (.obj fields)) = .ok data := by
  have hnone : ∀ key ∈ ["deviceName", "platform", "fcmToken"], Zod.lookup fields key = none := by
    intro key hkey
    simp only [List.mem_cons, List.not_mem_nil, or_false] at hkey
    rcases hkey with rfl | rfl | rfl <;> rfl
  have h1 : Zod.lookup fields "challengeId" = some (.str (uuid 5).text.toList) := rfl
  have h2 : Zod.lookup fields "identityProof" = some (.str (hexOf secret.1).toList) := rfl
  have h3 : Zod.lookup fields "chhayaId" = some (.str ("05" ++ token).toList) := rfl
  have h4 : Zod.lookup fields "displayName" = some (.str "reader".toList) := rfl
  have h5 : Zod.lookup fields "publicKey" = some (.str token.toList) := rfl
  have h6 : Zod.lookup fields "encryptedPrivateKey" = some (.str "key".toList) := rfl
  have h7 : Zod.lookup fields "recoveryPhraseHash" = some (.str token.toList) := rfl
  have h8 : Zod.lookup fields "deviceId" = some (.str (uuid 6).text.toList) := rfl
  have huuid : ∀ n, Zod.string [Zod.uuid] (some (.str (uuid n).text.toList)) = .ok (uuid n).text :=
    fun n => Zod.string_uuid (uuid n).isUuid_text
  have hhex : Zod.string [Zod.regex Zod.isHex64] (some (.str token.toList)) = .ok token := Zod.string_regex isHex64_token
  have hproof : Zod.string [Zod.regex Zod.isHex64] (some (.str (hexOf secret.1).toList)) = .ok (hexOf secret.1) :=
    Zod.string_regex (isHex64_hexOf secret.2)
  have hid : Zod.string [Zod.regex isChhayaId] (some (.str ("05" ++ token).toList)) = .ok ("05" ++ token) :=
    Zod.string_regex (Registrant.isChhayaId_append isHex64_token)
  have hhash : Zod.string (Zod.exactLength 64) (some (.str token.toList)) = .ok token :=
    Zod.string_exactLength (Registrant.utf16Length_replicate 64 (by decide))
  have hname : Zod.string [Zod.minLength 1, Zod.maxLength 100] (some (.str "reader".toList)) = .ok "reader" :=
    Zod.string_of (by decide)
  have hkey : Zod.string [Zod.minLength 1] (some (.str "key".toList)) = .ok "key" := Zod.string_of (by decide)
  unfold registerSchema Zod.object
  simp only [Zod.property, h1, h2, h3, h4, h5, h6, h7, h8, hnone, List.mem_cons, true_or, or_true, Zod.optional, huuid,
    hhex, hproof, hid, hhash, hname, hkey]
  rfl

/-- The challenge is asked for. -/
theorem asks_runs : ∃ res, Async.Runs (Effect platform) (serve platform asks) {} (some (.ok res)) issued := by
  have hinsert : exec platform {} (.insertChallenge challenge) = some ((), { challenges := [row] }) := by
    simp only [exec, challenge, challengeOf, Uuid.read_text, Option.bind_eq_bind, Option.bind_some]
    rfl
  have hzero : ¬(sharedSecret platform secret.1 token).all (· == 0) = true := by
    show ¬(List.replicate 32 (1 : UInt8)).all (· == 0) = true
    decide
  have hcreate : ∀ w, Async.Runs (Effect platform) (createIdentityChallenge platform token (uuid 6).text "register") w
      (some (.ok challenge)) w := by
    intro w
    refine .call (.randomBytes _ 32 secret) ?_
    simp only [Async.done_bind, if_neg hzero]
    exact .call (.randomUUID _ (uuid 5)) (.call (.randomBytes _ 32 secret) (.done _ _))
  have hissue : Async.Runs (Effect platform) (issueIdentityChallenge platform token (uuid 6).text "register")
      ⟨{}, { received := [asks] }⟩ (some (.ok challenge)) issued :=
    (hcreate _).bind (.call (.atOnce rfl) (.call (.atOnce hinsert) (.done _ _)))
  have hpost : Async.Runs (Effect platform) (handle platform asks) ⟨{}, { received := [asks] }⟩
      (some (.ok ⟨200, .challenge challenge.challengeId challenge.serverPublicKey challenge.nonce challenge.context⟩)) issued := by
    show Async.Runs _ (postChallenge platform _) _ _ _
    unfold postChallenge
    rw [parse_ok schema_challenge]
    exact hissue.attempt.bind (.done _ _)
  exact ⟨_, serve_runs (.receive _ _) hpost⟩

/-- The account is registered. -/
theorem enrolls_runs : ∃ res, Async.Runs (Effect platform) (serve platform enrolls) issued (some (.ok res)) enrolled := by
  have hmatch : issued.db.consumes (uuid 5) token (uuid 6) "register" row = true := by simp [Db.consumes, issued, row]
  have hconsume : exec platform issued.db (.consumeChallenge data.challengeId data.publicKey data.deviceId "register") =
      some (some (hexOf secret.1), {}) := by
    simp only [exec, data, Uuid.read_text, Option.bind_eq_bind, Option.bind_some]
    show some (issued.db.consumeChallenge (uuid 5) token (uuid 6) "register") = _
    have hfind : issued.db.challenges.find? (issued.db.consumes (uuid 5) token (uuid 6) "register") = some row :=
      List.find?_cons_of_pos hmatch
    have hfilter : (issued.db.challenges.filter fun r => !issued.db.consumes (uuid 5) token (uuid 6) "register" r) = [] :=
      List.filter_cons_of_neg (by rw [hmatch]; decide)
    rw [Db.consumeChallenge, hfind, hfilter]
    rfl
  have hrecord : Audit.record ⟨[enrolls, asks], [challenge], [], [], []⟩ issued.db
      (.consumeChallenge data.challengeId data.publicKey data.deviceId "register") =
      ⟨[enrolls, asks], [challenge], [(row, 0)], [], []⟩ := by
    have hfound : issued.db.consumed data.challengeId data.publicKey data.deviceId "register" = some row := by
      simp only [Db.consumed, data, Uuid.read_text, Option.bind_eq_bind, Option.bind_some]
      exact List.find?_cons_of_pos hmatch
    simp only [Audit.record, hfound]
    rfl
  have hconsumed : Effect platform ⟨issued.db, ⟨[enrolls, asks], [challenge], [], [], []⟩⟩
      (.sql (.consumeChallenge data.challengeId data.publicKey data.deviceId "register")) (.ok (some (hexOf secret.1)))
      ⟨{}, ⟨[enrolls, asks], [challenge], [(row, 0)], [], []⟩⟩ := hrecord ▸ .atOnce hconsume
  let newUser : NewUser := ⟨uuid 1, account.chhayaId, "reader", token, "key", account.recoveryPhraseHash⟩
  let newDevice : NewDevice := ⟨uuid 1, (uuid 6).text, "Primary", "unknown", none, token⟩
  have hinsert : exec platform {} (.insertAccount newUser newDevice) = some ((),
      { users := [account], devices := [⟨uuid 6, uuid 1, "Primary", "unknown", none, token, 0, false⟩] }) := by
    simp only [exec, newDevice, Uuid.read_text, Option.bind_eq_bind, Option.bind_some]
    rfl
  have hsession : exec platform
      { users := [account], devices := [⟨uuid 6, uuid 1, "Primary", "unknown", none, token, 0, false⟩] }
      (.insertSession (hexOf secret.1) (uuid 1) data.claim) = some ((), enrolled.db) := by
    have huser : ([account].any fun u => u.id == uuid 1) = true := by simp [account]
    simp only [exec, Db.insertSession, huser]
    rfl
  have hcreate : Async.Runs (Effect platform) (createAccount platform data)
      ⟨{}, ⟨[enrolls, asks], [challenge], [(row, 0)], [], []⟩⟩ (some (.ok ⟨201, .session (uuid 1) (hexOf secret.1)⟩)) enrolled := by
    refine .call (.atOnce (q := .userExists data.chhayaId) rfl) ?_
    have hid : data.chhayaId = "05" ++ data.publicKey := rfl
    simp only [Async.done_bind, if_false, hid, ne_eq, not_true_eq_false]
    refine .call (.randomUUID _ (uuid 1)) (.call (.randomBytes _ 16 ⟨List.replicate 16 0, List.length_replicate⟩) ?_)
    refine .call (.atOnce hinsert) (.call (.randomBytes _ 32 secret) (.call (.atOnce hsession) (.done _ _)))
  have hregister : Async.Runs (Effect platform) (register platform (some (.obj fields)))
      ⟨issued.db, ⟨[enrolls, asks], [challenge], [], [], []⟩⟩ (some (.ok ⟨201, .session (uuid 1) (hexOf secret.1)⟩)) enrolled := by
    unfold register
    rw [parse_ok schema_data]
    have hproved : Async.Runs (Effect platform) (consumeIdentityChallenge platform data.claim)
        ⟨issued.db, ⟨[enrolls, asks], [challenge], [], [], []⟩⟩
        (some (.ok (hexOf secret.1 == platform.tokenHash data.identityProof)))
        ⟨{}, ⟨[enrolls, asks], [challenge], [(row, 0)], [], []⟩⟩ := .call hconsumed (.done _ _)
    refine hproved.bind ?_
    show Async.Runs _ (if (hexOf secret.1 == hexOf secret.1) = true then _ else _) _ _ _
    rw [if_pos (beq_iff_eq.mpr rfl)]
    exact hcreate
  exact ⟨_, serve_runs (.receive _ _) (hregister.attempt.bind (.done _ _))⟩

end Enrollee

/-- An account is registered on an empty server, and its session is accounted for. -/
theorem authentication_soundness_enrolled : ∃ l c, Requests.Authenticating Enrollee.platform {} l c ∧
    c.state.db.sessions = [Enrollee.session] ∧
    ∀ s ∈ c.state.db.sessions, s.Opened Enrollee.platform l c.state.db := by
  obtain ⟨res, hasks⟩ := Enrollee.asks_runs
  obtain ⟨res', henrolls⟩ := Enrollee.enrolls_runs
  have hr : Async.Pool.Reachable (Effect Enrollee.platform) (serve Enrollee.platform) AuthKept (fun _ _ => True) {} _ :=
    .finish henrolls (.step (.finish hasks (.step .init (.start Enrollee.asks) trivial)) (.start Enrollee.enrolls) trivial)
  obtain ⟨l, hl⟩ := hr.traced
  have hi : Db.Identities {} := ⟨List.nodup_nil, nofun⟩
  exact ⟨l, _, hl, rfl, (authentication_soundness rfl rfl hi hl).1⟩

end Server

end Chhaya
