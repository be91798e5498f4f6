import Chhaya.Client.AuthTokens
import Chhaya.Server.Registration

/-!
# Connecting an account

`connectAccount` against a server that runs `routes.ts`: what the client sends goes as text to the schemas of the server,
and what the server answers comes back as text.

- `served_registration`: what the server answers to a body that its schema does not accept.
- `registration_parsed`: what the client sends is read as a map without a challenge.
- `connectAccount_fails`: `connectAccount` never ends authenticated.
-/

namespace Chhaya

namespace ApiService

open Async (Amid Runs Rules)

/-! ## The server -/

/-- `express.json()`. -/
def parsedBody (body : Option String) : Option Json := body.bind fun text => (jsonDecode text).toOption

/-- The request of `routes.ts` that an HTTP request is. -/
def routed (request : HttpRequest) : Option Server.Request :=
  if request.method = "POST" ∧ request.path = "/api/v1/auth/challenge" then some (.postChallenge (parsedBody request.body))
  else if request.method = "POST" ∧ request.path = registerPath then some (.postRegister (parsedBody request.body))
  else if request.method = "POST" ∧ request.path = loginPath then some (.postLogin (parsedBody request.body))
  else if request.method = "POST" ∧ request.path = "/api/v1/auth/logout" then some .postLogout
  else none

/-- `res.json`, for the routes under `/auth`. The details of what is wrong are any JSON. -/
inductive Shown : Server.Body → Json → Prop
  | error (text : String) : Shown (.error text) (.obj [("error".toList, .str text.toList)])
  | invalid (text : String) (details : List Zod.Issue) (j : Json) :
    Shown (.invalid text details) (.obj [("error".toList, .str text.toList), ("details".toList, j)])
  | success : Shown .success (.obj [("success".toList, .bool true)])
  | challenge (id : Uuid) (serverPublicKey nonce context : String) : Shown (.challenge id serverPublicKey nonce context)
    (.obj [("challengeId".toList, .str id.text.toList), ("serverPublicKey".toList, .str serverPublicKey.toList),
      ("nonce".toList, .str nonce.toList), ("context".toList, .str context.toList)])
  | session (userId : Uuid) (token : String) : Shown (.session userId token)
    (.obj [("userId".toList, .str userId.text.toList), ("token".toList, .str token.toList)])

/-- A response on the wire. -/
structure Rendered (res : Server.Response) (response : HttpResponse) : Prop where
  status : response.statusCode = res.status
  body : ∃ j, Shown res.body j ∧ response.body = jsonEncode j

/-- What a server answers whose routes are those of `routes.ts`, whatever others do to its database meanwhile. -/
def Served (platform : Server.Platform) (request : HttpRequest) (response : HttpResponse) : Prop :=
  ∀ r, routed request = some r → ∃ w w' res, Amid (Server.Effect platform) (fun _ _ => True)
    (Server.serve platform ⟨request.authorization, r⟩) w (.ok res) w' ∧ Rendered res response

/-- Responses are those of the server, and the HTTP client throws exceptions of its own. -/
def FromServer (platform : Server.Platform) : (op : ApiOp) → Except DartError (ApiAns op) → Prop
  | .send _ request, .ok response => Served platform request response
  | .send _ _, .error e => ∀ status message, e ≠ .api status message
  | _, _ => True

/-- What a call does where the server answers. -/
def Connected (platform : Server.Platform) (s : ApiState) (op : ApiOp) (a : Except DartError (ApiAns op))
    (s' : ApiState) : Prop := Effect s op a s' ∧ FromServer platform op a

/-! ## Requests to register -/

section Registration

variable {platform : Server.Platform} {fields : JsonFields}

theorem registerSchema_missing (h : Zod.lookup fields "challengeId" = none) (data : Server.Register) :
    Server.registerSchema (some (.obj fields)) ≠ .ok data := by
  unfold Server.registerSchema Zod.object
  dsimp only
  iterate 10 refine Zod.Checked.seq_ne_ok (.inl fun _ => ?_) _
  intro h'
  obtain ⟨id, hid, -⟩ := Zod.Checked.map_ok.mp h'
  exact Zod.property_missing h id hid

/-- A body that the schema does not accept is rejected before anything is asked of the database. -/
theorem serve_rejected {authorization : Option String} {body : Option Json} {issues : List Zod.Issue}
    (hs : Server.registerSchema body = .error issues) : Server.serve platform ⟨authorization, .postRegister body⟩ =
      (Server.receive ⟨authorization, .postRegister body⟩).bind fun _ => .done ⟨400, .invalid "Invalid input" issues⟩ := by
  simp only [Server.serve, Server.handle, Server.postRegister, Server.catching, Server.register, Server.parse, hs]
  rfl

/-- The server rejects a registration without a challenge. -/
theorem served_registration {request : HttpRequest} {response : HttpResponse} (hm : request.method = "POST")
    (hp : request.path = registerPath) (hb : parsedBody request.body = some (.obj fields))
    (hf : Zod.lookup fields "challengeId" = none) (h : Served platform request response) : response.statusCode = 400 := by
  have hr : routed request = some (.postRegister (some (.obj fields))) := by
    rw [routed, hm, hp, hb, if_neg (by decide), if_pos (by decide)]
  obtain ⟨w, w', res, hrun, hres⟩ := h _ hr
  rw [hres.status]
  cases hs : Server.registerSchema (some (.obj fields)) with
  | ok data => exact absurd hs (registerSchema_missing hf data)
  | error issues =>
    rw [serve_rejected hs] at hrun
    cases hrun with
    | call _ he hr =>
      cases he with
      | receive =>
        cases hr
        rfl

theorem wfFields_of {l : JsonFields} (h : ∀ f ∈ l, Json.WF f.2) : Json.WFFields l := by
  induction l with
  | nil => exact trivial
  | cons f l ih => exact ⟨h f List.mem_cons_self, ih fun g hg => h g (List.mem_cons_of_mem _ hg)⟩

theorem nullable_wf (s : Option String) : Json.WF (nullable s) := by
  cases s <;> exact trivial

theorem registerBody_wf (a : Credentials) : ∀ f ∈ registerBody a, Json.WF f.2 := by
  simp only [registerBody, List.forall_mem_cons]
  exact ⟨trivial, trivial, trivial, trivial, trivial, trivial, nullable_wf _, nullable_wf _, nullable_wf _, nofun⟩

/-- What is left of a registration is a map without a challenge. -/
theorem registration_parsed (a : Credentials) : ∃ fields, parsedBody (some (cleanBody (registerBody a))) = some (.obj fields) ∧
    Zod.lookup fields "challengeId" = none := by
  have hsub : ((registerBody a).filter fun f => !isNull f.2).Sublist (registerBody a) := List.filter_sublist
  have hkeys : ((registerBody a).map Prod.fst).Nodup := by
    simp only [registerBody, List.map_cons, List.map_nil]
    decide
  have hwf : Json.WF (.obj ((registerBody a).filter fun f => !isNull f.2)) :=
    ⟨hkeys.sublist (hsub.map _), wfFields_of fun f hf => registerBody_wf a f (hsub.subset hf)⟩
  refine ⟨(registerBody a).filter fun f => !isNull f.2, ?_, ?_⟩
  · rw [parsedBody, cleanBody, Option.bind_some, jsonDecode_jsonEncode hwf]
    rfl
  · rw [Zod.lookup, Option.map_eq_none_iff, List.find?_eq_none]
    intro f hf
    have hf' := List.mem_map_of_mem (f := Prod.fst) (hsub.subset hf)
    simp only [registerBody, List.map_cons, List.map_nil] at hf'
    intro he
    rw [beq_iff_eq.mp he] at hf'
    exact absurd hf' (by decide)

end Registration

/-! ## No session -/

/-- A service alone with its server. -/
def alone (platform : Server.Platform) : Rules ApiOp ApiAns DartError ApiState :=
  ⟨Connected platform, fun s s' => s' = s, fun _ _ => True, fun _ => True⟩

/-- A session is not started. -/
def Tame : ApiOp → Prop
  | .setAuth _ => False
  | _ => True

section Session

variable {platform : Server.Platform} {s s' : ApiState} {α γ : Type}

/-- No other call than the end of `_saveAuth` starts a session. -/
theorem Effect.signedOut {op : ApiOp} {a : Except DartError (ApiAns op)} (h : Effect s op a s') (ht : Tame op)
    (hs : s.authToken = none) : s'.authToken = none := by
  cases h with
  | setAuth => exact ht.elim
  | clearToken | clearAuth => rfl
  | _ => exact hs

/-- The call ends without a session. -/
def SignedOut (_ : Except DartError α) (s : ApiState) : Prop := s.authToken = none

theorem tame_safe {p : ApiProg α} (hp : p.Every Tame) (hs : s.authToken = none) : p.Safe (alone platform) SignedOut s := by
  induction p generalizing s with
  | done a => exact hs
  | throw e => exact hs
  | call op k ih =>
    rintro _ rfl - a s' he
    exact ⟨trivial, trivial, ih a (hp.2 a) (he.1.signedOut hp.1 hs)⟩

/-- It throws, and it is no conflict. -/
def Failed (r : Except DartError α) (s : ApiState) : Prop :=
  (∃ e, r = .error e ∧ ∀ m, e ≠ .api 409 m) ∧ s.authToken = none

theorem request_every {method path : String} {body : Option JsonFields} {empty : Except DartError α}
    {parser : Json → Except DartError α} : (request method path body empty parser).Every Tame := by
  refine .bind (.await trivial) fun baseUrl => ?_
  split
  · exact trivial
  refine .bind (.await trivial) fun sent => ?_
  split
  · refine .bind (.await trivial) fun response => ?_
    unfold receive
    split
    · exact trivial
    split
    · refine .bind (.bind (.await trivial) fun _ => .await trivial) fun _ => ?_
      cases read empty parser response <;> exact trivial
    · cases read empty parser response <;> exact trivial
  · exact trivial

theorem clearLocal_safe : clearLocal.Safe (alone platform) SignedOut s := by
  refine .bind (.await ?_)
  rintro _ rfl - a s' ⟨he, -⟩
  refine ⟨trivial, trivial, ?_⟩
  cases he with
  | clearAuth =>
    refine tame_safe ?_ rfl
    exact .bind (.await trivial) fun _ => .bind (.await trivial) fun _ => .bind (.await trivial) fun _ => .await trivial
  | quiet _ h => exact h.elim
  | fails _ h => exact h.elim

/-- `logout` ends without a session, whatever was there before. -/
theorem logout_safe : logout.Safe (alone platform) SignedOut s := by
  refine .bind (.await ?_)
  rintro _ rfl - isAuthenticated s' ⟨he, -⟩
  refine ⟨trivial, trivial, ?_⟩
  cases he with
  | isAuthenticated =>
    refine .bind (.await ?_)
    rintro _ rfl - baseUrl s' ⟨he, -⟩
    refine ⟨trivial, trivial, ?_⟩
    cases he with
    | baseUrl =>
      dsimp only
      split
      · refine .bind (.attempt ((request_every.safe fun _ _ _ _ _ _ _ => ⟨trivial, trivial⟩).mono fun r s' _ => ?_))
        exact clearLocal_safe
      · exact clearLocal_safe
    | quiet _ h => exact h.elim
    | fails _ h => exact h.elim
  | quiet _ h => exact h.elim
  | fails _ h => exact h.elim

/-- What is rejected as malformed is no conflict. -/
theorem failure_rejected {response : HttpResponse} (h : response.statusCode = 400) (m : String) :
    failure response ≠ .api 409 m := by
  unfold failure
  dsimp only
  rw [h]
  split
  · rintro ⟨⟩
  · rintro ⟨⟩
  · unfold castError
    rintro ⟨⟩

theorem receive_rejected {empty : Except DartError α} {parser : Json → Except DartError α} {sent : SentRequest}
    {response : HttpResponse} (h : response.statusCode = 400) :
    receive empty parser sent response = .throw (failure response) := by
  rw [receive, read, h, if_neg (by decide), if_neg (by decide), if_pos le_rfl]
  rfl

/-- A registration fails at the server. -/
theorem register_safe (a : Credentials) (hs : s.authToken = none) : (register a).Safe (alone platform) Failed s := by
  have hrequest : (request "POST" registerPath (some (registerBody a)) (.error (castError .null "AuthResult"))
      AuthResult.fromJson).Safe (alone platform) Failed s := by
    refine .bind (.await ?_)
    rintro _ rfl - baseUrl s' ⟨he, -⟩
    refine ⟨trivial, trivial, ?_⟩
    cases he with
    | baseUrl =>
      dsimp only
      split
      · exact ⟨⟨_, rfl, nofun⟩, hs⟩
      refine .bind (.await ?_)
      rintro _ rfl - sent s' ⟨he, -⟩
      refine ⟨trivial, trivial, ?_⟩
      cases he with
      | headers =>
        dsimp only
        rw [if_pos (by decide)]
        refine .bind (.await ?_)
        rintro _ rfl - response s' ⟨he, hserved⟩
        refine ⟨trivial, trivial, ?_⟩
        cases he with
        | send _ _ response =>
          obtain ⟨fields, hb, hf⟩ := registration_parsed a
          have hstatus := served_registration rfl rfl hb hf hserved
          dsimp only
          rw [receive_rejected hstatus]
          exact ⟨⟨_, rfl, failure_rejected hstatus⟩, hs⟩
        | quiet _ h => exact h.elim
        | fails => exact ⟨⟨_, rfl, hserved 409⟩, hs⟩
      | quiet _ h => exact h.elim
      | fails _ h => exact h.elim
    | quiet _ h => exact h.elim
    | fails _ h => exact h.elim
  refine .bind (hrequest.mono fun r s' ⟨⟨e, he, hne⟩, hs'⟩ => ?_)
  subst he
  exact ⟨⟨e, rfl, hne⟩, hs'⟩

/-- It throws, and no session is left. -/
def Throws (r : Except DartError α) (s : ApiState) : Prop := (∃ e, r = .error e) ∧ s.authToken = none

/-- A part that starts no session, and what follows it. -/
theorem tame_bind {p : ApiProg γ} {f : γ → ApiProg α} (hp : p.Every Tame) (hs : s.authToken = none)
    (hf : ∀ a s', s'.authToken = none → (f a).Safe (alone platform) Throws s') : (p.bind f).Safe (alone platform) Throws s := by
  refine .bind ((tame_safe hp hs).mono fun r s' hs' => ?_)
  cases r with
  | ok a => exact hf a s' hs'
  | error e => exact ⟨⟨e, rfl⟩, hs'⟩

theorem requireDeviceId_every : requireDeviceId.Every Tame := by
  refine .bind (.await trivial) fun id => ?_
  cases id <;> exact trivial

theorem identityClaim_every {purpose : String} {pair : ChhayaKeyPair UInt8} {deviceId : String} :
    (identityClaim purpose pair deviceId).Every Tame := by
  refine .bind request_every fun challenge => .bind (.await trivial) fun proof => ?_
  refine .bind ?_ fun _ => trivial
  cases asString (field challenge "challengeId") <;> exact trivial

/-- The account is not signed in. -/
theorem signIn_safe (api : ApiService) (profile : UserProfile) (hs : s.authToken = none) :
    (signIn api profile).Safe (alone platform) Throws s := by
  refine tame_bind (.await trivial) hs fun pair s hs => ?_
  cases pair with
  | none => exact ⟨⟨_, rfl⟩, hs⟩
  | some pair =>
    refine tame_bind (.await trivial) hs fun encrypted s hs => tame_bind requireDeviceId_every hs fun deviceId s hs =>
      tame_bind identityClaim_every hs fun claim s hs => tame_bind requireDeviceId_every hs fun deviceId s hs => ?_
    refine .bind (.attempt ((register_safe _ hs).mono ?_))
    rintro r s ⟨⟨e, rfl, hne⟩, hs⟩
    dsimp only
    split
    case h_1 hr => cases hr
    case h_2 m hr => exact absurd (Except.error.inj hr) (hne m)
    case h_3 => exact ⟨⟨_, rfl⟩, hs⟩

theorem loadDeviceId_every : loadDeviceId.Every Tame := by
  refine .bind (.await trivial) fun id => ?_
  cases id with
  | some id => exact .await trivial
  | none => exact .bind (.await trivial) fun _ => .await trivial

/-- `connectAccount` never ends authenticated: whatever the account, the prior state of the service and the server, it
throws, and once the URL was accepted no session is left. -/
theorem connectAccount_fails {api : ApiService} {url : String} {profile : UserProfile} {r : Except DartError Unit}
    (h : Runs (Connected platform) (connectAccount api url profile) s (some r) s') :
    (∃ e, r = .error e) ∧ ((∃ validated, api.validatedUrl url = .ok validated) → s'.authToken = none) := by
  cases hv : api.validatedUrl url with
  | error e =>
    unfold connectAccount at h
    rw [hv] at h
    cases h
    exact ⟨⟨e, rfl⟩, nofun⟩
  | ok validated =>
    have hsafe : (connectAccount api url profile).Safe (alone platform) Throws s := by
      unfold connectAccount
      rw [hv]
      refine .bind (.ofExcept ?_)
      dsimp only
      refine .bind (logout_safe.mono fun r s hs => ?_)
      cases r with
      | error e => exact ⟨⟨e, rfl⟩, hs⟩
      | ok _ =>
        refine tame_bind (.await trivial) hs fun _ s hs => tame_bind (.await trivial) hs fun _ s hs =>
          tame_bind (.await trivial) hs fun baseUrl s hs => tame_bind (.await trivial) hs fun _ s hs => ?_
        refine tame_bind loadDeviceId_every hs fun _ s hs => tame_bind requireDeviceId_every hs fun deviceId s hs =>
          tame_bind (.await trivial) hs fun _ s hs => signIn_safe api profile hs
    obtain ⟨-, hq⟩ := Async.Safe.runs (R := alone platform) (fun _ => rfl) h trivial hsafe
    obtain ⟨hthrows, hnone⟩ := hq r rfl
    exact ⟨hthrows, fun _ => hnone⟩

end Session

/-! ## A run -/

section Run

variable {platform : Server.Platform} {s : ApiState} {α : Type}

/-- A map of texts as the server reads it. -/
theorem parsed_texts {fields : JsonFields} (hn : (fields.map Prod.fst).Nodup) (ht : ∀ f ∈ fields, ∃ t, f.2 = .str t) :
    parsedBody (some (cleanBody fields)) = some (.obj fields) := by
  have hf : (fields.filter fun f => !isNull f.2) = fields := List.filter_eq_self.mpr fun f hf => by
    obtain ⟨t, ht⟩ := ht f hf
    rw [ht]
    rfl
  have hwf : Json.WF (.obj fields) := ⟨hn, wfFields_of fun f hf => by
    obtain ⟨t, ht⟩ := ht f hf
    rw [ht]
    trivial⟩
  rw [parsedBody, cleanBody, hf, Option.bind_some, jsonDecode_jsonEncode hwf]
  rfl

/-- The settings of the service are as before, and it is still signed out. -/
def Stays (s s' : ApiState) : Prop := s'.baseUrl = s.baseUrl ∧ s'.deviceId = s.deviceId ∧ s'.authToken = none

/-- A request that the server answers. -/
theorem answered_runs {method path : String} (body : Option JsonFields) (empty : Except DartError α)
    (parser : Json → Except DartError α) {response : HttpResponse} (hurl : s.baseUrl.isEmpty = false)
    (ht : s.authToken = none) (hm : method ∈ ["GET", "POST", "PUT", "DELETE"])
    (hs : response.statusCode < 300 ∨ response.statusCode = 400)
    (hserved : Served platform ⟨method, s.baseUrl, path, none, body.map cleanBody⟩ response) : ∃ s', Stays s s' ∧
    Runs (Connected platform) (request method path body empty parser) s (some (read empty parser response)) s' := by
  have hreceive : ∀ sent, receive empty parser sent response = Async.ofExcept (read empty parser response) := by
    intro sent
    rw [receive, if_neg (by omega), if_neg (by omega)]
  have hsent : Served platform (requestBy s method path body) response := by
    rw [requestBy, ht]
    exact hserved
  refine ⟨{ s with answered := (requestBy s method path body, response) :: s.answered }, ⟨rfl, rfl, ht⟩, ?_⟩
  refine .call ⟨.baseUrl s, trivial⟩ ?_
  show Runs _ (if s.baseUrl.isEmpty then _ else _) s _ _
  rw [if_neg (by rw [hurl]; decide)]
  refine .call ⟨.headers s, trivial⟩ ?_
  show Runs _ (if _ then _ else _) s _ _
  rw [if_pos hm]
  refine .call ⟨.send s (sentBy s) (requestBy s method path body) response, hsent⟩ ?_
  show Runs _ (receive empty parser (sentBy s) response) _ _ _
  rw [hreceive]
  cases read empty parser response with
  | ok a => exact .done _ _
  | error e => exact .throw _ _

/-- The body of a request for a challenge. -/
def challengeBody (purpose publicKey deviceId : String) : JsonFields :=
  [("purpose".toList, .str purpose.toList), ("publicKey".toList, .str publicKey.toList),
    ("deviceId".toList, .str deviceId.toList)]

/-- A challenge as the client reads it. -/
def challengeFields (c : Server.Challenge) : JsonFields :=
  [("challengeId".toList, .str c.challengeId.text.toList), ("serverPublicKey".toList, .str c.serverPublicKey.toList),
    ("nonce".toList, .str c.nonce.toList), ("context".toList, .str c.context.toList)]

/-- A challenge is issued with what was drawn. -/
theorem postChallenge_runs {body : Option Json} {publicKey purpose : String} {deviceId challengeId : Uuid}
    {privateKey nonce : Bytes} {w : Server.World}
    (hs : Server.challengeSchema body = .ok ⟨publicKey, deviceId.text, purpose⟩) (hk : privateKey.length = 32)
    (hn : nonce.length = 32) (hz : ¬(Server.sharedSecret platform privateKey publicKey).all (· == 0) = true)
    (hw : w.db.challenges = []) : ∃ w', Runs (Server.Effect platform) (Server.postChallenge platform body) w
      (some (.ok ⟨200, .challenge challengeId (hexOf (platform.x25519Public privateKey)) (hexOf nonce)
        (Server.challengeOf platform privateKey challengeId nonce publicKey deviceId.text purpose).context⟩)) w' := by
  obtain ⟨d, audit⟩ := w
  have hcreate : Runs (Server.Effect platform) (Server.createIdentityChallenge platform publicKey deviceId.text purpose)
      ⟨d, audit⟩ (some (.ok (Server.challengeOf platform privateKey challengeId nonce publicKey deviceId.text purpose)))
      ⟨d, audit⟩ := by
    refine .call (.randomBytes _ 32 ⟨privateKey, hk⟩) ?_
    show Runs _ (if _ then _ else _) _ _ _
    rw [if_neg hz]
    exact .call (.randomUUID _ challengeId) (.call (.randomBytes _ 32 ⟨nonce, hn⟩) (.done _ _))
  obtain ⟨w', hissue⟩ : ∃ w', Runs (Server.Effect platform)
      (Server.issueIdentityChallenge platform publicKey deviceId.text purpose) ⟨d, audit⟩
      (some (.ok (Server.challengeOf platform privateKey challengeId nonce publicKey deviceId.text purpose))) w' := by
    obtain ⟨d', hinsert⟩ : ∃ d', Server.exec platform d.deleteExpiredChallenges (.insertChallenge
        (Server.challengeOf platform privateKey challengeId nonce publicKey deviceId.text purpose)) = some ((), d') := by
      simp [Server.exec, Server.challengeOf, Uuid.read_text, Server.Db.insertChallenge, Server.Db.deleteExpiredChallenges,
        show d.challenges = [] from hw]
    exact ⟨_, hcreate.bind (.call (.atOnce rfl) (.call (.atOnce hinsert) (.done _ _)))⟩
  refine ⟨w', ?_⟩
  unfold Server.postChallenge
  rw [Server.parse_ok hs]
  exact hissue.attempt.bind (.done _ _)

/-- The server issues a challenge. -/
theorem challenge_served {purpose publicKey base : String} {deviceId challengeId : Uuid} {privateKey nonce : Bytes}
    (hx : Zod.isHex64 publicKey = true) (hp : purpose ∈ ["register", "login"]) (hk : privateKey.length = 32)
    (hn : nonce.length = 32) (hs : ¬(Server.sharedSecret platform privateKey publicKey).all (· == 0) = true) :
    Served platform ⟨"POST", base, "/api/v1/auth/challenge", none,
        some (cleanBody (challengeBody purpose publicKey deviceId.text))⟩
      ⟨200, jsonEncode (.obj (challengeFields (Server.challengeOf platform privateKey challengeId nonce publicKey
        deviceId.text purpose)))⟩ := by
  have hparsed : parsedBody (some (cleanBody (challengeBody purpose publicKey deviceId.text))) =
      some (.obj (challengeBody purpose publicKey deviceId.text)) := by
    refine parsed_texts ?_ ?_
    · simp only [challengeBody, List.map_cons, List.map_nil]
      decide
    · simp only [challengeBody, List.forall_mem_cons]
      exact ⟨⟨_, rfl⟩, ⟨_, rfl⟩, ⟨_, rfl⟩, nofun⟩
  have hschema : Server.challengeSchema (some (.obj (challengeBody purpose publicKey deviceId.text))) =
      .ok ⟨publicKey, deviceId.text, purpose⟩ := by
    have h1 : Zod.lookup (challengeBody purpose publicKey deviceId.text) "purpose" = some (.str purpose.toList) := rfl
    have h2 : Zod.lookup (challengeBody purpose publicKey deviceId.text) "publicKey" = some (.str publicKey.toList) := rfl
    have h3 : Zod.lookup (challengeBody purpose publicKey deviceId.text) "deviceId" = some (.str deviceId.text.toList) := rfl
    have hpurpose : Zod.enum ["register", "login"] (some (.str purpose.toList)) = .ok purpose := by
      simp only [Zod.enum, String.ofList_toList]
      rw [if_pos hp]
    unfold Server.challengeSchema Zod.object
    simp only [Zod.property, h1, h2, h3, hpurpose, Zod.string_regex hx, Zod.string_uuid deviceId.isUuid_text]
    rfl
  have hr : routed ⟨"POST", base, "/api/v1/auth/challenge", none,
      some (cleanBody (challengeBody purpose publicKey deviceId.text))⟩ =
        some (.postChallenge (some (.obj (challengeBody purpose publicKey deviceId.text)))) := by
    rw [routed, if_pos ⟨rfl, rfl⟩]
    dsimp only
    rw [hparsed]
  rintro r hr'
  obtain rfl := Option.some.inj (hr.symm.trans hr')
  let call : Server.Call := ⟨none, .postChallenge (some (.obj (challengeBody purpose publicKey deviceId.text)))⟩
  obtain ⟨w', hw⟩ := @postChallenge_runs platform _ _ _ _ challengeId _ _ ⟨{}, { received := [call] }⟩ hschema hk hn hs rfl
  have hserve : Runs (Server.Effect platform) (Server.serve platform call) {} (some (.ok ⟨200, .challenge _ _ _ _⟩)) w' :=
    Server.serve_runs (Server.Effect.receive {} call) hw
  exact ⟨{}, w', _, Runs.amid (fun _ => trivial) hserve, rfl, _, .challenge _ _ _ _, rfl⟩

/-- The server rejects a registration. -/
theorem registration_served (a : Credentials) (base : String) :
    Served platform ⟨"POST", base, registerPath, none, some (cleanBody (registerBody a))⟩
      ⟨400, jsonEncode (.obj [("error".toList, .str "Invalid input".toList), ("details".toList, .arr [])])⟩ := by
  obtain ⟨fields, hb, hf⟩ := registration_parsed a
  have hr : routed ⟨"POST", base, registerPath, none, some (cleanBody (registerBody a))⟩ =
      some (.postRegister (some (.obj fields))) := by
    rw [routed, if_neg (by simp [registerPath]), if_pos ⟨rfl, rfl⟩]
    dsimp only
    rw [hb]
  rintro r hr'
  obtain rfl := Option.some.inj (hr.symm.trans hr')
  cases hs : Server.registerSchema (some (.obj fields)) with
  | ok data => exact absurd hs (registerSchema_missing hf data)
  | error issues =>
    let call : Server.Call := ⟨none, .postRegister (some (.obj fields))⟩
    have hrun : Runs (Server.Effect platform) (Server.serve platform call) {}
        (some (.ok ⟨400, .invalid "Invalid input" issues⟩)) ⟨{}, { received := [call] }⟩ := by
      rw [serve_rejected hs]
      exact .call (.receive _ _) (.done _ _)
    exact ⟨{}, _, _, Runs.amid (fun _ => trivial) hrun, rfl, _, .invalid _ _ _, rfl⟩

/-- The challenge of the server is read. -/
theorem read_challenge (c : Server.Challenge) : read (.error (castError .null "Map<String, dynamic>")) asMap
    ⟨200, jsonEncode (.obj (challengeFields c))⟩ = .ok (challengeFields c) := by
  have hdecode : jsonDecode (jsonEncode (.obj (challengeFields c))) = .ok (.obj (challengeFields c)) :=
    jsonDecode_jsonEncode (by simp [challengeFields, Json.WF, Json.WFFields])
  have hempty : (jsonEncode (.obj (challengeFields c))).isEmpty = false := by
    simp [jsonEncode, challengeFields, Json.encode]
  unfold read
  rw [if_neg (show ¬400 ≤ 200 by decide), if_neg (by rw [hempty]; decide), hdecode]
  rfl

/-- What the server rejects is thrown. -/
theorem read_rejected : read (.error (castError .null "AuthResult")) AuthResult.fromJson
    ⟨400, jsonEncode (.obj [("error".toList, .str "Invalid input".toList), ("details".toList, .arr [])])⟩ =
      .error (.api 400 "Invalid input") := by
  obtain ⟨fields, hfields⟩ : ∃ fields : JsonFields,
      fields = [("error".toList, .str "Invalid input".toList), ("details".toList, .arr [])] := ⟨_, rfl⟩
  have hwf : Json.WF (.obj fields) := by
    rw [hfields]
    simp [Json.WF, Json.WFFields, Json.WFElements]
  have hfield : field fields "error" = .str "Invalid input".toList := by
    rw [hfields]
    simp [field]
  rw [← hfields, read, if_pos (show 400 ≤ 400 by decide), failure]
  dsimp only
  rw [jsonDecode_jsonEncode hwf]
  simp only [asMap, bind, Except.bind, hfield, String.ofList_toList]

/-- A claim is made for a challenge that the server issues. -/
theorem identityClaim_runs {purpose : String} {pair : ChhayaKeyPair UInt8} {deviceId challengeId : Uuid}
    {privateKey nonce : Bytes} (hurl : s.baseUrl.isEmpty = false) (ht : s.authToken = none)
    (hx : Zod.isHex64 (hexOf pair.publicKey) = true) (hp : purpose ∈ ["register", "login"]) (hk : privateKey.length = 32)
    (hn : nonce.length = 32)
    (hs : ¬(Server.sharedSecret platform privateKey (hexOf pair.publicKey)).all (· == 0) = true) : ∃ s', Stays s s' ∧
    Runs (Connected platform) (identityClaim purpose pair deviceId.text) s (some (.ok (challengeId.text, "proof"))) s' := by
  obtain ⟨c, rfl, hserved⟩ : ∃ c : Server.Challenge, c.challengeId = challengeId ∧
      Served platform ⟨"POST", s.baseUrl, "/api/v1/auth/challenge", none,
        some (cleanBody (challengeBody purpose (hexOf pair.publicKey) deviceId.text))⟩
        ⟨200, jsonEncode (.obj (challengeFields c))⟩ :=
    ⟨_, rfl, @challenge_served platform purpose (hexOf pair.publicKey) s.baseUrl deviceId challengeId privateKey nonce
      hx hp hk hn hs⟩
  obtain ⟨s', hstays, hrequest⟩ := answered_runs
    (some (challengeBody purpose (hexOf pair.publicKey) deviceId.text))
    (.error (castError .null "Map<String, dynamic>")) asMap hurl ht (by decide)
    (Or.inl (show 200 < 300 by decide)) hserved
  rw [read_challenge c] at hrequest
  have hid : asString (field (challengeFields c) "challengeId") = .ok c.challengeId.text := by
    have hfield : field (challengeFields c) "challengeId" = .str c.challengeId.text.toList := rfl
    rw [hfield]
    exact congrArg _ String.ofList_toList
  refine ⟨s', hstays, hrequest.bind (.call ⟨.quiet _ (.ok "proof") trivial, trivial⟩ ?_)⟩
  dsimp only [Async.bind]
  rw [hid]
  exact .done _ _

/-- A service that is signed out stays so. -/
theorem logout_runs (ht : s.authToken = none) : Runs (Connected platform) logout s (some (.ok ()))
    { s with authToken := none, userId := none, storedToken := none, storedUserId := none } := by
  refine .call ⟨.isAuthenticated s, trivial⟩ (.call ⟨.baseUrl s, trivial⟩ ?_)
  dsimp only
  rw [ht]
  refine .call ⟨.clearAuth s, trivial⟩ (.call ⟨.quiet _ (.ok ()) trivial, trivial⟩ ?_)
  refine .call ⟨.deleteToken _ (.ok ()), trivial⟩ (.call ⟨.quiet _ (.ok ()) trivial, trivial⟩ ?_)
  exact .call ⟨.removeUserId _ (.ok ()), trivial⟩ (.done _ _)

/-- The device id is there. -/
theorem requireDeviceId_runs {id : String} (hd : s.deviceId = some id) :
    Runs (Connected platform) requireDeviceId s (some (.ok id)) s := by
  refine .call ⟨.deviceId s, trivial⟩ ?_
  dsimp only
  rw [hd]
  exact .done _ _

/-- The server rejects the registration. -/
theorem register_runs (a : Credentials) (hurl : s.baseUrl.isEmpty = false) (ht : s.authToken = none) :
    ∃ s', Runs (Connected platform) (register a) s (some (.error (.api 400 "Invalid input"))) s' := by
  have hserved : Served platform _ _ := registration_served a s.baseUrl
  obtain ⟨s', -, hrequest⟩ := answered_runs (some (registerBody a)) (.error (castError .null "AuthResult"))
    AuthResult.fromJson hurl ht (by decide) (Or.inr (Eq.refl 400)) hserved
  rw [read_rejected] at hrequest
  exact ⟨s', hrequest.bind_error⟩

/-- A service that has no session and no device id connects to a server, and the server rejects it. -/
theorem connect_runs {api : ApiService} {url base : String} {profile : UserProfile} {pair : ChhayaKeyPair UInt8}
    (deviceId challengeId : Uuid) {privateKey nonce : Bytes} (hv : api.validatedUrl url = .ok base)
    (hurl : base.isEmpty = false) (ht : s.authToken = none) (hx : Zod.isHex64 (hexOf pair.publicKey) = true)
    (hk : privateKey.length = 32) (hn : nonce.length = 32)
    (hs : ¬(Server.sharedSecret platform privateKey (hexOf pair.publicKey)).all (· == 0) = true) :
    ∃ s', Runs (Connected platform) (connectAccount api url profile) s (some (.error (.api 400 "Invalid input"))) s' := by
  obtain ⟨s₁, hs₁⟩ : ∃ s₁ : ApiState, s₁ = ⟨base, some deviceId.text, none, none, none, none, s.earlier, s.answered, s.saved,
    s.history⟩ := ⟨_, rfl⟩
  obtain ⟨s₂, ⟨hurl₂, hd₂, ht₂⟩, hclaim⟩ := @identityClaim_runs platform s₁ "register" pair deviceId challengeId privateKey
    nonce (by rw [hs₁]; exact hurl) (by rw [hs₁]) hx (by decide) hk hn hs
  obtain ⟨s₃, hregister⟩ := @register_runs platform s₂
    { chhayaId := profile.chhayaId.publicKey, displayName := profile.displayName, publicKey := hexOf pair.publicKey,
      encryptedPrivateKey := "", recoveryPhraseHash := api.hashString (" ".intercalate profile.recoveryPhrase),
      deviceId := deviceId.text, platform := some "flutter", challengeId := some challengeId.text,
      identityProof := some "proof" } (by rw [hurl₂, hs₁]; exact hurl) ht₂
  refine ⟨s₃, ?_⟩
  unfold connectAccount
  rw [hv]
  refine Runs.bind (.done _ _) ((logout_runs ht).bind ?_)
  refine .call ⟨.setBaseUrl _ _, trivial⟩ (.call ⟨.quiet _ (.ok ()) trivial, trivial⟩ (.call ⟨.baseUrl _, trivial⟩ ?_))
  refine .call ⟨.quiet _ (.ok ()) trivial, trivial⟩ ?_
  have hload : Runs (Connected platform) loadDeviceId
      ⟨base, s.deviceId, none, none, none, none, s.earlier, s.answered, s.saved, s.history⟩ (some (.ok ())) s₁ := by
    rw [hs₁]
    refine .call ⟨.quiet _ (.ok (some deviceId.text)) trivial, trivial⟩ ?_
    exact .call ⟨.setDeviceId _ _, trivial⟩ (.done _ _)
  have hid₁ : Runs (Connected platform) requireDeviceId s₁ (some (.ok deviceId.text)) s₁ :=
    requireDeviceId_runs (by rw [hs₁])
  have hid₂ : Runs (Connected platform) requireDeviceId s₂ (some (.ok deviceId.text)) s₂ :=
    requireDeviceId_runs (by rw [hd₂, hs₁])
  refine hload.bind (hid₁.bind ?_)
  refine .call ⟨.quiet _ (.ok ()) trivial, trivial⟩ (.call ⟨.quiet _ (.ok (some pair)) trivial, trivial⟩ ?_)
  refine .call ⟨.quiet _ (.ok "") trivial, trivial⟩ ?_
  show Runs _ (Async.bind requireDeviceId _) _ _ _
  exact hid₁.bind (hclaim.bind (hid₂.bind (hregister.attempt.bind (.throw _ _))))

/-- An account that `createAccount` has made, and an install that was never connected. -/
def freshAccount : UserProfile :=
  ⟨⟨"05" ++ hexOf (List.replicate 32 7), ⟨0, true⟩⟩, "fresh", none, ["abandon", "ability"], ⟨0, true⟩⟩

def freshService : ApiState := ⟨"", none, none, none, none, none, [], [], 0, []⟩

/-- The server issues a challenge, answers every request and has no account yet. -/
theorem fresh_runs : ∃ s', Runs (Connected Server.Reader.platform)
    (connectAccount plainService "https://chat.example.com" freshAccount) freshService
    (some (.error (.api 400 "Invalid input"))) s' := by
  have hkey : (List.replicate 32 (7 : UInt8)).length = 32 := List.length_replicate
  have hsecret : ¬(Server.sharedSecret Server.Reader.platform (List.replicate 32 7) (hexOf (List.replicate 32 7))).all
      (· == 0) = true := by decide
  exact @connect_runs Server.Reader.platform freshService plainService _ _ freshAccount
    ⟨List.replicate 32 7, List.replicate 32 7⟩ (Server.Reader.uuid 1) (Server.Reader.uuid 2) (List.replicate 32 7)
    (List.replicate 32 7) rfl (by decide) rfl (Server.isHex64_hexOf hkey) hkey hkey hsecret

theorem fresh_fails : ∃ s', Runs (Connected Server.Reader.platform)
    (connectAccount plainService "https://chat.example.com" freshAccount) freshService
    (some (.error (.api 400 "Invalid input"))) s' ∧ s'.authToken = none := by
  obtain ⟨s', h⟩ := fresh_runs
  exact ⟨s', h, (connectAccount_fails h).2 ⟨_, rfl⟩⟩

/-- Connecting a fresh account fails although the server answers. -/
theorem fresh_rejected : ¬∀ (r : Except DartError Unit) (s' : ApiState), Runs (Connected Server.Reader.platform)
    (connectAccount plainService "https://chat.example.com" freshAccount) freshService (some r) s' →
      r = .ok () ∨ ∃ e, r = .error e ∧ ∀ status message, e ≠ .api status message := by
  intro h
  obtain ⟨s', hrun⟩ := fresh_runs
  obtain hr | ⟨e, he, hne⟩ := h _ s' hrun
  · cases hr
  · cases he
    exact hne 400 _ rfl

end Run

end ApiService

end Chhaya
