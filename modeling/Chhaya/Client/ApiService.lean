import Chhaya.Codec.MessageCodec
import Chhaya.Lib.Typestate

/-!
# The API service

`lib/services/api/api_service.dart`: requests, and how the session is kept. The auth token is in memory, where every
request reads it, and in the secure storage; the user id is in memory and in the preferences. `ApiOp` has what the service
reads and writes at once and what it awaits; the programs of one service run beside each other on an event loop.

- `request_follows`: what a request returns comes from its own answer, and a 401 clears for the request that it answers.
- `saveAuth_follows`, `logout_follows`: in which order tokens and user ids are written and removed.
- `body_follows`: every call of the service does only that.
-/

namespace Chhaya

/-- What a request to the server has. -/
structure HttpRequest where
  method : String
  baseUrl : String
  path : String
  authorization : Option String
  body : Option String
  deriving DecidableEq

structure HttpResponse where
  statusCode : Nat
  body : String
  deriving DecidableEq

/-- An `AuthResult`. -/
structure AuthResult where
  userId : String
  token : String
  deriving DecidableEq

/-- `AuthResult.fromJson`. -/
def AuthResult.fromJson (d : Json) : Except DartError AuthResult := do
  let json ← asMap d
  let userId ← asString (field json "userId")
  let token ← asString (field json "token")
  return ⟨userId, token⟩

/-- The token that a request carries. The other two are not in the code: the token that the secure storage held when the
request was sent, and how many tokens had been written until then. -/
structure SentRequest where
  authToken : Option String
  stored : Option String
  saved : Nat
  deriving DecidableEq

/-- What the service does at once, and from `preferences` on what it awaits. `deleteToken` has the request whose 401 it
is for, if it is for one. -/
inductive ApiOp
  | baseUrl
  | setBaseUrl (url : String)
  | deviceId
  | setDeviceId (id : String)
  | isAuthenticated
  | headers
  | clearToken (sent : SentRequest)
  | clearAuth
  | setAuth (data : AuthResult)
  | uuid
  | preferences
  | writeToken (data : AuthResult)
  | storeUserId (data : AuthResult)
  | deleteToken (sent : Option SentRequest)
  | removeAuthToken
  | removeUserId
  | storeBaseUrl (url : String)
  | readDeviceId
  | storeDeviceId (id : String)
  | send (sent : SentRequest) (request : HttpRequest)
  | getKeyPair
  | encryptMessage (plaintext : String) (key : Bytes)
  | createProof (identity : ChhayaKeyPair UInt8) (purpose deviceId : String) (challenge : JsonFields)

@[reducible] def ApiAns : ApiOp → Type
  | .baseUrl => String
  | .deviceId | .readDeviceId => Option String
  | .isAuthenticated => Bool
  | .headers => SentRequest
  | .uuid => String
  | .send _ _ => HttpResponse
  | .getKeyPair => Option (ChhayaKeyPair UInt8)
  | .encryptMessage _ _ => String
  | .createProof _ _ _ _ => String
  | _ => Unit

/-- What is done without an `await`. -/
def ApiOp.Sync : ApiOp → Prop
  | .baseUrl | .setBaseUrl _ | .deviceId | .setDeviceId _ | .isAuthenticated | .headers | .clearToken _ | .clearAuth
  | .setAuth _ | .uuid => True
  | _ => False

abbrev ApiProg (α : Type) := Async ApiOp ApiAns DartError α

/-- The engine's functions and `_validatedUrl`. -/
structure ApiService where
  validatedUrl : String → Except DartError String
  hashString : String → String
  keyFromRecoveryPhrase : String → Bytes

namespace ApiService

/-- One call. -/
def ask (op : ApiOp) : ApiProg (ApiAns op) := Async.await op

def raise {α : Type} (e : DartError) : ApiProg α := .throw e

/-! ## Requests -/

def isNull : Json → Bool
  | .null => true
  | _ => false

/-- The body without its nulls. -/
def cleanBody (body : JsonFields) : String := jsonEncode (.obj (body.filter fun f => !isNull f.2))

/-- What is thrown for a status code from 400 on. -/
def failure (response : HttpResponse) : DartError :=
  let error := match (do asMap (← jsonDecode response.body)) with
    | .ok error => error
    | .error _ => []
  match field error "error" with
  | .null => .api response.statusCode "Server request failed"
  | .str message => .api response.statusCode (String.ofList message)
  | j => castError j "String?"

/-- What `_request` makes of a response that is not a redirect. `empty` is `null as T`. -/
def read {α : Type} (empty : Except DartError α) (parser : Json → Except DartError α) (response : HttpResponse) :
    Except DartError α :=
  if 400 ≤ response.statusCode then .error (failure response)
  else if response.body.isEmpty then empty
  else do parser (← jsonDecode response.body)

/-- The handling of a 401. -/
def clearSession (sent : SentRequest) : ApiProg Unit := do
  ask (.clearToken sent)
  ask (.deleteToken (some sent))

/-- `_request` from the response on. -/
def receive {α : Type} (empty : Except DartError α) (parser : Json → Except DartError α) (sent : SentRequest)
    (response : HttpResponse) : ApiProg α :=
  if 300 ≤ response.statusCode ∧ response.statusCode < 400 then
    raise (.api response.statusCode "Server redirects are not accepted; configure its final HTTPS origin")
  else if response.statusCode = 401 then do
    clearSession sent
    Async.ofExcept (read empty parser response)
  else Async.ofExcept (read empty parser response)

/-- `_request`. -/
def request {α : Type} (method path : String) (body : Option JsonFields) (empty : Except DartError α)
    (parser : Json → Except DartError α) : ApiProg α := do
  let baseUrl ← ask .baseUrl
  if baseUrl.isEmpty then raise (.state "Configure your HTTPS server in Settings first")
  else do
    let sent ← ask .headers
    if method ∈ ["GET", "POST", "PUT", "DELETE"] then do
      let response ← ask (.send sent ⟨method, baseUrl, path, sent.authToken.map ("Bearer " ++ ·), body.map cleanBody⟩)
      receive empty parser sent response
    else raise (.argument method "method" "Unsupported method")

/-- `T` is `dynamic`. -/
def requestAny (method path : String) (body : Option JsonFields) : ApiProg Json :=
  request method path body (.ok .null) .ok

/-! ## The session -/

/-- `_saveAuth`. -/
def saveAuth (data : AuthResult) : ApiProg Unit := do
  ask .preferences
  ask (.writeToken data)
  ask (.storeUserId data)
  ask (.setAuth data)

/-- What `logout` removes here. -/
def clearLocal : ApiProg Unit := do
  ask .clearAuth
  ask .preferences
  ask (.deleteToken none)
  ask .removeAuthToken
  ask .removeUserId

/-- `logout`. -/
def logout : ApiProg Unit := do
  let isAuthenticated ← ask .isAuthenticated
  let baseUrl ← ask .baseUrl
  if isAuthenticated && !baseUrl.isEmpty then do
    let _ ← (requestAny "POST" "/api/v1/auth/logout" none).attempt
    clearLocal
  else clearLocal

def registerPath : String := "/api/v1/auth/register"
def loginPath : String := "/api/v1/auth/login"

def nullable : Option String → Json
  | some s => .str s.toList
  | none => .null

/-- The request of `register` or `login`: what it answers is kept. -/
def authenticate (path : String) (body : JsonFields) : ApiProg AuthResult := do
  let data ← request "POST" path (some body) (.error (castError .null "AuthResult")) AuthResult.fromJson
  saveAuth data
  return data

/-- The arguments of `register` and, but for the first three, of `login`. -/
structure Credentials where
  displayName : String
  publicKey : String
  encryptedPrivateKey : String
  chhayaId : String
  recoveryPhraseHash : String
  deviceId : String
  challengeId : Option String := none
  identityProof : Option String := none
  deviceName : Option String := none
  platform : Option String := none
  fcmToken : Option String := none

/-- The body of `register`. It has neither `challengeId` nor `identityProof`. -/
def registerBody (a : Credentials) : JsonFields :=
  [("chhayaId".toList, .str a.chhayaId.toList), ("displayName".toList, .str a.displayName.toList),
    ("publicKey".toList, .str a.publicKey.toList), ("encryptedPrivateKey".toList, .str a.encryptedPrivateKey.toList),
    ("recoveryPhraseHash".toList, .str a.recoveryPhraseHash.toList), ("deviceId".toList, .str a.deviceId.toList),
    ("deviceName".toList, nullable a.deviceName), ("platform".toList, nullable a.platform),
    ("fcmToken".toList, nullable a.fcmToken)]

/-- The body of `login`. -/
def loginBody (a : Credentials) : JsonFields :=
  [("chhayaId".toList, .str a.chhayaId.toList), ("recoveryPhraseHash".toList, .str a.recoveryPhraseHash.toList),
    ("deviceId".toList, .str a.deviceId.toList), ("deviceName".toList, nullable a.deviceName),
    ("platform".toList, nullable a.platform), ("fcmToken".toList, nullable a.fcmToken)]

/-- `register`. -/
def register (a : Credentials) : ApiProg AuthResult := authenticate registerPath (registerBody a)

/-- `login`. -/
def login (a : Credentials) : ApiProg AuthResult := authenticate loginPath (loginBody a)

/-- `_identityClaim`: the challenge's id and the proof. -/
def identityClaim (purpose : String) (pair : ChhayaKeyPair UInt8) (deviceId : String) : ApiProg (String × String) := do
  let challenge ← request "POST" "/api/v1/auth/challenge"
    (some [("purpose".toList, .str purpose.toList), ("publicKey".toList, .str (hexOf pair.publicKey).toList),
      ("deviceId".toList, .str deviceId.toList)]) (.error (castError .null "Map<String, dynamic>")) asMap
  let proof ← ask (.createProof pair purpose deviceId challenge)
  let challengeId ← Async.ofExcept (asString (field challenge "challengeId"))
  return (challengeId, proof)

/-- `_deviceId!`. -/
def requireDeviceId : ApiProg String := do
  match ← ask .deviceId with
  | some id => return id
  | none => raise (.type "Null check operator used on a null value")

/-- `connectAccount`: the device keeps its id. -/
def loadDeviceId : ApiProg Unit := do
  match ← ask .readDeviceId with
  | some id => ask (.setDeviceId id)
  | none => ask (.setDeviceId (← ask .uuid))

/-- `connectAccount` after a 409: `login`. -/
def loginAgain (a : Credentials) (pair : ChhayaKeyPair UInt8) : ApiProg Unit := do
  let claim ← identityClaim "login" pair (← requireDeviceId)
  let _ ← login { a with
    deviceId := ← requireDeviceId, challengeId := some claim.1, identityProof := some claim.2, platform := none }
  return

/-- `connectAccount` once the device has its id. -/
def signIn (api : ApiService) (profile : UserProfile) : ApiProg Unit := do
  let phrase := " ".intercalate profile.recoveryPhrase
  match ← ask .getKeyPair with
  | none => raise (.state "Identity keys unavailable")
  | some pair => do
    let encrypted ← ask (.encryptMessage (base64Encode pair.privateKey) (api.keyFromRecoveryPhrase phrase))
    let claim ← identityClaim "register" pair (← requireDeviceId)
    let credentials : Credentials :=
      { chhayaId := profile.chhayaId.publicKey, displayName := profile.displayName, publicKey := hexOf pair.publicKey,
        encryptedPrivateKey := encrypted, recoveryPhraseHash := api.hashString phrase, deviceId := ← requireDeviceId,
        platform := some "flutter", challengeId := some claim.1, identityProof := some claim.2 }
    match ← (register credentials).attempt with
    | .ok _ => return
    | .error (.api 409 _) => loginAgain credentials pair
    | .error e => raise e

/-- `connectAccount`. -/
def connectAccount (api : ApiService) (url : String) (profile : UserProfile) : ApiProg Unit := do
  let validated ← Async.ofExcept (api.validatedUrl url)
  logout
  ask (.setBaseUrl validated)
  ask .preferences
  ask (.storeBaseUrl (← ask .baseUrl))
  loadDeviceId
  ask (.storeDeviceId (← requireDeviceId))
  signIn api profile

/-- The calls of the service. `request` stands for every method that is one `_request`. -/
inductive Call
  | request (method path : String) (body : Option JsonFields)
  | register (credentials : Credentials)
  | login (credentials : Credentials)
  | logout
  | connectAccount (url : String) (profile : UserProfile)

/-- The program of the call. -/
def body (api : ApiService) : Call → ApiProg Unit
  | .request method path body => do let _ ← requestAny method path body; return
  | .register credentials => do let _ ← ApiService.register credentials; return
  | .login credentials => do let _ ← ApiService.login credentials; return
  | .logout => ApiService.logout
  | .connectAccount url profile => ApiService.connectAccount api url profile

/-! ## What the calls do one after the other -/

/-- Where a call stands between two writes: `_saveAuth` has written the token and not yet the user id, or `logout` has
deleted the token and not yet removed the user id. -/
inductive Phase
  | rest
  | saving (data : AuthResult)
  | leaving

/-- What a call has been answered, and where it stands. -/
structure Place where
  sents : List SentRequest := []
  answers : List (HttpRequest × HttpResponse) := []
  phase : Phase := .rest

/-- The answer of a login. -/
def IsLogin (e : HttpRequest × HttpResponse) (data : AuthResult) : Prop :=
  (e.1.path = registerPath ∨ e.1.path = loginPath) ∧
    read (.error (castError .null "AuthResult")) AuthResult.fromJson e.2 = .ok data

/-- What may be done outside of the two sections. -/
def Place.May (q : Place) : ApiOp → Prop
  | .clearToken sent => sent ∈ q.sents
  | .deleteToken (some sent) => sent ∈ q.sents
  | .writeToken data => ∃ e ∈ q.answers, IsLogin e data
  | .storeUserId _ | .removeAuthToken | .removeUserId => False
  | _ => True

/-- The order of what the calls do. -/
def order : Async.Typestate ApiOp ApiAns DartError Place where
  may q op := match q.phase with
    | .rest => q.May op
    | .saving data => op = .storeUserId data
    | .leaving => op = .removeAuthToken ∨ op = .removeUserId
  next q op a := match op, a with
    | .headers, .ok sent => { q with sents := sent :: q.sents }
    | .send _ request, .ok response => { q with answers := (request, response) :: q.answers }
    | .writeToken data, .ok _ => { q with phase := .saving data }
    | .storeUserId _, _ => { q with phase := .rest }
    | .deleteToken none, .ok _ => { q with phase := .leaving }
    | .removeAuthToken, .error _ => { q with phase := .rest }
    | .removeUserId, _ => { q with phase := .rest }
    | _, _ => q

/-- What has ended stands in no section. -/
def Ended {α : Type} (_ : Except DartError α) (q : Place) : Prop := q.phase = .rest

/-! ## The calls keep to the order -/

section Calls

variable {α γ : Type} {q : Place} {o : ApiOp} {post : Except DartError α → Place → Prop}

/-- What may be called in no section. -/
theorem may_rest (hq : q.phase = .rest) (hm : q.May o) : order.may q o := by
  show match q.phase with
    | .rest => q.May o
    | .saving data => o = .storeUserId data
    | .leaving => o = .removeAuthToken ∨ o = .removeUserId
  rw [hq]
  exact hm

/-- One call in no section, and what follows it. -/
theorem ask_follows {f : ApiAns o → ApiProg α} (hq : q.phase = .rest) (hm : q.May o)
    (he : ∀ e, post (.error e) (order.next q o (.error e))) (hok : ∀ a, (f a).Follows order post (order.next q o (.ok a))) :
    ((ask o).bind f).Follows order post q :=
  Async.Follows.awaits (may_rest hq hm) he hok

theorem clearSession_follows {sent : SentRequest} (hq : q.phase = .rest) (hs : sent ∈ q.sents) :
    (clearSession sent).Follows order (fun _ q' => q' = q) q :=
  ask_follows (o := .clearToken sent) hq hs (fun _ => rfl) fun _ =>
    Async.Follows.await (may_rest (o := .deleteToken (some sent)) hq hs) fun _ => rfl

/-- The handling of a response, where its request was one of the call. -/
theorem receive_follows {empty : Except DartError α} {parser : Json → Except DartError α} {sent : SentRequest}
    {response : HttpResponse} (hq : q.phase = .rest) (hs : sent ∈ q.sents) :
    (receive empty parser sent response).Follows order (fun r q' => q' = q ∧
      ∀ a, r = .ok a → read empty parser response = .ok a) q := by
  unfold receive
  split
  · exact ⟨rfl, fun a ha => by cases ha⟩
  · split
    · refine Async.Follows.bind ((clearSession_follows hq hs).mono ?_)
      rintro (e | _) q' rfl
      · exact ⟨rfl, fun a ha => by cases ha⟩
      · exact Async.Follows.ofExcept ⟨rfl, fun a ha => ha⟩
    · exact Async.Follows.ofExcept ⟨rfl, fun a ha => ha⟩

/-- What a request returns comes from its own answer, and a 401 clears for the request that it answers. -/
theorem request_follows {method path : String} {body : Option JsonFields} {empty : Except DartError α}
    {parser : Json → Except DartError α} (hq : q.phase = .rest) :
    (request method path body empty parser).Follows order (fun r q' => q'.phase = .rest ∧
      ∀ a, r = .ok a → ∃ e ∈ q'.answers, e.1.path = path ∧ read empty parser e.2 = .ok a) q := by
  refine ask_follows hq trivial (fun e => ⟨hq, fun a ha => by cases ha⟩) fun baseUrl => ?_
  split
  · exact ⟨hq, fun a ha => by cases ha⟩
  · refine ask_follows hq trivial (fun e => ⟨hq, fun a ha => by cases ha⟩) fun sent => ?_
    split
    · refine ask_follows hq trivial (fun e => ⟨hq, fun a ha => by cases ha⟩) fun response => ?_
      refine (receive_follows (q := { q with sents := sent :: q.sents, answers := (_, response) :: q.answers }) hq
        List.mem_cons_self).mono ?_
      rintro r q' ⟨rfl, hr⟩
      exact ⟨hq, fun a ha => ⟨_, List.mem_cons_self, rfl, hr a ha⟩⟩
    · exact ⟨hq, fun a ha => by cases ha⟩

/-- A call goes on from where a request has ended. -/
theorem request_bind {method path : String} {body : Option JsonFields} {empty : Except DartError γ}
    {parser : Json → Except DartError γ} {f : γ → ApiProg α} (hq : q.phase = .rest)
    (he : ∀ e q', q'.phase = .rest → post (.error e) q')
    (hok : ∀ a q', q'.phase = .rest → (∃ e ∈ q'.answers, e.1.path = path ∧ read empty parser e.2 = .ok a) →
      (f a).Follows order post q') : ((request method path body empty parser).bind f).Follows order post q := by
  refine Async.Follows.bind ((request_follows hq).mono ?_)
  rintro (e | a) q' ⟨hq', hr⟩
  · exact he e q' hq'
  · exact hok a q' hq' (hr a rfl)

/-- What `_saveAuth` is called with comes from a login. -/
theorem saveAuth_follows {data : AuthResult} (hq : q.phase = .rest) (h : ∃ e ∈ q.answers, IsLogin e data) :
    (saveAuth data).Follows order Ended q := by
  refine ask_follows hq trivial (fun e => hq) fun _ => ?_
  refine ask_follows hq h (fun e => hq) fun _ => ?_
  refine Async.Follows.awaits rfl (fun e => rfl) fun _ => ?_
  exact Async.Follows.await (may_rest (o := .setAuth data) rfl trivial) fun _ => rfl

theorem clearLocal_follows (hq : q.phase = .rest) : clearLocal.Follows order Ended q := by
  refine ask_follows hq trivial (fun e => hq) fun _ => ?_
  refine ask_follows hq trivial (fun e => hq) fun _ => ?_
  refine ask_follows hq trivial (fun e => hq) fun _ => ?_
  refine Async.Follows.awaits (Or.inl rfl) (fun e => rfl) fun _ => ?_
  exact Async.Follows.await (Or.inr rfl) fun _ => rfl

theorem logout_follows (hq : q.phase = .rest) : logout.Follows order Ended q := by
  refine ask_follows hq trivial (fun e => hq) fun _ => ?_
  refine ask_follows hq trivial (fun e => hq) fun _ => ?_
  split
  · refine Async.Follows.bind (Async.Follows.attempt ((request_follows hq).mono ?_))
    rintro r q' ⟨hq', -⟩
    exact clearLocal_follows hq'
  · exact clearLocal_follows hq

theorem authenticate_follows {path : String} {body : JsonFields} (hq : q.phase = .rest)
    (hp : path = registerPath ∨ path = loginPath) : (authenticate path body).Follows order Ended q := by
  refine request_bind hq (fun e q' h => h) fun data q' hq' ⟨e, he, hpath, hr⟩ => ?_
  refine Async.Follows.bind ((saveAuth_follows hq' ⟨e, he, hpath ▸ hp, hr⟩).mono ?_)
  rintro (e | _) q'' h
  · exact h
  · exact h

theorem identityClaim_follows {purpose : String} {pair : ChhayaKeyPair UInt8} {deviceId : String}
    (hq : q.phase = .rest) : (identityClaim purpose pair deviceId).Follows order Ended q := by
  refine request_bind hq (fun e q' h => h) fun challenge q' hq' _ => ?_
  refine ask_follows hq' trivial (fun e => hq') fun proof => ?_
  refine Async.Follows.bind (Async.Follows.ofExcept ?_)
  cases asString (field challenge "challengeId") <;> exact hq'

theorem requireDeviceId_follows (hq : q.phase = .rest) : requireDeviceId.Follows order Ended q := by
  refine ask_follows hq trivial (fun e => hq) fun id => ?_
  cases id <;> exact hq

/-- A call goes on from where a part of it has ended. -/
theorem ended_bind {p : ApiProg γ} {f : γ → ApiProg α} (h : p.Follows order Ended q)
    (hok : ∀ a q', q'.phase = .rest → (f a).Follows order Ended q') : (p.bind f).Follows order Ended q := by
  refine Async.Follows.bind (h.mono ?_)
  rintro (e | a) q' hq'
  · exact hq'
  · exact hok a q' hq'

theorem loadDeviceId_follows (hq : q.phase = .rest) : loadDeviceId.Follows order Ended q := by
  refine ask_follows hq trivial (fun e => hq) fun id => ?_
  cases id with
  | some id => exact Async.Follows.await (may_rest (o := .setDeviceId id) hq trivial) fun _ => hq
  | none =>
    refine ask_follows hq trivial (fun e => hq) fun id => ?_
    exact Async.Follows.await (may_rest (o := .setDeviceId id) hq trivial) fun _ => hq

theorem loginAgain_follows {a : Credentials} {pair : ChhayaKeyPair UInt8} (hq : q.phase = .rest) :
    (loginAgain a pair).Follows order Ended q := by
  refine ended_bind (requireDeviceId_follows hq) fun _ q hq => ?_
  refine ended_bind (identityClaim_follows hq) fun _ q hq => ?_
  refine ended_bind (requireDeviceId_follows hq) fun _ q hq => ?_
  exact ended_bind (authenticate_follows hq (Or.inr rfl)) fun _ q hq => hq

theorem signIn_follows {api : ApiService} {profile : UserProfile} (hq : q.phase = .rest) :
    (signIn api profile).Follows order Ended q := by
  refine ask_follows hq trivial (fun e => hq) fun pair => ?_
  cases pair with
  | none => exact hq
  | some pair =>
    refine ask_follows hq trivial (fun e => hq) fun encrypted => ?_
    refine ended_bind (requireDeviceId_follows hq) fun _ q hq => ?_
    refine ended_bind (identityClaim_follows hq) fun _ q hq => ?_
    refine ended_bind (requireDeviceId_follows hq) fun _ q hq => ?_
    refine Async.Follows.bind (Async.Follows.attempt ((authenticate_follows hq (Or.inl rfl)).mono fun r q hq => ?_))
    dsimp only
    split
    · exact hq
    · exact loginAgain_follows hq
    · exact hq

theorem connectAccount_follows {api : ApiService} {url : String} {profile : UserProfile} (hq : q.phase = .rest) :
    (connectAccount api url profile).Follows order Ended q := by
  refine ended_bind (Async.Follows.ofExcept hq) fun _ q hq => ?_
  refine ended_bind (logout_follows hq) fun _ q hq => ?_
  refine ask_follows hq trivial (fun e => hq) fun _ => ?_
  refine ask_follows hq trivial (fun e => hq) fun _ => ?_
  refine ask_follows hq trivial (fun e => hq) fun _ => ?_
  refine ask_follows hq trivial (fun e => hq) fun _ => ?_
  refine ended_bind (loadDeviceId_follows hq) fun _ q hq => ?_
  refine ended_bind (requireDeviceId_follows hq) fun _ q hq => ?_
  refine ask_follows hq trivial (fun e => hq) fun _ => ?_
  exact signIn_follows hq

/-- Every call of the service keeps to the order. -/
theorem body_follows (api : ApiService) (i : Call) : (body api i).Follows order Ended {} := by
  cases i with
  | request method path body => exact request_bind rfl (fun e q' h => h) fun _ q' hq' _ => hq'
  | register credentials => exact ended_bind (authenticate_follows rfl (Or.inl rfl)) fun _ q hq => hq
  | login credentials => exact ended_bind (authenticate_follows rfl (Or.inr rfl)) fun _ q hq => hq
  | logout => exact logout_follows rfl
  | connectAccount url profile => exact connectAccount_follows rfl

end Calls

end ApiService

end Chhaya
