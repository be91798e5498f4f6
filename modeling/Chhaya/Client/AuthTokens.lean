import Chhaya.Client.ApiService
import Chhaya.Codec.Records

/-!
# Which session a 401 ends

The auth token in memory and in the secure storage and the user id in the preferences, while the calls of one service run
beside each other. A request carries the token that is in memory when it is sent; a 401 clears the one that is there when
it is answered.

- `Knows.step`: what a call does keeps what is known of the places of all calls.
- `session_holds`: in runs of which every step is orderly, a 401 clears only the token of its request, and a stored token
  has its user id.
- `session_lost`: a slow request whose 401 ends the session of a later login.
-/

namespace Chhaya

namespace ApiService

open Async (Pool Task Runs Turn)

/-- What has happened to the token: a login has written it over a user id, a write of a login has failed, and a 401 has
cleared the token in memory or in the storage, when so many had been written. -/
inductive Mark
  | saves (data : AuthResult) (found : Option String)
  | broke
  | forgot (sent : SentRequest) (token : Option String) (saved : Nat)
  | deleted (sent : SentRequest) (token : Option String) (saved : Nat)

/-- What is in memory and in the storages. The last four are not in the code: the logins before the start, the requests
that have been answered, how many tokens have been written, and what has happened to them, the newest first. -/
structure ApiState where
  baseUrl : String
  deviceId : Option String := none
  authToken : Option String := none
  userId : Option String := none
  storedToken : Option String := none
  storedUserId : Option String := none
  earlier : List AuthResult := []
  answered : List (HttpRequest × HttpResponse) := []
  saved : Nat := 0
  history : List Mark := []

/-- What leaves the state as it is. -/
def Quiet : ApiOp → Prop
  | .uuid | .preferences | .removeAuthToken | .storeBaseUrl _ | .readDeviceId | .storeDeviceId _ | .getKeyPair
  | .encryptMessage _ _ | .createProof _ _ _ _ => True
  | _ => False

/-- What may fail before it has done anything. A user id that is not written is remembered. -/
def MayFail : ApiOp → Prop
  | .writeToken _ | .deleteToken _ | .removeUserId | .send _ _ => True
  | _ => False

/-- The effect of a call. What is written or deleted may also be reported as failed. -/
inductive Effect : ApiState → (op : ApiOp) → Except DartError (ApiAns op) → ApiState → Prop
  | baseUrl (s : ApiState) : Effect s .baseUrl (.ok s.baseUrl) s
  | setBaseUrl (s : ApiState) (url : String) : Effect s (.setBaseUrl url) (.ok ()) { s with baseUrl := url }
  | deviceId (s : ApiState) : Effect s .deviceId (.ok s.deviceId) s
  | setDeviceId (s : ApiState) (id : String) : Effect s (.setDeviceId id) (.ok ()) { s with deviceId := some id }
  | isAuthenticated (s : ApiState) : Effect s .isAuthenticated (.ok s.authToken.isSome) s
  | headers (s : ApiState) : Effect s .headers (.ok ⟨s.authToken, s.storedToken, s.saved⟩) s
  | clearToken (s : ApiState) (sent : SentRequest) : Effect s (.clearToken sent) (.ok ())
      { s with authToken := none, history := .forgot sent s.authToken s.saved :: s.history }
  | clearAuth (s : ApiState) : Effect s .clearAuth (.ok ()) { s with authToken := none, userId := none }
  | setAuth (s : ApiState) (data : AuthResult) : Effect s (.setAuth data) (.ok ())
      { s with authToken := some data.token, userId := some data.userId, saved := s.saved + 1 }
  | writeToken (s : ApiState) (data : AuthResult) : Effect s (.writeToken data) (.ok ())
      { s with storedToken := some data.token, saved := s.saved + 1, history := .saves data s.storedUserId :: s.history }
  | writeTokenLost (s : ApiState) (data : AuthResult) (e : DartError) : Effect s (.writeToken data) (.error e)
      { s with storedToken := some data.token, saved := s.saved + 1, history := .broke :: s.history }
  | storeUserId (s : ApiState) (data : AuthResult) (a : Except DartError Unit) : Effect s (.storeUserId data) a
      { s with storedUserId := some data.userId }
  | storeUserIdFails (s : ApiState) (data : AuthResult) (e : DartError) : Effect s (.storeUserId data) (.error e)
      { s with history := .broke :: s.history }
  | deleteToken (s : ApiState) (a : Except DartError Unit) : Effect s (.deleteToken none) a { s with storedToken := none }
  | endSession (s : ApiState) (sent : SentRequest) (a : Except DartError Unit) : Effect s (.deleteToken (some sent)) a
      { s with storedToken := none, history := .deleted sent s.storedToken s.saved :: s.history }
  | removeUserId (s : ApiState) (a : Except DartError Unit) : Effect s .removeUserId a { s with storedUserId := none }
  | send (s : ApiState) (sent : SentRequest) (request : HttpRequest) (response : HttpResponse) :
      Effect s (.send sent request) (.ok response) { s with answered := (request, response) :: s.answered }
  | quiet (s : ApiState) {op : ApiOp} (a : Except DartError (ApiAns op)) (h : Quiet op) : Effect s op a s
  | fails (s : ApiState) {op : ApiOp} (e : DartError) (h : MayFail op) : Effect s op (.error e) s

/-- One login has answered with the token and the user id. -/
def SameLogin (s : ApiState) (token userId : String) : Prop :=
  (∃ data ∈ s.earlier, data.token = token ∧ data.userId = userId) ∨
    ∃ e ∈ s.answered, ∃ data, IsLogin e data ∧ data.token = token ∧ data.userId = userId

/-- The call is between the two writes of a login. -/
def Saving (data : AuthResult) (t : Task Call ApiOp ApiAns DartError Unit) : Prop :=
  ∃ k, t.rest = .call (.storeUserId data) k

/-- The call has removed the token and not yet the user id. -/
def Leaving (t : Task Call ApiOp ApiAns DartError Unit) : Prop :=
  (∃ k, t.rest = .call .removeAuthToken k) ∨ ∃ k, t.rest = .call .removeUserId k

/-- A login writes its token where no other user id is stored, no logout is on its way and every other login that writes
is of the same user, and no write of a login fails; a 401 finds no token, or since its request was sent no token was
written, and what was in memory was stored. -/
def Mark.Orderly (running : List (Task Call ApiOp ApiAns DartError Unit)) : Mark → Prop
  | .saves data found => (found = none ∨ found = some data.userId) ∧
      ∀ t ∈ running, ¬Leaving t ∧ ∀ d, Saving d t → d.userId = data.userId
  | .broke => False
  | .forgot sent token saved => token = none ∨ sent.saved = saved
  | .deleted sent token saved => token = none ∨ (sent.stored = sent.authToken ∧ sent.saved = saved)

/-- What happens while the calls of a loop wait or run is orderly. -/
def OrderlyTo (c : Pool Call ApiOp ApiAns DartError Unit ApiState) (s : ApiState) : Prop :=
  ∃ marks, s.history = marks ++ c.state.history ∧ ∀ m ∈ marks, m.Orderly c.running

/-- The steps of an orderly run. -/
def Orderly (c c' : Pool Call ApiOp ApiAns DartError Unit ApiState) : Prop := OrderlyTo c c'.state

/-- A service that has not been called yet: a stored token has its user id. -/
structure Opened (s : ApiState) : Prop where
  history : s.history = []
  stored : ∀ token, s.storedToken = some token → ∃ userId, s.storedUserId = some userId ∧ SameLogin s token userId

/-- A 401 has cleared only the token of its request. -/
def Mark.Fair : Mark → Prop
  | .forgot sent token _ | .deleted sent token _ => token = none ∨ token = sent.authToken
  | _ => True

/-- What should hold of the session: it is ended only by a 401 of its own, and a stored token and a stored user id are
of one login, which has both as long as no login is between its two writes. -/
structure SessionHolds (c : Pool Call ApiOp ApiAns DartError Unit ApiState) : Prop where
  fair : ∀ m ∈ c.state.history, m.Fair
  same : ∀ token userId, c.state.storedToken = some token → c.state.storedUserId = some userId →
    SameLogin c.state token userId
  stored : ∀ token, c.state.storedToken = some token → (∀ t ∈ c.running, ∀ data, ¬Saving data t) →
    ∃ userId, c.state.storedUserId = some userId

/-! ## What is known of the calls -/

section

variable {s s' : ApiState} {q q' : Place} {qs rs : List Place}

/-- What is known of one call: its answers and its login have come, and as long as no token was written since, the token
in memory and the stored one are those of its requests. -/
structure Place.Known (s : ApiState) (q : Place) : Prop where
  answers : ∀ e ∈ q.answers, e ∈ s.answered
  saving : ∀ data, q.phase = .saving data → ∃ e ∈ s.answered, IsLogin e data
  older : ∀ sent ∈ q.sents, sent.saved ≤ s.saved
  memory : ∀ sent ∈ q.sents, sent.saved = s.saved → s.authToken = none ∨ s.authToken = sent.authToken
  storage : ∀ sent ∈ q.sents, sent.saved = s.saved → s.storedToken = none ∨ s.storedToken = sent.stored

/-- What is known of all calls together. -/
structure Knows (s : ApiState) (qs : List Place) : Prop where
  known : ∀ q ∈ qs, q.Known s
  fair : ∀ m ∈ s.history, m.Fair
  same : ∀ token userId, s.storedToken = some token → s.storedUserId = some userId → SameLogin s token userId
  saving : ∀ q ∈ qs, ∀ data, q.phase = .saving data →
    (∀ token, s.storedToken = some token → SameLogin s token data.userId) ∧
      (s.storedUserId = none ∨ s.storedUserId = some data.userId)
  savings : ∀ q ∈ qs, ∀ q' ∈ qs, ∀ data data', q.phase = .saving data → q'.phase = .saving data' →
    data.userId = data'.userId
  leaving : ∀ q ∈ qs, q.phase = .leaving → s.storedToken = none
  stored : ∀ token, s.storedToken = some token → (∀ q ∈ qs, ∀ data, q.phase ≠ .saving data) →
    ∃ userId, s.storedUserId = some userId

/-- What is known of a call stays known while tokens are only removed, or written anew. -/
theorem Place.Known.frame (h : q.Known s) (ha : ∀ e ∈ s.answered, e ∈ s'.answered) (hs : s.saved ≤ s'.saved)
    (hm : s'.saved = s.saved → s'.authToken = none ∨ s'.authToken = s.authToken)
    (ht : s'.saved = s.saved → s'.storedToken = none ∨ s'.storedToken = s.storedToken) : q.Known s' where
  answers e he := ha e (h.answers e he)
  saving data hq := by
    obtain ⟨e, he, hlogin⟩ := h.saving data hq
    exact ⟨e, ha e he, hlogin⟩
  older sent hsent := (h.older sent hsent).trans hs
  memory sent hsent hsaved := by
    have hle := h.older sent hsent
    rcases hm (by omega) with hnone | hsame
    · exact .inl hnone
    · rw [hsame]
      exact h.memory sent hsent (by omega)
  storage sent hsent hsaved := by
    have hle := h.older sent hsent
    rcases ht (by omega) with hnone | hsame
    · exact .inl hnone
    · rw [hsame]
      exact h.storage sent hsent (by omega)

/-- No call knows less after an effect. -/
theorem Effect.known {op : ApiOp} {a : Except DartError (ApiAns op)} (he : Effect s op a s') (h : q.Known s) :
    q.Known s' := by
  cases he with
  | setBaseUrl | setDeviceId | storeUserId | storeUserIdFails | removeUserId =>
    exact h.frame (fun e he => he) le_rfl (fun _ => .inr rfl) (fun _ => .inr rfl)
  | baseUrl | deviceId | isAuthenticated | headers | quiet | fails => exact h
  | clearToken | clearAuth => exact h.frame (fun e he => he) le_rfl (fun _ => .inl rfl) (fun _ => .inr rfl)
  | setAuth => exact h.frame (fun e he => he) (Nat.le_succ _) (fun hs => by simp at hs) (fun hs => by simp at hs)
  | writeToken => exact h.frame (fun e he => he) (Nat.le_succ _) (fun hs => by simp at hs) (fun hs => by simp at hs)
  | writeTokenLost => exact h.frame (fun e he => he) (Nat.le_succ _) (fun hs => by simp at hs) (fun hs => by simp at hs)
  | deleteToken | endSession => exact h.frame (fun e he => he) le_rfl (fun _ => .inr rfl) (fun _ => .inl rfl)
  | send => exact h.frame (fun e he => List.mem_cons_of_mem _ he) le_rfl (fun _ => .inr rfl) (fun _ => .inr rfl)

/-- A call that has ended a section, or begun to leave, knows what it knew. -/
theorem Place.Known.phase {p : Phase} (h : q.Known s) (hp : ∀ data, p ≠ .saving data) :
    Place.Known s { q with phase := p } :=
  ⟨h.answers, fun data hq => absurd hq (hp data), h.older, h.memory, h.storage⟩

theorem may_cases {op : ApiOp} (h : order.may q op) : (q.phase = .rest ∧ q.May op) ∨
    (∃ data, q.phase = .saving data ∧ op = .storeUserId data) ∨
      (q.phase = .leaving ∧ (op = .removeAuthToken ∨ op = .removeUserId)) := by
  unfold order at h
  dsimp only at h
  cases hq : q.phase with
  | rest =>
    rw [hq] at h
    exact .inl ⟨rfl, h⟩
  | saving data =>
    rw [hq] at h
    exact .inr (.inl ⟨data, rfl, h⟩)
  | leaving =>
    rw [hq] at h
    exact .inr (.inr ⟨rfl, h⟩)

/-- What the call knows after its own effect. -/
theorem Effect.next_known {op : ApiOp} {a : Except DartError (ApiAns op)} (he : Effect s op a s') (hm : order.may q op)
    (h : q.Known s) : (order.next q op a).Known s' := by
  have hq : q.Known s' := he.known h
  cases he with
  | headers => exact ⟨hq.answers, hq.saving, List.forall_mem_cons.mpr ⟨le_rfl, hq.older⟩,
      List.forall_mem_cons.mpr ⟨fun _ => .inr rfl, hq.memory⟩, List.forall_mem_cons.mpr ⟨fun _ => .inr rfl, hq.storage⟩⟩
  | send sent request response =>
    exact ⟨List.forall_mem_cons.mpr ⟨List.mem_cons_self, hq.answers⟩, hq.saving, hq.older, hq.memory, hq.storage⟩
  | writeToken data =>
    obtain ⟨-, e, he, hlogin⟩ | ⟨d, -, hd⟩ | ⟨-, hd | hd⟩ := may_cases hm
    all_goals try cases hd
    refine ⟨hq.answers, fun d hd => ?_, hq.older, hq.memory, hq.storage⟩
    cases hd
    exact ⟨e, hq.answers e he, hlogin⟩
  | storeUserId data a => cases a <;> exact hq.phase fun _ => by rintro ⟨⟩
  | storeUserIdFails => exact hq.phase fun _ => by rintro ⟨⟩
  | deleteToken a => cases a <;> first | exact hq | exact hq.phase fun _ => by rintro ⟨⟩
  | removeUserId a => cases a <;> exact hq.phase fun _ => by rintro ⟨⟩
  | @quiet op a hquiet =>
    cases op <;> cases a <;> first
      | exact False.elim hquiet
      | exact hq
      | exact hq.phase fun _ => by rintro ⟨⟩
  | @fails op e hfails =>
    cases op with
    | deleteToken sent => cases sent <;> exact hq
    | removeUserId => exact hq.phase fun _ => by rintro ⟨⟩
    | writeToken | send => exact hq
    | _ => exact False.elim hfails
  | _ => exact hq

/-- What is known of all calls stays known while one of them neither begins nor ends to write, and the session stays as
it is or loses its token. -/
theorem Knows.carry (h : Knows s (qs ++ q :: rs)) (hknown : ∀ u ∈ qs ++ q' :: rs, u.Known s')
    (hfair : ∀ m ∈ s'.history, m.Fair) (hsame : ∀ token userId, SameLogin s token userId → SameLogin s' token userId)
    (htoken : s'.storedToken = none ∨ s'.storedToken = s.storedToken) (huser : s'.storedUserId = s.storedUserId)
    (hphase : ∀ data, q'.phase = .saving data ↔ q.phase = .saving data)
    (hleave : q'.phase = .leaving → q.phase = .leaving ∨ s'.storedToken = none) : Knows s' (qs ++ q' :: rs) := by
  have hback : ∀ u ∈ qs ++ q' :: rs, ∀ data, u.phase = .saving data → ∃ v ∈ qs ++ q :: rs, v.phase = .saving data := by
    intro u hu data hd
    rcases Async.mem_middle.mp hu with rfl | hu
    · exact ⟨q, Async.mem_middle.mpr (.inl rfl), (hphase data).mp hd⟩
    · exact ⟨u, Async.mem_middle.mpr (.inr hu), hd⟩
  have htoken' : ∀ token, s'.storedToken = some token → s.storedToken = some token := by
    intro token ht
    rcases htoken with hnone | hsome
    · rw [hnone] at ht
      cases ht
    · rw [← hsome]
      exact ht
  refine ⟨hknown, hfair, ?_, ?_, ?_, ?_, ?_⟩
  · intro token userId ht hu
    rw [huser] at hu
    exact hsame token userId (h.same token userId (htoken' token ht) hu)
  · intro u hu data hd
    obtain ⟨v, hv, hvd⟩ := hback u hu data hd
    rw [huser]
    exact ⟨fun token ht => hsame token _ ((h.saving v hv data hvd).1 token (htoken' token ht)), (h.saving v hv data hvd).2⟩
  · intro u hu u' hu' data data' hd hd'
    obtain ⟨v, hv, hvd⟩ := hback u hu data hd
    obtain ⟨v', hv', hvd'⟩ := hback u' hu' data' hd'
    exact h.savings v hv v' hv' data data' hvd hvd'
  · intro u hu hl
    have hnone : s.storedToken = none → s'.storedToken = none := fun h0 => htoken.elim id fun hs => hs.trans h0
    rcases Async.mem_middle.mp hu with rfl | hu
    · rcases hleave hl with hq | hnone'
      · exact hnone (h.leaving q (Async.mem_middle.mpr (.inl rfl)) hq)
      · exact hnone'
    · exact hnone (h.leaving u (Async.mem_middle.mpr (.inr hu)) hl)
  · intro token ht hno
    rw [huser]
    refine h.stored token (htoken' token ht) fun v hv data hd => ?_
    rcases Async.mem_middle.mp hv with rfl | hv
    · exact hno q' (Async.mem_middle.mpr (.inl rfl)) data ((hphase data).mpr hd)
    · exact hno v (Async.mem_middle.mpr (.inr hv)) data hd

/-- Nothing has happened, but that a call may have ended to leave. -/
theorem Knows.still (h : Knows s (qs ++ q :: rs)) (hknown : ∀ u ∈ qs ++ q' :: rs, u.Known s)
    (hphase : q'.phase = q.phase ∨ (q'.phase = .rest ∧ q.phase = .leaving)) : Knows s (qs ++ q' :: rs) := by
  refine h.carry hknown h.fair (fun _ _ h => h) (.inr rfl) rfl (fun data => ?_) fun hl => ?_
  · rcases hphase with hp | ⟨hp, hq⟩
    · rw [hp]
    · rw [hp, hq]
      exact iff_of_false (by rintro ⟨⟩) (by rintro ⟨⟩)
  · rcases hphase with hp | ⟨hp, hq⟩
    · exact .inl (hp ▸ hl)
    · exact .inl hq

/-- A login has written its token. -/
theorem knows_writeToken {data : AuthResult} (hknown : ∀ u ∈ qs ++ q' :: rs, u.Known s')
    (hfair : ∀ m ∈ s'.history, m.Fair) (hlogin : SameLogin s' data.token data.userId)
    (htoken : s'.storedToken = some data.token) (huser : s'.storedUserId = s.storedUserId)
    (hfound : s.storedUserId = none ∨ s.storedUserId = some data.userId)
    (hothers : ∀ u ∈ qs ++ rs, u.phase ≠ .leaving ∧ ∀ d, u.phase = .saving d → d.userId = data.userId)
    (hphase : q'.phase = .saving data) : Knows s' (qs ++ q' :: rs) := by
  have hsaving : ∀ u ∈ qs ++ q' :: rs, ∀ d, u.phase = .saving d → d.userId = data.userId := by
    intro u hu d hd
    rcases Async.mem_middle.mp hu with rfl | hu
    · rw [hphase] at hd
      cases hd
      rfl
    · exact (hothers u hu).2 d hd
  refine ⟨hknown, hfair, ?_, ?_, ?_, ?_, ?_⟩
  · intro token userId ht hu
    rw [htoken] at ht
    rw [huser] at hu
    cases ht
    rcases hfound with hf | hf
    · rw [hf] at hu
      cases hu
    · rw [hf] at hu
      cases hu
      exact hlogin
  · intro u hu d hd
    rw [hsaving u hu d hd, huser]
    refine ⟨fun token ht => ?_, hfound⟩
    rw [htoken] at ht
    cases ht
    exact hlogin
  · intro u hu u' hu' d d' hd hd'
    rw [hsaving u hu d hd, hsaving u' hu' d' hd']
  · intro u hu hl
    rcases Async.mem_middle.mp hu with rfl | hu
    · rw [hphase] at hl
      cases hl
    · exact absurd hl (hothers u hu).1
  · intro token _ hno
    exact absurd hphase (hno q' (Async.mem_middle.mpr (.inl rfl)) data)

/-- A login has written its user id. -/
theorem Knows.storeUserId {data : AuthResult} (h : Knows s (qs ++ q :: rs)) (hknown : ∀ u ∈ qs ++ q' :: rs, u.Known s')
    (hfair : ∀ m ∈ s'.history, m.Fair) (hsame : ∀ token userId, SameLogin s token userId → SameLogin s' token userId)
    (htoken : s'.storedToken = s.storedToken) (huser : s'.storedUserId = some data.userId)
    (hphase : q.phase = .saving data) (hrest : q'.phase = .rest) : Knows s' (qs ++ q' :: rs) := by
  have hq := Async.mem_middle.mpr (.inl rfl : q = q ∨ q ∈ qs ++ rs)
  have hlogin := (h.saving q hq data hphase).1
  have hold : ∀ u ∈ qs ++ q' :: rs, u.phase ≠ .rest → u ∈ qs ++ q :: rs := by
    intro u hu hne
    rcases Async.mem_middle.mp hu with rfl | hu
    · exact absurd hrest hne
    · exact Async.mem_middle.mpr (.inr hu)
  refine ⟨hknown, hfair, ?_, ?_, ?_, ?_, fun _ _ _ => ⟨_, huser⟩⟩
  · intro token userId ht hu
    rw [huser] at hu
    cases hu
    exact hsame token _ (hlogin token (htoken ▸ ht))
  · intro u hu d hd
    have hmem := hold u hu (by rw [hd]; rintro ⟨⟩)
    rw [h.savings u hmem q hq d data hd hphase, huser]
    exact ⟨fun token ht => hsame token _ (hlogin token (htoken ▸ ht)), .inr rfl⟩
  · intro u hu u' hu' d d' hd hd'
    exact h.savings u (hold u hu (by rw [hd]; rintro ⟨⟩)) u' (hold u' hu' (by rw [hd']; rintro ⟨⟩)) d d' hd hd'
  · intro u hu hl
    rw [htoken]
    exact h.leaving u (hold u hu (by rw [hl]; rintro ⟨⟩)) hl

/-- A logout has removed the user id. -/
theorem Knows.removeUserId (h : Knows s (qs ++ q :: rs)) (hknown : ∀ u ∈ qs ++ q' :: rs, u.Known s')
    (hfair : ∀ m ∈ s'.history, m.Fair) (htoken : s'.storedToken = s.storedToken) (huser : s'.storedUserId = none)
    (hphase : q.phase = .leaving) (hrest : q'.phase = .rest) : Knows s' (qs ++ q' :: rs) := by
  have hnone : s'.storedToken = none := htoken.trans (h.leaving q (Async.mem_middle.mpr (.inl rfl)) hphase)
  have hold : ∀ u ∈ qs ++ q' :: rs, u.phase ≠ .rest → u ∈ qs ++ q :: rs := by
    intro u hu hne
    rcases Async.mem_middle.mp hu with rfl | hu
    · exact absurd hrest hne
    · exact Async.mem_middle.mpr (.inr hu)
  refine ⟨hknown, hfair, ?_, ?_, ?_, fun _ _ _ => hnone, ?_⟩
  · intro token userId ht
    rw [hnone] at ht
    cases ht
  · intro u hu d hd
    refine ⟨fun token ht => ?_, .inl huser⟩
    rw [hnone] at ht
    cases ht
  · intro u hu u' hu' d d' hd hd'
    exact h.savings u (hold u hu (by rw [hd]; rintro ⟨⟩)) u' (hold u' hu' (by rw [hd']; rintro ⟨⟩)) d d' hd hd'
  · intro token ht
    rw [hnone] at ht
    cases ht

/-! ## Orderly runs -/

/-- What has happened is kept. -/
def Later (s₀ s : ApiState) : Prop := ∃ marks, s.history = marks ++ s₀.history

/-- What is new is at most one mark. -/
theorem Effect.history {op : ApiOp} {a : Except DartError (ApiAns op)} (he : Effect s op a s') :
    s'.history = s.history ∨ ∃ m, s'.history = m :: s.history := by
  cases he <;> first | exact .inl rfl | exact .inr ⟨_, rfl⟩

theorem Effect.later {s₀ : ApiState} {op : ApiOp} {a : Except DartError (ApiAns op)} (he : Effect s op a s')
    (h : Later s₀ s) : Later s₀ s' := by
  obtain ⟨marks, hm⟩ := h
  rcases he.history with h | ⟨m, h⟩
  · exact ⟨marks, h.trans hm⟩
  · exact ⟨m :: marks, by rw [h, hm, List.cons_append]⟩

variable {c : Pool Call ApiOp ApiAns DartError Unit ApiState}

/-- The last thing that has happened was orderly, and so was what was before. -/
theorem OrderlyTo.last {m : Mark} (hl : Later c.state s) (h : OrderlyTo c s') (hm : s'.history = m :: s.history) :
    m.Orderly c.running ∧ OrderlyTo c s := by
  obtain ⟨marks, hs⟩ := hl
  obtain ⟨marks', hs', horderly⟩ := h
  have heq : marks' = m :: marks := by
    rw [hm, hs, ← List.cons_append] at hs'
    exact (List.append_cancel_right hs').symm
  subst heq
  exact ⟨horderly m List.mem_cons_self, marks, hs, fun x hx => horderly x (List.mem_cons_of_mem _ hx)⟩

theorem OrderlyTo.before {op : ApiOp} {a : Except DartError (ApiAns op)} (he : Effect s op a s') (hl : Later c.state s)
    (h : OrderlyTo c s') : OrderlyTo c s := by
  rcases he.history with hs | ⟨m, hs⟩
  · obtain ⟨marks, hm, horderly⟩ := h
    exact ⟨marks, hs ▸ hm, horderly⟩
  · exact (h.last hl hs).2

/-- A call whose place is between the two writes is there. -/
theorem saving_of_follows {t : Task Call ApiOp ApiAns DartError Unit} {u : Place} (hf : t.rest.Follows order Ended u)
    {data : AuthResult} (h : u.phase = .saving data) : Saving data t := by
  obtain ⟨m, i, p⟩ := t
  cases p with
  | done a => cases h.symm.trans hf
  | throw e => cases h.symm.trans hf
  | call op k =>
    obtain ⟨hq, -⟩ | ⟨d, hq, rfl⟩ | ⟨hq, -⟩ := may_cases hf.1
    · cases h.symm.trans hq
    · cases h.symm.trans hq
      exact ⟨k, rfl⟩
    · cases h.symm.trans hq

theorem leaving_of_follows {t : Task Call ApiOp ApiAns DartError Unit} {u : Place} (hf : t.rest.Follows order Ended u)
    (h : u.phase = .leaving) : Leaving t := by
  obtain ⟨m, i, p⟩ := t
  cases p with
  | done a => cases h.symm.trans hf
  | throw e => cases h.symm.trans hf
  | call op k =>
    obtain ⟨hq, -⟩ | ⟨d, hq, -⟩ | ⟨-, rfl | rfl⟩ := may_cases hf.1
    · cases h.symm.trans hq
    · cases h.symm.trans hq
    · exact .inl ⟨k, rfl⟩
    · exact .inr ⟨k, rfl⟩

theorem SameLogin.frame {token userId : String} (h : SameLogin s token userId) (he : s'.earlier = s.earlier)
    (ha : ∀ e ∈ s.answered, e ∈ s'.answered) : SameLogin s' token userId := by
  rcases h with h | ⟨e, hmem, h⟩
  · rw [← he] at h
    exact .inl h
  · exact .inr ⟨e, ha e hmem, h⟩

/-- What leaves the state as it is, or fails, begins and ends no write. -/
theorem next_phase {op : ApiOp} {a : Except DartError (ApiAns op)} (hm : order.may q op)
    (h : Quiet op ∨ (MayFail op ∧ ∃ e, a = .error e)) : (order.next q op a).phase = q.phase ∨
      ((order.next q op a).phase = .rest ∧ q.phase = .leaving) := by
  have hleaving : op = .removeAuthToken ∨ op = .removeUserId → q.phase = .leaving := by
    intro hop
    obtain ⟨-, hmay⟩ | ⟨d, -, hd⟩ | ⟨hphase, -⟩ := may_cases hm
    · rcases hop with rfl | rfl
      · exact hmay.elim
      · exact hmay.elim
    · rcases hop with rfl | rfl
      · cases hd
      · cases hd
    · exact hphase
  rcases h with h | ⟨h, e, rfl⟩
  · cases op <;> cases a <;> first
      | exact h.elim
      | exact .inl rfl
      | exact .inr ⟨rfl, hleaving (.inl rfl)⟩
  · cases op with
    | deleteToken sent => cases sent <;> exact .inl rfl
    | removeUserId => exact .inr ⟨rfl, hleaving (.inr rfl)⟩
    | writeToken | send => exact .inl rfl
    | _ => exact h.elim

/-- One effect in an orderly run. -/
theorem Knows.step {op : ApiOp} {a : Except DartError (ApiAns op)} (hm : order.may q op) (he : Effect s op a s')
    (hl : Later c.state s) (ho : OrderlyTo c s') (hu : ∀ u ∈ qs ++ rs, ∃ t ∈ c.running, t.rest.Follows order Ended u)
    (h : Knows s (qs ++ q :: rs)) : Knows s' (qs ++ order.next q op a :: rs) := by
  have hmem : q ∈ qs ++ q :: rs := Async.mem_middle.mpr (.inl rfl)
  have hq : q.Known s := h.known q hmem
  have hknown : ∀ u ∈ qs ++ order.next q op a :: rs, u.Known s' := by
    intro u hu
    rcases Async.mem_middle.mp hu with rfl | hu
    · exact he.next_known hm hq
    · exact he.known (h.known u (Async.mem_middle.mpr (.inr hu)))
  cases he with
  | clearToken sent =>
    obtain ⟨⟨-, hsent⟩ | ⟨d, -, hd⟩ | ⟨-, hd | hd⟩, horderly⟩ := And.intro (may_cases hm) (ho.last hl rfl).1
    all_goals try cases hd
    refine h.carry hknown (List.forall_mem_cons.mpr ⟨?_, h.fair⟩) (fun _ _ h => h) (.inr rfl) rfl (fun _ => Iff.rfl) .inl
    rcases horderly with hnone | hsaved
    · exact .inl hnone
    · exact hq.memory sent hsent hsaved
  | endSession sent a =>
    obtain ⟨⟨-, hsent⟩ | ⟨d, -, hd⟩ | ⟨-, hd | hd⟩, horderly⟩ := And.intro (may_cases hm) (ho.last hl rfl).1
    all_goals try cases hd
    refine h.carry hknown (List.forall_mem_cons.mpr ⟨?_, h.fair⟩) (fun _ _ h => h) (.inl rfl) rfl (fun _ => ?_) .inl
    · rcases horderly with hnone | ⟨hstored, hsaved⟩
      · exact .inl hnone
      · show s.storedToken = none ∨ s.storedToken = sent.authToken
        rw [← hstored]
        exact hq.storage sent hsent hsaved
    · cases a <;> exact Iff.rfl
  | writeToken data =>
    obtain ⟨⟨-, e, hmay, hlogin⟩ | ⟨d, -, hd⟩ | ⟨-, hd | hd⟩, hfound, hothers⟩ := And.intro (may_cases hm) (ho.last hl rfl).1
    all_goals try cases hd
    refine knows_writeToken hknown (List.forall_mem_cons.mpr ⟨trivial, h.fair⟩)
      (.inr ⟨e, hq.answers e hmay, data, hlogin, rfl, rfl⟩) rfl rfl hfound
      (fun u hmem => ?_) rfl
    obtain ⟨t, ht, hf⟩ := hu u hmem
    exact ⟨fun hleave => (hothers t ht).1 (leaving_of_follows hf hleave),
      fun d hd => (hothers t ht).2 d (saving_of_follows hf hd)⟩
  | writeTokenLost => exact (ho.last hl rfl).1.elim
  | storeUserIdFails => exact (ho.last hl rfl).1.elim
  | storeUserId data a =>
    obtain ⟨-, hmay⟩ | ⟨d, hphase, hd⟩ | ⟨-, hd | hd⟩ := may_cases hm
    · exact hmay.elim
    all_goals try cases hd
    exact h.storeUserId hknown h.fair (fun _ _ h => h) rfl rfl hphase (by cases a <;> rfl)
  | removeUserId a =>
    obtain ⟨-, hmay⟩ | ⟨d, hphase, hd⟩ | ⟨hphase, hd | hd⟩ := may_cases hm
    · exact hmay.elim
    all_goals try cases hd
    exact h.removeUserId hknown h.fair rfl rfl hphase (by cases a <;> rfl)
  | deleteToken a =>
    obtain ⟨hphase, -⟩ | ⟨d, -, hd⟩ | ⟨-, hd | hd⟩ := may_cases hm
    all_goals try cases hd
    refine h.carry hknown h.fair (fun _ _ h => h) (.inl rfl) rfl (fun _ => ?_) fun _ => .inr rfl
    cases a with
    | error e => exact Iff.rfl
    | ok a => exact iff_of_false (by rintro ⟨⟩) (by rw [hphase]; rintro ⟨⟩)
  | send sent request response =>
    exact h.carry hknown h.fair (fun _ _ h => h.frame rfl fun e he => List.mem_cons_of_mem _ he) (.inr rfl) rfl
      (fun _ => Iff.rfl) .inl
  | headers | baseUrl | deviceId | isAuthenticated | setBaseUrl | setDeviceId | clearAuth | setAuth =>
    exact h.carry hknown h.fair (fun _ _ h => h) (.inr rfl) rfl (fun _ => Iff.rfl) .inl
  | @quiet op a hquiet => exact h.still hknown (next_phase hm (.inl hquiet))
  | @fails op e hfails => exact h.still hknown (next_phase hm (.inr ⟨hfails, e, rfl⟩))

theorem knows_opened (h : Opened s) : Knows s [] where
  known := List.forall_mem_nil _
  fair m hm := by
    rw [h.history] at hm
    cases hm
  same token userId ht hu := by
    obtain ⟨u, hu', hsame⟩ := h.stored token ht
    rw [hu] at hu'
    cases hu'
    exact hsame
  saving := List.forall_mem_nil _
  savings := List.forall_mem_nil _
  leaving := List.forall_mem_nil _
  stored token ht _ := by
    obtain ⟨u, hu, -⟩ := h.stored token ht
    exact ⟨u, hu⟩

/-- Only the places of a part of the calls, and others at rest. -/
theorem Knows.part {us : List Place} (h : Knows s qs) (hus : ∀ u ∈ us, u ∈ qs ∨ u = {})
    (hqs : ∀ q ∈ qs, q ∈ us ∨ q.phase = .rest) : Knows s us := by
  have hback : ∀ u ∈ us, u.phase ≠ .rest → u ∈ qs := fun u hu hne => (hus u hu).resolve_right fun h0 => hne (h0 ▸ rfl)
  refine ⟨fun u hu => ?_, h.fair, h.same, ?_, ?_, ?_, ?_⟩
  · rcases hus u hu with hu | rfl
    · exact h.known u hu
    · exact ⟨List.forall_mem_nil _, by rintro data ⟨⟩, List.forall_mem_nil _, List.forall_mem_nil _, List.forall_mem_nil _⟩
  · exact fun u hu data hd => h.saving u (hback u hu (by rw [hd]; rintro ⟨⟩)) data hd
  · intro u hu u' hu' d d' hd hd'
    exact h.savings u (hback u hu (by rw [hd]; rintro ⟨⟩)) u' (hback u' hu' (by rw [hd']; rintro ⟨⟩)) d d' hd hd'
  · exact fun u hu hl => h.leaving u (hback u hu (by rw [hl]; rintro ⟨⟩)) hl
  · refine fun token ht hno => h.stored token ht fun q hq data hd => ?_
    rcases hqs q hq with hu | hrest
    · exact hno q hu data hd
    · rw [hrest] at hd
      cases hd

end

/-- The loops of one service. -/
def Running (api : ApiService) (ok : Pool Call ApiOp ApiAns DartError Unit ApiState →
    Pool Call ApiOp ApiAns DartError Unit ApiState → Prop) (s₀ : ApiState)
    (c : Pool Call ApiOp ApiAns DartError Unit ApiState) : Prop :=
  Async.Loop.Reachable Effect ApiOp.Sync (body api) (fun _ _ => False) ok s₀ c

/-- In every run of which each step is orderly, a 401 clears only the token of its request, and a stored token has the
user id of its login, as long as no login is between its two writes. -/
theorem session_holds (api : ApiService) (s₀ : ApiState) (h₀ : Opened s₀)
    (c : Pool Call ApiOp ApiAns DartError Unit ApiState)
    (h : Running api Orderly s₀ c) : SessionHolds c := by
  obtain ⟨qs, hqs, hk⟩ := Async.Loop.reachable_follows (I := Knows) (R := Later) (G := OrderlyTo) (body_follows api)
    (fun h => h) (fun s => ⟨[], rfl⟩) (fun he h => he.later h) (fun he hl ho => ho.before he hl)
    (fun hk => hk.part (fun u hu => (List.mem_cons.mp hu).symm) fun q hq => .inl (List.mem_cons_of_mem _ hq))
    (fun hend hk => hk.part (fun u hu => .inl (Async.mem_middle.mpr (.inr hu))) fun q hq => by
      rcases Async.mem_middle.mp hq with rfl | hq
      · exact .inr hend
      · exact .inl hq)
    (fun hm he hl ho hu hk => hk.step hm he hl ho hu) (fun ho => ho.elim) (knows_opened h₀) h
  refine ⟨hk.fair, hk.same, fun token ht hno => hk.stored token ht fun q hq data hd => ?_⟩
  obtain ⟨t, htm, hf⟩ := Async.forall₂_mem_right hqs q hq
  exact hno t htm data (saving_of_follows hf hd)

/-! ## A slow request -/

/-- What a request of a configured service carries. -/
def sentBy (s : ApiState) : SentRequest := ⟨s.authToken, s.storedToken, s.saved⟩

def requestBy (s : ApiState) (method path : String) (body : Option JsonFields) : HttpRequest :=
  ⟨method, s.baseUrl, path, s.authToken.map ("Bearer " ++ ·), body.map cleanBody⟩

section

variable {α γ : Type} {s : ApiState} {method path : String} {body : Option JsonFields} {empty : Except DartError α}
  {parser : Json → Except DartError α}

/-- A program that waits, as a part of another. -/
theorem Turn.bind_waits {p : ApiProg α} {o : ApiOp} {k : Except DartError (ApiAns o) → ApiProg α} {f : α → ApiProg γ}
    {s s' : ApiState} (h : Turn Effect ApiOp.Sync p s (.call o k) s') :
    Turn Effect ApiOp.Sync (p.bind f) s ((Async.call o k).bind f) s' := by
  generalize hx : Async.call o k = x at h
  induction h with
  | done a s => cases hx
  | throw e s => cases hx
  | awaits k s hop => exact .awaits _ _ hop
  | sync hop he _ ih => exact .sync hop he (ih hx)

/-- A request is sent at once. -/
theorem request_turn (hurl : s.baseUrl.isEmpty = false) (hm : method ∈ ["GET", "POST", "PUT", "DELETE"]) :
    Turn Effect ApiOp.Sync (request method path body empty parser) s
      ((ask (.send (sentBy s) (requestBy s method path body))).bind (receive empty parser (sentBy s))) s := by
  refine .sync (show ApiOp.Sync .baseUrl from trivial) (.baseUrl s) ?_
  show Turn Effect ApiOp.Sync (if s.baseUrl.isEmpty then _ else _) s _ s
  rw [if_neg (by rw [hurl]; decide)]
  refine .sync (show ApiOp.Sync .headers from trivial) (.headers s) ?_
  show Turn Effect ApiOp.Sync (if _ then _ else _) s _ s
  rw [if_pos hm]
  exact .awaits _ _ fun h => h

/-- A 401 clears the token in memory at once. -/
theorem receive_turn (sent : SentRequest) (text : String) : Turn Effect ApiOp.Sync (receive empty parser sent ⟨401, text⟩) s
    ((ask (.deleteToken (some sent))).bind fun _ => Async.ofExcept (read empty parser ⟨401, text⟩))
    { s with authToken := none, history := .forgot sent s.authToken s.saved :: s.history } := by
  refine .sync (show ApiOp.Sync (.clearToken sent) from trivial) (.clearToken s sent) ?_
  exact .awaits _ _ fun h => h

/-- An answer that is read. -/
theorem receive_read {sent : SentRequest} {text : String} {a : α} (hread : read empty parser ⟨200, text⟩ = .ok a) :
    receive empty parser sent ⟨200, text⟩ = .done a := by
  unfold receive
  rw [if_neg (show ¬(300 ≤ 200 ∧ 200 < 400) by decide), if_neg (show ¬200 = 401 by decide), hread]
  rfl

/-- A request that is answered. -/
theorem request_runs {text : String} {a : α} (hurl : s.baseUrl.isEmpty = false)
    (hm : method ∈ ["GET", "POST", "PUT", "DELETE"]) (hread : read empty parser ⟨200, text⟩ = .ok a) :
    Runs Effect (request method path body empty parser) s (some (.ok a))
      { s with answered := (requestBy s method path body, ⟨200, text⟩) :: s.answered } := by
  refine .call (.baseUrl s) ?_
  show Runs Effect (if s.baseUrl.isEmpty then _ else _) s _ _
  rw [if_neg (by rw [hurl]; decide)]
  refine .call (.headers s) ?_
  show Runs Effect (if _ then _ else _) s _ _
  rw [if_pos hm]
  refine .call (.send s (sentBy s) (requestBy s method path body) ⟨200, text⟩) ?_
  show Runs Effect (receive empty parser (sentBy s) ⟨200, text⟩) _ _ _
  rw [receive_read hread]
  exact .done _ _

theorem saveAuth_runs (data : AuthResult) : Runs Effect (saveAuth data) s (some (.ok ()))
    { s with storedToken := some data.token, saved := s.saved + 1 + 1, history := .saves data s.storedUserId :: s.history,
             storedUserId := some data.userId, authToken := some data.token, userId := some data.userId } := by
  refine .call (.quiet s (.ok ()) (show Quiet .preferences from trivial)) ?_
  refine .call (.writeToken s data) ?_
  refine .call (.storeUserId _ data (.ok ())) ?_
  exact .call (.setAuth _ data) (.done _ _)

end

/-- The answer of a login. -/
def answerOf (data : AuthResult) : Json :=
  .obj [("userId".toList, .str data.userId.toList), ("token".toList, .str data.token.toList)]

theorem read_answerOf (data : AuthResult) :
    read (.error (castError .null "AuthResult")) AuthResult.fromJson ⟨200, jsonEncode (answerOf data)⟩ = .ok data := by
  have hdecode : jsonDecode (jsonEncode (answerOf data)) = .ok (answerOf data) :=
    jsonDecode_jsonEncode (by simp [answerOf, Json.WF, Json.WFFields])
  have hparse : AuthResult.fromJson (answerOf data) = .ok data := by
    simp [AuthResult.fromJson, answerOf, asMap, field, asString, bind, Except.bind, pure, Except.pure]
  have hempty : (jsonEncode (answerOf data)).isEmpty = false := by
    simp [jsonEncode, answerOf, Json.encode]
  unfold read
  rw [if_neg (show ¬400 ≤ 200 by decide), if_neg (by rw [hempty]; decide), hdecode]
  exact hparse

/-- A session that is some time old. -/
def oldSession : ApiState :=
  { baseUrl := "https://chat.example.com", authToken := some "old", userId := some "u", storedToken := some "old",
    storedUserId := some "u", earlier := [⟨"u", "old"⟩] }

theorem opened_oldSession : Opened oldSession := by
  refine ⟨rfl, fun token ht => ⟨"u", rfl, .inl ⟨⟨"u", "old"⟩, List.mem_singleton_self _, ?_, rfl⟩⟩⟩
  cases ht
  rfl

/-- A request for the conversations. -/
def poll : Call := .request "GET" "/api/v1/conversations" none

/-- The request waits for its answer. -/
def polling : ApiProg Unit :=
  ((ask (.send (sentBy oldSession) (requestBy oldSession "GET" "/api/v1/conversations" none))).bind
    (receive (.ok .null) .ok (sentBy oldSession))).bind fun _ => .done ()

/-- The request is answered with a 401. -/
def refused : ApiProg Unit :=
  (receive (.ok .null) .ok (sentBy oldSession) ⟨401, ""⟩).bind fun _ => .done ()

theorem poll_turn (api : ApiService) : Turn Effect ApiOp.Sync (body api poll) oldSession polling oldSession :=
  Turn.bind_waits (request_turn (by decide) (by decide))

theorem refused_turn (s : ApiState) : ∃ op k, Turn Effect ApiOp.Sync refused s (.call op k)
    { s with authToken := none, history := .forgot (sentBy oldSession) s.authToken s.saved :: s.history } :=
  ⟨_, _, Turn.bind_waits (receive_turn (sentBy oldSession) "")⟩

/-- Functions that do not matter here. -/
def plainService : ApiService := ⟨.ok, id, fun _ => []⟩

/-- A login that asks for nothing. -/
def nobody : Credentials := ⟨"", "", "", "", "", "", none, none, none, none, none⟩

/-- A login that was answered with the data. -/
def saving (data : AuthResult) : ApiProg Unit := ((saveAuth data).bind fun _ => .done data).bind fun _ => .done ()

/-- A login that waits for its answer. -/
def logging (s : ApiState) : ApiProg Unit :=
  (((ask (.send (sentBy s) (requestBy s "POST" loginPath (some (loginBody nobody))))).bind
    (receive (.error (castError .null "AuthResult")) AuthResult.fromJson (sentBy s))).bind fun data =>
      (saveAuth data).bind fun _ => .done data).bind fun _ => .done ()

theorem login_turn (api : ApiService) {s : ApiState} (hurl : s.baseUrl.isEmpty = false) :
    Turn Effect ApiOp.Sync (body api (.login nobody)) s (logging s) s :=
  Turn.bind_waits (Turn.bind_waits (request_turn hurl (by decide)))

section

variable {api : ApiService} {s₀ s : ApiState} {j n : Nat} {us : List (Task Call ApiOp ApiAns DartError Unit)}
  {es : List (Async.Event Call DartError Unit)}

/-- A step that leaves the session alone. -/
theorem orderlyTo_same {c : Pool Call ApiOp ApiAns DartError Unit ApiState} (h : s.history = c.state.history) :
    OrderlyTo c s := ⟨[], h, List.forall_mem_nil _⟩

/-- A 401 that finds what its request carried clears it. -/
theorem refused_ends (hsaved : s.saved = 0) (h : Running api Orderly s₀ ⟨s, ⟨j, poll, refused⟩ :: us, n, es⟩) : ∃ es',
    Running api Orderly s₀ ⟨{ s with
      authToken := none, storedToken := none
      history := .deleted (sentBy oldSession) s.storedToken s.saved :: .forgot (sentBy oldSession) s.authToken s.saved ::
        s.history }, us, n, es'⟩ := by
  have hthrow : ∀ s', Turn Effect ApiOp.Sync
      ((Async.ofExcept (read (.ok Json.null) .ok ⟨401, ""⟩)).bind fun _ => .done () : ApiProg Unit) s'
      (.throw (failure ⟨401, ""⟩)) s' := fun s' => by
    rw [read, if_pos (show 400 ≤ 401 by decide)]
    exact .throw _ s'
  have h1 := h.step (.first (Turn.bind_waits (receive_turn (sentBy oldSession) "")))
    ⟨[.forgot (sentBy oldSession) s.authToken s.saved], rfl, fun m hm => by
      obtain rfl := List.mem_singleton.mp hm
      exact Or.inr hsaved.symm⟩
  have h2 := h1.step (.answerFirst (fun h => h) (.endSession _ (sentBy oldSession) (.ok ())))
    ⟨[.deleted (sentBy oldSession) s.storedToken s.saved], rfl, fun m hm => by
      obtain rfl := List.mem_singleton.mp hm
      exact Or.inr ⟨rfl, hsaved.symm⟩⟩
  exact ⟨_, h2.step (.first (hthrow _)) (orderlyTo_same rfl)⟩

/-- A login is answered. -/
theorem logging_answered {s' : ApiState} {i : Call} {text : String} {data : AuthResult}
    (hread : read (.error (castError .null "AuthResult")) AuthResult.fromJson ⟨200, text⟩ = .ok data)
    (h : Running api Orderly s₀ ⟨s', ⟨j, i, logging s⟩ :: us, n, es⟩) : Running api Orderly s₀
      ⟨{ s' with answered := (requestBy s "POST" loginPath (some (loginBody nobody)), ⟨200, text⟩) :: s'.answered },
        ⟨j, i, saving data⟩ :: us, n, es⟩ := by
  have hrest : saving data = ((receive (.error (castError .null "AuthResult")) AuthResult.fromJson (sentBy s)
      ⟨200, text⟩).bind fun data => (saveAuth data).bind fun _ => .done data).bind fun _ => .done () := by
    rw [receive_read hread]
    rfl
  rw [hrest]
  have hsend := Effect.send s' (sentBy s) (requestBy s "POST" loginPath (some (loginBody nobody))) ⟨200, text⟩
  exact h.step (.answerFirst (fun h => h) hsend) (orderlyTo_same rfl)

/-- A login that finds its own user id, or none, saves what it was answered. -/
theorem saving_ends {data : AuthResult} {i : Call} (hfound : s.storedUserId = none ∨ s.storedUserId = some data.userId)
    (h : Running api Orderly s₀ ⟨s, [⟨j, i, saving data⟩], n, es⟩) : ∃ es', Running api Orderly s₀ ⟨{ s with
      storedToken := some data.token, saved := s.saved + 1 + 1, history := .saves data s.storedUserId :: s.history
      storedUserId := some data.userId, authToken := some data.token, userId := some data.userId }, [], n, es'⟩ := by
  have hset : ∀ t : ApiState, Turn Effect ApiOp.Sync
      (((ask (.setAuth data)).bind fun _ => .done data).bind fun _ => .done () : ApiProg Unit) t (.done ())
      { t with authToken := some data.token, userId := some data.userId, saved := t.saved + 1 } := fun t =>
    .sync trivial (.setAuth t data) (.done _ _)
  have h1 := h.step (.first (.awaits _ _ fun h => h)) (orderlyTo_same rfl)
  have h2 := h1.step (.answerFirst (fun h => h) (.quiet s (.ok ()) (show Quiet .preferences from trivial)))
    (orderlyTo_same rfl)
  have h3 := h2.step (.first (.awaits _ _ fun h => h)) (orderlyTo_same rfl)
  have h4 := h3.step (.answerFirst (fun h => h) (.writeToken s data))
    ⟨[.saves data s.storedUserId], rfl, fun m hm => by
      obtain rfl := List.mem_singleton.mp hm
      refine ⟨hfound, fun t ht => ?_⟩
      obtain rfl := List.mem_singleton.mp ht
      exact ⟨fun hl => hl.elim (fun ⟨k, hk⟩ => nomatch hk) (fun ⟨k, hk⟩ => nomatch hk), fun d ⟨k, hk⟩ => nomatch hk⟩⟩
  have h5 := h4.step (.first (.awaits _ _ fun h => h)) (orderlyTo_same rfl)
  have h6 := h5.step (.answerFirst (fun h => h) (.storeUserId _ data (.ok ()))) (orderlyTo_same rfl)
  exact ⟨_, h6.step (.first (hset _)) (orderlyTo_same rfl)⟩

end

/-- A login is on its way when a request is refused in the session that it carried; then the login is answered. -/
theorem session_renewed : ∃ c : Pool Call ApiOp ApiAns DartError Unit ApiState,
    c.state.history = [.saves ⟨"u", "new"⟩ (some "u"), .deleted (sentBy oldSession) (some "old") 0,
      .forgot (sentBy oldSession) (some "old") 0] ∧ c.state.storedToken = some "new" ∧ SessionHolds c := by
  have h1 : Running plainService Orderly oldSession
      ⟨oldSession, [⟨0, .login nobody, logging oldSession⟩], 1, [.started 0 (.login nobody)]⟩ :=
    Async.Loop.Reachable.init.step (.start _ (login_turn plainService (by decide))) (orderlyTo_same rfl)
  have h2 := h1.step (.start poll (poll_turn plainService)) (orderlyTo_same rfl)
  have h3 := h2.step (.answerFirst (fun h => h) (.send oldSession _ _ ⟨401, ""⟩)) (orderlyTo_same rfl)
  obtain ⟨es₁, h4⟩ := refused_ends rfl h3
  obtain ⟨es₂, h5⟩ := saving_ends (Or.inr rfl) (logging_answered (read_answerOf ⟨"u", "new"⟩) h4)
  exact ⟨_, rfl, rfl, session_holds plainService oldSession opened_oldSession _ h5⟩

theorem login_runs (api : ApiService) {s : ApiState} (hurl : s.baseUrl.isEmpty = false) (data : AuthResult) :
    ∃ s', Runs Effect (body api (.login nobody)) s (some (.ok ())) s' ∧ s'.authToken = some data.token := by
  have hrequest : Runs Effect (request "POST" loginPath (some (loginBody nobody)) (.error (castError .null "AuthResult"))
      AuthResult.fromJson) s (some (.ok data)) _ := request_runs hurl (by decide) (read_answerOf data)
  refine ⟨_, (hrequest.bind ((saveAuth_runs data).bind (.done data _))).bind (.done () _), ?_⟩
  rfl

/-- The user logs in again while the request is on its way. -/
theorem session_lost : ¬∀ (api : ApiService) (s₀ : ApiState), Opened s₀ →
    ∀ c, Running api (fun _ _ => True) s₀ c → SessionHolds c := by
  intro h
  have hsent : Running plainService (fun _ _ => True) oldSession
      ⟨oldSession, [⟨0, poll, polling⟩], 1, [.started 0 poll]⟩ :=
    Async.Loop.Reachable.init.step (.start poll (poll_turn plainService)) trivial
  obtain ⟨s, hlogin, htoken⟩ := login_runs plainService (s := oldSession) (by decide) ⟨"u", "new"⟩
  have hlogged := Async.Loop.Reachable.serve (fun _ _ => trivial) (.login nobody) hlogin hsent
  have hanswered := hlogged.step (Async.Loop.Step.answerFirst (fun h => h) (.send s _ _ ⟨401, ""⟩)) trivial
  obtain ⟨op, k, ht⟩ := refused_turn
    { s with answered := (requestBy oldSession "GET" "/api/v1/conversations" none, ⟨401, ""⟩) :: s.answered }
  have hholds := h plainService oldSession opened_oldSession _ (hanswered.step (Async.Loop.Step.first ht) trivial)
  rcases hholds.fair _ List.mem_cons_self with hnone | hsame
  · cases htoken.symm.trans hnone
  · have hne : (some "new" : Option String) ≠ some "old" := by decide
    exact hne (htoken.symm.trans hsame)

end ApiService

end Chhaya
