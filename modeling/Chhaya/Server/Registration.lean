import Chhaya.Server.Authorization

/-!
# Registration is all or nothing

`POST /auth/register` commits the rows of the account and its device, and then registers the push token and issues the
session. `Faults` says which of the later steps may go wrong. What is committed stays when one of them does.

- `createAccount_safe`: what a request leaves whose proof was accepted.
- `postRegister_outcome`: what a request leaves, whatever goes wrong.
- `register_allOrNothing`: when a request that is not answered with a session leaves nothing.
- `register_fcmToken`: a request with a push token is answered 500, and its account is there.
-/

namespace Chhaya

namespace Server

/-! ## What may go wrong -/

/-- Whether the database takes the texts of the two rows (no schema checks the lengths of all its columns), and what may
go wrong after that: the answer to the commit is lost, the session is not stored, the process stops before it answers. -/
structure Faults where
  takesRows : Prop
  commitLost : Prop
  sessionFails : Prop
  stops : Prop

/-- What the answer to an operation that was made on `w` and led to `w'` may be. Any statement before the commit may fail,
and so may the transaction as long as it is rolled back. -/
def Faults.Permits (F : Faults) (w w' : World) : (op : Op) → Except ServerError (Ans op) → Prop
  | .sql (.insertAccount _ _), .ok _ => F.takesRows
  | .sql (.insertAccount _ _), .error _ => w' = w ∨ F.takesRows ∧ F.commitLost
  | .sql (.insertSession _ _ _), .error _ => F.sessionFails
  | _, _ => True

/-- What an operation does under the faults. -/
def Faults.Effect (F : Faults) (platform : Platform) (w : World) (op : Op) (a : Except ServerError (Ans op))
    (w' : World) : Prop :=
  Server.Effect platform w op a w' ∧ F.Permits w w' op a

/-! ## All or nothing -/

/-- The rows of accounts and devices are as they were. -/
structure SameAccounts (w w' : World) : Prop where
  users : w'.db.users = w.db.users
  devices : w'.db.devices = w.db.devices

/-- The answer is 201 with a session token that lets its user in. -/
def Opened (platform : Platform) (w : World) (res : Response) : Prop :=
  ∃ userId token, res = ⟨201, .session userId token⟩ ∧ Zod.isHex64 token = true ∧
    w.db.authenticate (platform.tokenHash token) = some userId

/-- The request was answered with a usable session, or it has created no row of a user or device. -/
def AllOrNothing (platform : Platform) (w : World) (r : Option (Except ServerError Response)) (w' : World) : Prop :=
  (∃ res, r = some (.ok res) ∧ Opened platform w' res) ∨
    (∀ u ∈ w'.db.users, u ∈ w.db.users) ∧ ∀ v ∈ w'.db.devices, v ∈ w.db.devices

/-- What `POST /auth/register` asks for before it creates the account: a challenge that the request proves, the identifier
of its key, and that the identifier, the device and some id of a user are free. -/
structure Register.Accepted (platform : Platform) (w : World) (data : Register) : Prop where
  proved : ∃ t r, (w.db.at t).consumed data.challengeId data.publicKey data.deviceId "register" = some r ∧
    r.proofHash = platform.tokenHash data.identityProof
  identity : data.chhayaId = "05" ++ data.publicKey
  identifier : ∀ u ∈ w.db.users, u.chhayaId ≠ data.chhayaId
  user : ∃ userId, ∀ u ∈ w.db.users, u.id ≠ userId
  device : ∀ v ∈ w.db.devices, Uuid.read data.deviceId ≠ some v.id

theorem SameAccounts.refl (w : World) : SameAccounts w w := ⟨rfl, rfl⟩

theorem SameAccounts.nothing {platform : Platform} {w w' : World} (h : SameAccounts w w')
    (r : Option (Except ServerError Response)) : AllOrNothing platform w r w' :=
  Or.inr ⟨fun _ hu => h.users ▸ hu, fun _ hv => h.devices ▸ hv⟩

/-! ## Statements -/

section Statements

variable {platform : Platform} {w w' : World}

/-- The row that a statement consumes, and what it returns. -/
theorem exec_consumeChallenge {d : Db} {id publicKey deviceId purpose : String} {x : Option String × Db}
    (h : exec platform d (.consumeChallenge id publicKey deviceId purpose) = some x) :
    x.1 = (d.consumed id publicKey deviceId purpose).map ChallengeRow.proofHash ∧ x.2.users = d.users ∧
      x.2.devices = d.devices := by
  obtain ⟨id', hid, h⟩ := Option.bind_eq_some_iff.mp h
  obtain ⟨deviceId', hdev, h⟩ := Option.bind_eq_some_iff.mp h
  cases h
  refine ⟨?_, rfl, rfl⟩
  show Option.map _ _ = Option.map _ ((Uuid.read id).bind fun id => (Uuid.read deviceId).bind fun deviceId => _)
  rw [hid, hdev]
  rfl

/-- The rows of an account that is created, and what was free before. -/
theorem exec_insertAccount {d : Db} {u : NewUser} {v : NewDevice} {x : Unit × Db}
    (h : exec platform d (.insertAccount u v) = some x) : ∃ deviceId, Uuid.read v.id = some deviceId ∧
      (∀ r ∈ d.users, r.id ≠ u.id ∧ r.chhayaId ≠ u.chhayaId) ∧ (∀ r ∈ d.devices, r.id ≠ deviceId) ∧
      x.2.users = ⟨u.id, u.chhayaId, u.displayName, u.publicKey, u.encryptedPrivateKey, u.recoveryPhraseHash, d.now, none,
        true⟩ :: d.users ∧ x.2.sessions = d.sessions := by
  obtain ⟨deviceId, hid, h⟩ := Option.bind_eq_some_iff.mp h
  obtain ⟨d', hd, h⟩ := Option.bind_eq_some_iff.mp h
  cases h
  unfold Db.insertAccount at hd
  split at hd
  · cases hd
  · rename_i hfree
    cases hd
    simp only [Bool.or_eq_true, List.any_eq_true, beq_iff_eq, not_or, not_exists, not_and] at hfree
    exact ⟨deviceId, hid, hfree.1, hfree.2, rfl, rfl⟩

theorem isLowerHexDigit_digitChar : ∀ a < 16, Zod.isLowerHexDigit (Nat.digitChar a) = true := by decide

/-- The text of a token. -/
theorem isHex64_hexOf {bytes : Bytes} (h : bytes.length = 32) : Zod.isHex64 (hexOf bytes) = true := by
  have hlen : (hexOf bytes).toList.length = 64 := by
    rw [String.length_toList, length_hexOf, h]
  rw [Zod.isHex64, hlen, hexOf, String.toList_ofList, List.all_flatMap, Bool.and_eq_true, List.all_eq_true]
  refine ⟨rfl, fun b _ => ?_⟩
  have hb := UInt8.toNat_lt b
  simp only [hexByte, List.all_cons, List.all_nil, Bool.and_true, Bool.and_eq_true]
  exact ⟨isLowerHexDigit_digitChar _ (by omega), isLowerHexDigit_digitChar _ (Nat.mod_lt _ (by decide))⟩

/-- A new session lets its user in, whose row is the only one with its id. -/
theorem authenticate_insertSession {d d' : Db} {tokenHash : String} {u : UserRow} {us : List UserRow}
    (h : d.insertSession tokenHash u.id = some d') (hd : d.users = u :: us) (ha : u.isActive = true) :
    d'.authenticate tokenHash = some u.id := by
  unfold Db.insertSession at h
  split at h
  · cases h
  · cases h
    simp [Db.authenticate, hd, ha]

end Statements

/-! ## One request -/

section Request

variable {platform : Platform} {F : Faults} {body : Option Json} {w₀ w : World}

/-- The request creates an account. -/
def Creates (platform : Platform) (F : Faults) (w₀ : World) (data : Register) : Prop :=
  data.Accepted platform w₀ ∧ F.takesRows

/-- What a request leaves: the rows as they were, or the account together with the session, unless something went wrong. -/
def Outcome (platform : Platform) (F : Faults) (w₀ : World) (body : Option Json) (w : World) (res : Response) : Prop :=
  SameAccounts w₀ w ∨ ∃ data, registerSchema body = .ok data ∧ Creates platform F w₀ data ∧
    (Opened platform w res ∨ orNull data.fcmToken ≠ none ∨ F.commitLost ∨ F.sessionFails)

/-- What holds after each statement: the rows are as they were, or the request creates its account. -/
def Underway (platform : Platform) (F : Faults) (w₀ : World) (body : Option Json) (w : World) : Prop :=
  SameAccounts w₀ w ∨ ∃ data, registerSchema body = .ok data ∧ Creates platform F w₀ data

/-- One request alone. -/
abbrev alone (platform : Platform) (F : Faults) (w₀ : World) (body : Option Json) : Async.Rules Op Ans ServerError World :=
  ⟨F.Effect platform, Eq, fun _ _ => True, Underway platform F w₀ body⟩

/-- What is returned, or thrown to the `catch`. -/
def Ends (platform : Platform) (F : Faults) (w₀ : World) (body : Option Json) :
    Except ServerError Response → World → Prop
  | .ok res, w => Outcome platform F w₀ body w res
  | .error _, w => ∀ status text, Outcome platform F w₀ body w ⟨status, text⟩

theorem SameAccounts.outcome (h : SameAccounts w₀ w) (res : Response) : Outcome platform F w₀ body w res := Or.inl h

theorem SameAccounts.ends (h : SameAccounts w₀ w) (r : Except ServerError Response) : Ends platform F w₀ body r w := by
  cases r with
  | ok res => exact h.outcome res
  | error e => exact fun _ _ => h.outcome _

/-- A statement that leaves the rows of accounts alone. -/
theorem quiet_safe {q : Sql} {f : q.Rows → Prog Response} (hw : SameAccounts w₀ w)
    (hq : ∀ d x, exec platform d q = some x → x.2.users = d.users ∧ x.2.devices = d.devices)
    (h : ∀ t a d, exec platform (w.db.at t) q = some (a, d) → ∀ w', SameAccounts w₀ w' → w'.db = d →
      (f a).Safe (alone platform F w₀ body) (Ends platform F w₀ body) w') :
    ((sql q).bind f).Safe (alone platform F w₀ body) (Ends platform F w₀ body) w := by
  have hsame : ∀ {t a d audit}, exec platform (w.db.at t) q = some (a, d) → SameAccounts w₀ ⟨d, audit⟩ := by
    intro t a d audit he
    obtain ⟨h1, h2⟩ := hq _ _ he
    exact ⟨h1.trans hw.users, h2.trans hw.devices⟩
  refine Async.Safe.bind (Async.Safe.await ?_)
  rintro _ rfl - a w₂ ⟨he, -⟩
  cases he with
  | sql _ t a d he => exact ⟨Or.inl (hsame he), trivial, h t a d he _ (hsame he) rfl⟩
  | fails _ e => exact ⟨Or.inl hw, trivial, fun _ _ => hw.outcome _⟩
  | lost _ t a d e he => exact ⟨Or.inl (hsame he), trivial, fun _ _ => (hsame he).outcome _⟩

/-- Random draws. -/
theorem draw_safe {size : Nat} {α : Type} {Q : Except ServerError α → World → Prop}
    {f : {l : Bytes // l.length = size} → Prog α} (hw : Underway platform F w₀ body w)
    (h : ∀ l, (f l).Safe (alone platform F w₀ body) Q w) :
    ((randomBytes size).bind f).Safe (alone platform F w₀ body) Q w := by
  refine Async.Safe.bind (Async.Safe.await ?_)
  rintro _ rfl - a w₂ ⟨he, -⟩
  cases he with
  | randomBytes _ l => exact ⟨hw, trivial, h l⟩

/-- The session of an account that was created. -/
theorem issueSession_safe {data : Register} {userId : Uuid} {u : UserRow} {us : List UserRow} (hs : registerSchema body = .ok data)
    (hc : Creates platform F w₀ data) (hu : w.db.users = u :: us)
    (hid : u.id = userId) (ha : u.isActive = true) :
    ((issueSession platform userId data.claim).bind fun token => .done ⟨201, .session userId token⟩).Safe
      (alone platform F w₀ body) (Ends platform F w₀ body) w := by
  have hcreated : ∀ {w}, Underway platform F w₀ body w := Or.inr ⟨data, hs, hc⟩
  unfold issueSession
  rw [Async.bind_eq, Async.bind_assoc]
  refine draw_safe hcreated fun token => ?_
  rw [Async.bind_eq, Async.bind_assoc]
  refine Async.Safe.bind (Async.Safe.await ?_)
  rintro _ rfl - a w₂ ⟨he, hp⟩
  refine ⟨hcreated, trivial, ?_⟩
  cases he with
  | sql _ t a d he =>
    obtain ⟨d', hd, he⟩ := Option.map_eq_some_iff.mp he
    cases he
    cases hid
    exact Or.inr ⟨data, hs, hc, Or.inl ⟨_, _, rfl, isHex64_hexOf token.2, authenticate_insertSession hd hu ha⟩⟩
  | fails _ e => exact fun _ _ => Or.inr ⟨data, hs, hc, Or.inr (Or.inr (Or.inr hp))⟩
  | lost _ t a d e he => exact fun _ _ => Or.inr ⟨data, hs, hc, Or.inr (Or.inr (Or.inr hp))⟩

/-- The push token of an account that was created, and its session. -/
theorem registerToken_safe {data : Register} {userId : Uuid} {u : UserRow} {us : List UserRow} (hs : registerSchema body = .ok data)
    (hc : Creates platform F w₀ data) (hu : w.db.users = u :: us)
    (hid : u.id = userId) (ha : u.isActive = true) :
    ((registerToken userId data.deviceId data.fcmToken).bind fun _ =>
      (issueSession platform userId data.claim).bind fun token => .done ⟨201, .session userId token⟩).Safe
        (alone platform F w₀ body) (Ends platform F w₀ body) w := by
  unfold registerToken
  cases hf : orNull data.fcmToken with
  | none => exact issueSession_safe hs hc hu hid ha
  | some token =>
    have hsome : orNull data.fcmToken ≠ none := fun h => by rw [hf] at h; cases h
    refine Async.Safe.bind (Async.Safe.await ?_)
    rintro _ rfl - a w₂ ⟨he, -⟩
    refine ⟨Or.inr ⟨data, hs, hc⟩, trivial, ?_⟩
    cases he with
    | sql _ t a d he => cases he
    | fails _ e => exact fun _ _ => Or.inr ⟨data, hs, hc, Or.inr (Or.inl hsome)⟩
    | lost _ t a d e he => cases he

/-- The account of a request is created only if the request is accepted. -/
theorem accepted_of_insertAccount {data : Register} {u : NewUser} {v : NewDevice} {t : Nat} {x : Unit × Db}
    (hw : SameAccounts w₀ w)
    (hp : ∃ t r, (w₀.db.at t).consumed data.challengeId data.publicKey data.deviceId "register" = some r ∧
      r.proofHash = platform.tokenHash data.identityProof) (hid : data.chhayaId = "05" ++ data.publicKey)
    (he : exec platform (w.db.at t) (.insertAccount u v) = some x) (hu : u.chhayaId = data.chhayaId)
    (hv : v.id = data.deviceId) : data.Accepted platform w₀ := by
  obtain ⟨deviceId, hdev, husers, hdevices, -⟩ := exec_insertAccount he
  have husers : ∀ r ∈ w₀.db.users, r.id ≠ u.id ∧ r.chhayaId ≠ u.chhayaId := fun r hr => husers r (hw.users.symm ▸ hr)
  refine ⟨hp, hid, fun r hr => hu ▸ (husers r hr).2, ⟨u.id, fun r hr => (husers r hr).1⟩, fun r hr h => ?_⟩
  rw [hv, h] at hdev
  exact hdevices r (hw.devices.symm ▸ hr) (Option.some.inj hdev)

/-- What a request leaves whose proof was accepted. -/
theorem createAccount_safe {data : Register} (hs : registerSchema body = .ok data) (hw : SameAccounts w₀ w)
    (hp : ∃ t r, (w₀.db.at t).consumed data.challengeId data.publicKey data.deviceId "register" = some r ∧
      r.proofHash = platform.tokenHash data.identityProof) :
    (createAccount platform data).Safe (alone platform F w₀ body) (Ends platform F w₀ body) w := by
  refine quiet_safe hw (fun d x hx => by cases hx; exact ⟨rfl, rfl⟩) fun t found d he w₁ hw₁ _ => ?_
  show Async.Safe _ _ (if found = true then _ else if data.chhayaId ≠ "05" ++ data.publicKey then _ else _) _
  split
  · exact hw₁.outcome _
  split
  · exact hw₁.outcome _
  rename_i hid
  refine Async.Safe.bind (Async.Safe.await ?_)
  rintro _ rfl - a w₂ ⟨he₂, -⟩
  cases he₂ with | randomUUID userId => ?_
  refine ⟨Or.inl hw₁, trivial, ?_⟩
  show Async.Safe _ _ ((hashCredential platform data.recoveryPhraseHash).bind _) _
  unfold hashCredential
  rw [Async.bind_eq, Async.bind_assoc]
  refine draw_safe (Or.inl hw₁) fun salt => ?_
  rw [Async.pure_eq, Async.done_bind]
  refine Async.Safe.bind (Async.Safe.await ?_)
  rintro _ rfl - a w₂ ⟨he₂, hperm⟩
  cases he₂ with
  | fails _ e => exact ⟨Or.inl hw₁, trivial, fun _ _ => hw₁.outcome _⟩
  | sql _ t' a d' he' =>
    have hc : Creates platform F w₀ data := ⟨accepted_of_insertAccount hw₁ hp (not_not.mp hid) he' rfl rfl, hperm⟩
    obtain ⟨deviceId, -, -, -, hu, -⟩ := exec_insertAccount he'
    exact ⟨Or.inr ⟨data, hs, hc⟩, trivial, registerToken_safe hs hc hu rfl rfl⟩
  | lost _ t' a d' e he' =>
    rcases hperm with hrolled | ⟨htakes, hlost⟩
    · have hsame : SameAccounts w₀ ⟨d', w₁.audit.record (w₁.db.at t') _⟩ := hrolled ▸ hw₁
      exact ⟨Or.inl hsame, trivial, fun _ _ => hsame.outcome _⟩
    · have hc : Creates platform F w₀ data := ⟨accepted_of_insertAccount hw₁ hp (not_not.mp hid) he' rfl rfl, htakes⟩
      exact ⟨Or.inr ⟨data, hs, hc⟩, trivial, fun _ _ => Or.inr ⟨data, hs, hc, Or.inr (Or.inr (Or.inl hlost))⟩⟩

/-- What a request leaves, in its `try`. -/
theorem register_safe (w₀ : World) : (register platform body).Safe (alone platform F w₀ body) (Ends platform F w₀ body) w₀ := by
  refine Async.Safe.bind (parse_safe (fun data hs => ?_) fun issues _ _ => (SameAccounts.refl w₀).outcome _)
  show Async.Safe _ _ ((consumeIdentityChallenge platform data.claim).bind fun accepted =>
    if accepted = true then createAccount platform data else failure 401 "Identity proof invalid or expired") _
  unfold consumeIdentityChallenge
  rw [Async.bind_eq, Async.bind_assoc]
  refine quiet_safe (.refl w₀) (fun d x hx => (exec_consumeChallenge hx).2) fun t hash d he w₁ hw₁ _ => ?_
  have hhash := (exec_consumeChallenge he).1
  cases hash with
  | none => exact hw₁.outcome _
  | some proofHash =>
    show Async.Safe _ _ (if (proofHash == platform.tokenHash data.identityProof) = true then _ else _) _
    split
    · rename_i heq
      obtain ⟨r, hr, hrh⟩ := Option.map_eq_some_iff.mp hhash.symm
      exact createAccount_safe hs hw₁ ⟨t, r, hr, hrh.trans (beq_iff_eq.mp heq)⟩
    · exact hw₁.outcome _

/-- What a request leaves, whatever goes wrong. -/
theorem postRegister_outcome {r : Option (Except ServerError Response)}
    (h : Async.Runs (F.Effect platform) (postRegister platform body) w₀ r w) :
    Underway platform F w₀ body w ∧ ∀ x, r = some x → Ends platform F w₀ body x w := by
  refine Async.Safe.runs (R := alone platform F w₀ body) (fun _ => rfl) h (Or.inl (.refl w₀)) ?_
  refine Async.Safe.bind (Async.Safe.attempt ((register_safe w₀).mono fun x w' hx => ?_))
  rcases x with (issues | message) | res
  · exact hx _ _
  · exact hx _ _
  · exact hx

/-! ## What goes wrong -/

/-- What follows on the commit. -/
def afterCommit (platform : Platform) (data : Register) (userId : Uuid) : Prog Response :=
  (registerToken userId data.deviceId data.fcmToken).bind fun _ =>
    (issueSession platform userId data.claim).bind fun token => .done ⟨201, .session userId token⟩

/-- A statement is answered. -/
theorem sql_runs {α : Type} {q : Sql} {f : q.Rows → Prog α} {a : q.Rows} {w w₁ w' : World}
    {r : Option (Except ServerError α)} (he : F.Effect platform w (.sql q) (.ok a) w₁)
    (hr : Async.Runs (F.Effect platform) (f a) w₁ r w') : Async.Runs (F.Effect platform) ((sql q).bind f) w r w' :=
  .call he hr

/-- A statement fails. -/
theorem sql_throws {α : Type} {q : Sql} {f : q.Rows → Prog α} {e : ServerError} {w w₁ : World}
    (he : F.Effect platform w (.sql q) (.error e) w₁) :
    Async.Runs (F.Effect platform) ((sql q).bind f) w (some (.error e)) w₁ :=
  .call he (.throw _ _)

/-- A challenge is consumed. -/
theorem consumeChallenge_runs {data : Register} {t : Nat} {r : ChallengeRow} {w : World}
    (hr : (w.db.at t).consumed data.challengeId data.publicKey data.deviceId "register" = some r) : ∃ w₁, SameAccounts w w₁ ∧
      F.Effect platform w (.sql (.consumeChallenge data.challengeId data.publicKey data.deviceId "register"))
        (.ok (some r.proofHash)) w₁ := by
  obtain ⟨id, hid, hr'⟩ := Option.bind_eq_some_iff.mp hr
  obtain ⟨deviceId, hdev, hr'⟩ := Option.bind_eq_some_iff.mp hr'
  have he : exec platform (w.db.at t) (.consumeChallenge data.challengeId data.publicKey data.deviceId "register") =
      some ((w.db.at t).consumeChallenge id data.publicKey deviceId "register") := by
    show (Uuid.read data.challengeId).bind (fun _ => (Uuid.read data.deviceId).bind _) = _
    rw [hid, hdev]
    rfl
  have hx := exec_consumeChallenge he
  rw [hr, Option.map_some] at hx
  generalize (w.db.at t).consumeChallenge id data.publicKey deviceId "register" = x at he hx
  obtain ⟨a, d⟩ := x
  obtain ⟨rfl, hu, hv⟩ := hx
  exact ⟨_, ⟨hu, hv⟩, .sql w _ t _ _ he, trivial⟩

/-- The rows of an accepted request are free. -/
theorem Register.Accepted.insertAccount {data : Register} {w w₁ : World} (ha : data.Accepted platform w)
    (hw : SameAccounts w w₁) : ∃ userId, ∀ (u : NewUser) (v : NewDevice), u.id = userId → u.chhayaId = data.chhayaId →
      v.id = data.deviceId → ∃ d, exec platform w₁.db (.insertAccount u v) = some ((), d) := by
  obtain ⟨t, row, hrow, -⟩ := ha.proved
  obtain ⟨id, -, hrow⟩ := Option.bind_eq_some_iff.mp hrow
  obtain ⟨deviceId, hdev, -⟩ := Option.bind_eq_some_iff.mp hrow
  obtain ⟨userId, hfree⟩ := ha.user
  refine ⟨userId, fun u v hu hid hv => ?_⟩
  have husers : (w₁.db.users.any fun r => r.id == u.id || r.chhayaId == u.chhayaId) = false := by
    rw [List.any_eq_false, hw.users, hu, hid]
    intro r hr h
    rcases Bool.or_eq_true_iff.mp h with h | h
    · exact hfree r hr (beq_iff_eq.mp h)
    · exact ha.identifier r hr (beq_iff_eq.mp h)
  have hdevices : (w₁.db.devices.any fun r => r.id == deviceId) = false := by
    rw [List.any_eq_false, hw.devices]
    intro r hr h
    exact ha.device r hr (hdev.trans (congrArg some (beq_iff_eq.mp h).symm))
  have hd : (w₁.db.insertAccount u v deviceId).isSome := by
    rw [Db.insertAccount, husers, hdevices]
    rfl
  obtain ⟨d, hd⟩ := Option.isSome_iff_exists.mp hd
  refine ⟨d, ?_⟩
  show (Uuid.read v.id).bind (fun deviceId => (w₁.db.insertAccount u v deviceId).bind fun d => some ((), d)) = _
  rw [hv, hdev, Option.bind_some, hd]
  rfl

/-- An accepted request comes to its commit. -/
theorem register_reaches {data : Register} {w : World} (hs : registerSchema body = .ok data)
    (ha : data.Accepted platform w) : ∃ (u : NewUser) (v : NewDevice) (w₁ : World) (d : Db),
      exec platform w₁.db (.insertAccount u v) = some ((), d) ∧ u.chhayaId = data.chhayaId ∧
      ∀ r w', Async.Runs (F.Effect platform) ((sql (.insertAccount u v)).bind fun _ => afterCommit platform data u.id) w₁ r w' →
        Async.Runs (F.Effect platform) (register platform body) w r w' := by
  obtain ⟨t, row, hrow, hproof⟩ := ha.proved
  obtain ⟨w₁, hw₁, hconsume⟩ := @consumeChallenge_runs platform F data t row w hrow
  obtain ⟨userId, hinsert⟩ := Register.Accepted.insertAccount ha hw₁
  let salt : {l : Bytes // l.length = 16} := ⟨List.replicate 16 0, List.length_replicate⟩
  let hash := ":".intercalate ["scrypt", hexOf salt.1, platform.scrypt data.recoveryPhraseHash (hexOf salt.1)]
  let u : NewUser := ⟨userId, data.chhayaId, data.displayName, data.publicKey, data.encryptedPrivateKey, hash⟩
  let v : NewDevice := ⟨userId, data.deviceId, orElse data.deviceName "Primary", orElse data.platform "unknown",
    orNull data.fcmToken, data.publicKey⟩
  obtain ⟨d, hd⟩ := hinsert u v rfl rfl rfl
  have hfound : (w₁.db.users.any fun u => u.chhayaId == data.chhayaId) = false := by
    rw [List.any_eq_false, hw₁.users]
    exact fun u hu h => ha.identifier u hu (beq_iff_eq.mp h)
  have hexists : exec platform w₁.db (.userExists data.chhayaId) = some (false, w₁.db) := by
    rw [← hfound]
    rfl
  refine ⟨u, v, ⟨w₁.db, w₁.audit⟩, d, hd, rfl, fun r w' hr => ?_⟩
  have hcreate : Async.Runs (F.Effect platform) (createAccount platform data) w₁ r w' := by
    refine sql_runs ⟨.atOnce hexists, trivial⟩ ?_
    show Async.Runs _ (if false = true then _ else if data.chhayaId ≠ "05" ++ data.publicKey then _ else _) _ _ _
    rw [if_neg (by decide), if_neg (not_not.mpr ha.identity)]
    have hid : F.Effect platform w₁ .randomUUID (.ok userId) w₁ := ⟨.randomUUID _ userId, trivial⟩
    have hsalt : F.Effect platform w₁ (.randomBytes 16) (.ok salt) w₁ := ⟨.randomBytes _ 16 salt, trivial⟩
    exact .call hid (.call hsalt hr)
  unfold register
  rw [parse_ok hs]
  have hproved : Async.Runs (F.Effect platform) (consumeIdentityChallenge platform data.claim) w
      (some (.ok (row.proofHash == platform.tokenHash data.identityProof))) w₁ := .call hconsume (.done _ _)
  refine hproved.bind ?_
  show Async.Runs _ (if (row.proofHash == platform.tokenHash data.identityProof) = true then _ else _) _ _ _
  rw [if_pos (beq_iff_eq.mpr hproof)]
  exact hcreate

/-- Something goes wrong after the commit: the process stops, the push token is not stored, the answer to the commit is
lost, or the session is not stored. -/
theorem afterCommit_fails {data : Register} {userId : Uuid} {w : World} (hf : orNull data.fcmToken ≠ none ∨ F.sessionFails) :
    ∃ e, Async.Runs (F.Effect platform) (afterCommit platform data userId) w (some (.error (.error e))) w := by
  unfold afterCommit registerToken
  cases hn : orNull data.fcmToken with
  | some token => exact ⟨"", sql_throws ⟨.fails _ _ _, trivial⟩⟩
  | none =>
    have hs : F.sessionFails := hf.resolve_left fun h => h hn
    let token : {l : Bytes // l.length = 32} := ⟨List.replicate 32 0, List.length_replicate⟩
    have hdraw : F.Effect platform w (.randomBytes 32) (.ok token) w := ⟨.randomBytes _ 32 token, trivial⟩
    have hfail : F.Effect platform w (.sql (.insertSession (platform.tokenHash (hexOf token.1)) userId data.claim))
        (.error (.error "")) w := ⟨.fails _ _ _, hs⟩
    exact ⟨"", .call hdraw (.call hfail (.throw _ _))⟩

/-- A request that creates its account and then goes wrong is not answered with a session, and the account is there. -/
theorem postRegister_fails {data : Register} {w : World} (hs : registerSchema body = .ok data) (hc : Creates platform F w data)
    (hf : orNull data.fcmToken ≠ none ∨ F.commitLost ∨ F.sessionFails ∨ F.stops) :
    ∃ r w', Async.Runs (F.Effect platform) (postRegister platform body) w r w' ∧
      (r = none ∧ F.stops ∨ r = some (.ok ⟨500, .error "Registration failed"⟩)) ∧
      ∃ u ∈ w'.db.users, u ∉ w.db.users ∧ u.chhayaId = data.chhayaId := by
  obtain ⟨u, v, w₁, d, hd, hid, hreach⟩ := @register_reaches platform F body data w hs hc.1
  obtain ⟨-, -, -, -, husers, -⟩ := exec_insertAccount hd
  let w₂ : World := ⟨d, w₁.audit.record w₁.db (.insertAccount u v)⟩
  have hcommit : F.Effect platform w₁ (.sql (.insertAccount u v)) (.ok ()) w₂ := ⟨.atOnce hd, hc.2⟩
  have hnew : ∃ u ∈ w₂.db.users, u ∉ w.db.users ∧ u.chhayaId = data.chhayaId := by
    refine ⟨_, husers ▸ List.mem_cons_self, fun h => hc.1.identifier _ h hid, hid⟩
  have h500 : ∀ {e}, Async.Runs (F.Effect platform) (register platform body) w (some (.error (.error e))) w₂ →
      Async.Runs (F.Effect platform) (postRegister platform body) w
        (some (.ok ⟨500, .error "Registration failed"⟩)) w₂ := fun h => h.attempt.bind (.done _ _)
  by_cases hlater : orNull data.fcmToken ≠ none ∨ F.sessionFails
  · obtain ⟨e, he⟩ := @afterCommit_fails platform F data u.id w₂ hlater
    exact ⟨_, w₂, h500 (hreach _ _ (sql_runs hcommit he)), Or.inr rfl, hnew⟩
  · rw [not_or] at hlater
    rcases hf with hf | hf | hf | hf
    · exact absurd hf hlater.1
    -- the transaction is in, and its answer is not
    · have hlost : F.Effect platform w₁ (.sql (.insertAccount u v)) (.error (.error "")) w₂ :=
        ⟨.lostAtOnce hd, Or.inr ⟨hc.2, hf⟩⟩
      exact ⟨_, w₂, h500 (hreach _ _ (sql_throws hlost)), Or.inr rfl, hnew⟩
    · exact absurd hf hlater.2
    · exact ⟨none, w₂, (hreach _ _ (sql_runs hcommit (.cut _ _))).attempt_cut.bind_cut, Or.inl ⟨rfl, hf⟩, hnew⟩

end Request

/-! ## When it is all or nothing -/

/-- A request that is not answered with a session leaves nothing, if and only if it creates no account, or it has no push
token and nothing goes wrong after the commit. -/
theorem register_allOrNothing (platform : Platform) (F : Faults) (body : Option Json) (w : World) :
    (∀ r w', Async.Runs (F.Effect platform) (postRegister platform body) w r w' → (r = none → F.stops) →
      AllOrNothing platform w r w') ↔
    ∀ data, registerSchema body = .ok data → data.Accepted platform w → F.takesRows →
      orNull data.fcmToken = none ∧ ¬F.commitLost ∧ ¬F.sessionFails ∧ ¬F.stops := by
  constructor
  · intro h data hs ha ht
    by_contra hf
    obtain ⟨r, w', hr, hend, u, hu, hnew, -⟩ := @postRegister_fails platform F body data w hs ⟨ha, ht⟩ (by tauto)
    rcases hend with ⟨rfl, hstops⟩ | rfl
    · rcases h none w' hr fun _ => hstops with ⟨res, hres, -⟩ | ⟨husers, -⟩
      · cases hres
      · exact hnew (husers u hu)
    · rcases h _ w' hr fun hn => nomatch hn with ⟨res, hres, userId, token, rfl, -⟩ | ⟨husers, -⟩
      · cases hres
      · exact hnew (husers u hu)
  · intro h r w' hr hcut
    obtain ⟨hinv, hend⟩ := postRegister_outcome hr
    cases r with
    | none =>
      rcases hinv with hsame | ⟨data, hs, ha, ht⟩
      · exact hsame.nothing none
      · exact absurd (hcut rfl) (h data hs ha ht).2.2.2
    | some x =>
      have houtcome : ∃ res, Outcome platform F w body w' res ∧ (x = .ok res ∨ res.status = 0) := by
        cases x with
        | ok res => exact ⟨res, hend _ rfl, Or.inl rfl⟩
        | error e => exact ⟨⟨0, .success⟩, hend _ rfl _ _, Or.inr rfl⟩
      obtain ⟨res, hsame | ⟨data, hs, ⟨ha, ht⟩, hopen⟩, hx⟩ := houtcome
      · exact hsame.nothing _
      obtain ⟨hn, hlost, hsession, -⟩ := h data hs ha ht
      rcases hopen with hopen | hf | hf | hf
      · obtain ⟨userId, token, rfl, -⟩ := id hopen
        rcases hx with rfl | hx
        · exact Or.inl ⟨_, rfl, hopen⟩
        · cases hx
      · exact absurd hn hf
      · exact absurd hf hlost
      · exact absurd hf hsession

/-! ## A request with a push token -/

namespace Registrant

open Reader (platform token uuid)

def data : Register :=
  ⟨(uuid 5).text, token, "05" ++ token, "reader", token, "key", token, (uuid 6).text, none, none, some "push"⟩

def fields : List (List Char × Json) :=
  [("challengeId".toList, .str (uuid 5).text.toList), ("identityProof".toList, .str token.toList),
    ("chhayaId".toList, .str ("05" ++ token).toList), ("displayName".toList, .str "reader".toList),
    ("publicKey".toList, .str token.toList), ("encryptedPrivateKey".toList, .str "key".toList),
    ("recoveryPhraseHash".toList, .str token.toList), ("deviceId".toList, .str (uuid 6).text.toList),
    ("fcmToken".toList, .str "push".toList)]

/-- A challenge was issued to the key. -/
def world : World := ⟨{ challenges := [⟨uuid 5, token, uuid 6, "register", platform.tokenHash token, 100⟩], now := 20 }, {}⟩

theorem isChhayaId_append {s : String} (h : Zod.isHex64 s = true) : isChhayaId ("05" ++ s) = true := by
  have hpre : "05".toList = ['0', '5'] := rfl
  rw [isChhayaId, String.toList_append, hpre]
  exact h

theorem utf16Length_replicate {c : Char} (n : Nat) (h : c.toNat < 0x10000) :
    Zod.utf16Length (String.ofList (List.replicate n c)) = n := by
  simp only [Zod.utf16Length, String.toList_ofList, List.map_replicate, if_pos h, List.sum_replicate, smul_eq_mul, mul_one]

theorem schema_data : registerSchema (some (.obj fields)) = .ok data := by
  have hnone : ∀ key ∈ ["deviceName", "platform"], Zod.lookup fields key = none := by
    intro key hkey
    simp only [List.mem_cons, List.not_mem_nil, or_false] at hkey
    rcases hkey with rfl | rfl <;> rfl
  have h1 : Zod.lookup fields "challengeId" = some (.str (uuid 5).text.toList) := rfl
  have h2 : Zod.lookup fields "identityProof" = some (.str token.toList) := rfl
  have h3 : Zod.lookup fields "chhayaId" = some (.str ("05" ++ token).toList) := rfl
  have h4 : Zod.lookup fields "displayName" = some (.str "reader".toList) := rfl
  have h5 : Zod.lookup fields "publicKey" = some (.str token.toList) := rfl
  have h6 : Zod.lookup fields "encryptedPrivateKey" = some (.str "key".toList) := rfl
  have h7 : Zod.lookup fields "recoveryPhraseHash" = some (.str token.toList) := rfl
  have h8 : Zod.lookup fields "deviceId" = some (.str (uuid 6).text.toList) := rfl
  have h9 : Zod.lookup fields "fcmToken" = some (.str "push".toList) := rfl
  have huuid : ∀ n, Zod.string [Zod.uuid] (some (.str (uuid n).text.toList)) = .ok (uuid n).text :=
    fun n => Zod.string_uuid (uuid n).isUuid_text
  have hhex : Zod.string [Zod.regex Zod.isHex64] (some (.str token.toList)) = .ok token := Zod.string_regex Reader.isHex64_token
  have hid : Zod.string [Zod.regex isChhayaId] (some (.str ("05" ++ token).toList)) = .ok ("05" ++ token) :=
    Zod.string_regex (isChhayaId_append Reader.isHex64_token)
  have hhash : Zod.string (Zod.exactLength 64) (some (.str token.toList)) = .ok token :=
    Zod.string_exactLength (utf16Length_replicate 64 (by decide))
  have hname : Zod.string [Zod.minLength 1, Zod.maxLength 100] (some (.str "reader".toList)) = .ok "reader" :=
    Zod.string_of (by decide)
  have hkey : Zod.string [Zod.minLength 1] (some (.str "key".toList)) = .ok "key" := Zod.string_of (by decide)
  have hpush : Zod.string [] (some (.str "push".toList)) = .ok "push" := Zod.string_of (by decide)
  unfold registerSchema Zod.object
  simp only [Zod.property, h1, h2, h3, h4, h5, h6, h7, h8, h9, hnone, List.mem_cons, true_or, or_true, Zod.optional, huuid,
    hhex, hid, hhash, hname, hkey, hpush]
  rfl

theorem accepted : data.Accepted platform world where
  proved := by
    refine ⟨0, ⟨uuid 5, token, uuid 6, "register", platform.tokenHash token, 100⟩, ?_, rfl⟩
    simp [Db.consumed, data, Uuid.read_text, Db.at, Db.consumes, world]
  identity := rfl
  identifier := fun u hu => absurd hu List.not_mem_nil
  user := ⟨uuid 1, fun u hu => absurd hu List.not_mem_nil⟩
  device := fun v hv => absurd hv List.not_mem_nil

end Registrant

/-- Nothing goes wrong but what always does. -/
def noFaults : Faults := ⟨True, False, False, False⟩

/-- A request with a push token is answered 500, and its account is there. -/
theorem register_fcmToken : ∃ w', Async.Runs (noFaults.Effect Reader.platform)
    (postRegister Reader.platform (some (.obj Registrant.fields))) Registrant.world
      (some (.ok ⟨500, .error "Registration failed"⟩)) w' ∧
    ¬AllOrNothing Reader.platform Registrant.world (some (.ok ⟨500, .error "Registration failed"⟩)) w' := by
  obtain ⟨r, w', hr, ⟨rfl, hstops⟩ | rfl, u, hu, hnew, -⟩ := @postRegister_fails Reader.platform noFaults _ Registrant.data
    Registrant.world Registrant.schema_data ⟨Registrant.accepted, trivial⟩ (Or.inl fun h => nomatch h)
  · exact hstops.elim
  · refine ⟨w', hr, ?_⟩
    rintro (⟨res, hres, userId, token, rfl, -⟩ | ⟨husers, -⟩)
    · cases hres
    · exact hnew (husers u hu)

end Server

end Chhaya
