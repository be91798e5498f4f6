import Chhaya.Server.Database

/-!
# Handlers as programs

A handler awaits statements, draws of the random generator and notifications. A statement runs at some time that is not
before the last one, and it may fail, with or without its effect. Beside the database stands what an observer writes down:
the requests that arrived, the challenges issued and consumed, the sessions granted and the notifications made.

- `sql_safe`: what a handler has to show for one statement.
-/

namespace Chhaya

namespace Server

open Zod

/-! ## Requests and responses -/

/-- A request for a modelled route. Query parameters are as Express gives them, `limit` as text. -/
inductive Request
  | postChallenge (body : Option Json)
  | postRegister (body : Option Json)
  | postLogin (body : Option Json)
  | postLogout
  | postContacts (body : Option Json)
  | postConversations (body : Option Json)
  | getConversations
  | postMessages (body : Option Json)
  | getMessages (conversationId : String) (limit : Option String) (before beforeId : Option Json)
  | postRead (messageId : String)
  | postLink (body : Option Json)

/-- A request with its `Authorization` header. -/
structure Call where
  authorization : Option String
  request : Request

inductive Body
  | error (text : String)
  | invalid (text : String) (details : List Issue)
  | success
  | challenge (challengeId : Uuid) (serverPublicKey nonce context : String)
  | session (userId : Uuid) (token : String)
  | contact (contactId conversationId : Uuid) (publicKey : String)
  | conversation (conversationId : Uuid)
  | conversations (rows : List ConversationView)
  | message (row : MessageRow)
  | messages (rows : List MessageView)

structure Response where
  status : Nat
  body : Body

/-! ## What is observed -/

/-- The loop over the other participants: `sendNewMessageNotification` and `broadcastToUser` for each of them. It awaits
nothing. -/
structure Notification where
  users : List Uuid
  conversationId : String
  messageId : String
  deriving DecidableEq

/-- A session that was stored. -/
structure Grant where
  claim : Claim
  userId : Uuid
  tokenHash : String
  deriving DecidableEq

/-- What an observer writes down, the newest first. A challenge is consumed with its row and the time. -/
structure Audit where
  received : List Call := []
  issued : List Challenge := []
  consumed : List (ChallengeRow × Nat) := []
  granted : List Grant := []
  notified : List Notification := []

/-- The row that a statement consumes. -/
def Db.consumed (d : Db) (id publicKey deviceId purpose : String) : Option ChallengeRow := do
  let id ← Uuid.read id
  let deviceId ← Uuid.read deviceId
  d.challenges.find? (d.consumes id publicKey deviceId purpose)

/-- What is written down when a statement runs on `d`. -/
def Audit.record (audit : Audit) (d : Db) : Sql → Audit
  | .insertChallenge c => { audit with issued := c :: audit.issued }
  | .consumeChallenge id publicKey deviceId purpose =>
    match d.consumed id publicKey deviceId purpose with
    | some r => { audit with consumed := (r, d.now) :: audit.consumed }
    | none => audit
  | .insertSession tokenHash userId claim => { audit with granted := ⟨claim, userId, tokenHash⟩ :: audit.granted }
  | _ => audit

/-- The database, and what was written down. -/
structure World where
  db : Db := {}
  audit : Audit := {}

/-! ## Programs -/

/-- What handlers throw. -/
inductive ServerError
  | zod (issues : List Issue)
  | error (message : String)

inductive Op
  | receive (call : Call)
  | sql (q : Sql)
  | randomUUID
  | randomBytes (size : Nat)
  | notify (n : Notification)

@[reducible] def Ans : Op → Type
  | .receive _ => Unit
  | .sql q => q.Rows
  | .randomUUID => Uuid
  | .randomBytes size => {l : Bytes // l.length = size}
  | .notify _ => Unit

abbrev Prog (α : Type) := Async Op Ans ServerError α

/-- The database at a time that is not before its own. -/
def Db.at (d : Db) (t : Nat) : Db := { d with now := max d.now t }

/-- What an operation does. A notification is written down; its push is not awaited and runs beside the handlers. -/
inductive Effect (platform : Platform) : World → (op : Op) → Except ServerError (Ans op) → World → Prop
  | receive (w : World) (call : Call) :
    Effect platform w (.receive call) (.ok ()) { w with audit.received := call :: w.audit.received }
  | sql (w : World) (q : Sql) (t : Nat) (a : q.Rows) (d : Db) (h : exec platform (w.db.at t) q = some (a, d)) :
    Effect platform w (.sql q) (.ok a) ⟨d, w.audit.record (w.db.at t) q⟩
  | fails (w : World) (q : Sql) (e : String) : Effect platform w (.sql q) (.error (.error e)) w
  | lost (w : World) (q : Sql) (t : Nat) (a : q.Rows) (d : Db) (e : String)
    (h : exec platform (w.db.at t) q = some (a, d)) :
    Effect platform w (.sql q) (.error (.error e)) ⟨d, w.audit.record (w.db.at t) q⟩
  | randomUUID (w : World) (id : Uuid) : Effect platform w .randomUUID (.ok id) w
  | randomBytes (w : World) (size : Nat) (l : {l : Bytes // l.length = size}) :
    Effect platform w (.randomBytes size) (.ok l) w
  | notify (w : World) (n : Notification) :
    Effect platform w (.notify n) (.ok ()) { w with audit.notified := n :: w.audit.notified }

/-- A statement that runs at once. -/
theorem Effect.atOnce {platform : Platform} {d d' : Db} {audit : Audit} {q : Sql} {a : q.Rows}
    (h : exec platform d q = some (a, d')) : Effect platform ⟨d, audit⟩ (.sql q) (.ok a) ⟨d', audit.record d q⟩ := by
  have hd : d.at 0 = d := by rw [Db.at, Nat.max_zero]
  have he := @Effect.sql platform ⟨d, audit⟩ q 0 a d' (hd.symm ▸ h)
  rwa [hd] at he

/-- A statement that runs at once and whose answer is lost. -/
theorem Effect.lostAtOnce {platform : Platform} {d d' : Db} {audit : Audit} {q : Sql} {a : q.Rows} {e : String}
    (h : exec platform d q = some (a, d')) :
    Effect platform ⟨d, audit⟩ (.sql q) (.error (.error e)) ⟨d', audit.record d q⟩ := by
  have hd : d.at 0 = d := by rw [Db.at, Nat.max_zero]
  have he := @Effect.lost platform ⟨d, audit⟩ q 0 a d' e (hd.symm ▸ h)
  rwa [hd] at he

def sql (q : Sql) : Prog q.Rows := Async.await (Op.sql q)

def randomUUID : Prog Uuid := Async.await Op.randomUUID

def randomBytes (size : Nat) : Prog {l : Bytes // l.length = size} := Async.await (Op.randomBytes size)

def notify (n : Notification) : Prog Unit := Async.await (Op.notify n)

/-- The request has arrived. -/
def receive (call : Call) : Prog Unit := Async.await (Op.receive call)

/-- `.parse`. -/
def parse {α : Type} (s : Schema α) (j : Option Json) : Prog α :=
  match s j with
  | .ok a => .done a
  | .error issues => .throw (.zod issues)

theorem parse_ok {α : Type} {s : Schema α} {j : Option Json} {a : α} (h : s j = .ok a) : parse s j = .done a := by
  rw [parse, h]

/-- `throw new Error(message)`. -/
def raise {α : Type} (message : String) : Prog α := .throw (.error message)

/-- `res.status(status).json({ error: text })`. -/
def failure (status : Nat) (text : String) : Prog Response := .done ⟨status, .error text⟩

/-- `x || null` on a text. -/
def orNull : Option String → Option String
  | some s => if s = "" then none else some s
  | none => none

/-- `x || other` on a text. -/
def orElse (s : Option String) (other : String) : String := (orNull s).getD other

/-! ## Session -/

/-- `authenticateToken`. -/
def authenticateToken (platform : Platform) (token : String) : Prog (Option Uuid) :=
  if isHex64 token then sql (.authenticate (platform.tokenHash token)) else .done none

/-- The token of a header that starts with `Bearer `. -/
def bearer (header : String) : Option String :=
  if header.toList.take 7 = "Bearer ".toList then some (String.ofList (header.toList.drop 7)) else none

/-- `authMiddleware`. -/
def authMiddleware (platform : Platform) (authorization : Option String) (next : Uuid → Prog Response) : Prog Response :=
  match authorization.bind bearer with
  | none => failure 401 "Missing authorization header"
  | some token => do
    match ← authenticateToken platform token with
    | none => failure 401 "Invalid or expired token"
    | some userId => next userId

/-! ## What has to be shown -/

section Safe

variable {platform : Platform} {rely guar : World → World → Prop} {inv : World → Prop} {w : World}

/-- The rules of handlers on a server. -/
def rules (platform : Platform) (rely guar : World → World → Prop) (inv : World → Prop) :
    Async.Rules Op Ans ServerError World :=
  ⟨Effect platform, rely, guar, inv⟩

/-- A condition on what is returned; nothing is asked of what is thrown. -/
def Returns {α : Type} (φ : α → World → Prop) : Except ServerError α → World → Prop
  | .ok a, w => φ a w
  | .error _, _ => True

/-- A sequence, of whose first part nothing is asked where it throws. -/
theorem Returns.bind {α γ : Type} {p : Prog α} {f : α → Prog γ} {ψ : γ → World → Prop}
    {R : Async.Rules Op Ans ServerError World}
    (h : p.Safe R (Returns fun a w => (f a).Safe R (Returns ψ) w) w) : (p.bind f).Safe R (Returns ψ) w := by
  refine Async.Safe.bind (h.mono fun r s hr => ?_)
  cases r with
  | ok a => exact hr
  | error e => exact trivial

/-- One statement: what holds where it runs holds also where its answer is lost. -/
theorem sql_safe {q : Sql} {Q : Except ServerError q.Rows → World → Prop}
    (hok : ∀ w₁, rely w w₁ → inv w₁ → ∀ t a d, exec platform (w₁.db.at t) q = some (a, d) →
      inv ⟨d, w₁.audit.record (w₁.db.at t) q⟩ ∧ guar w₁ ⟨d, w₁.audit.record (w₁.db.at t) q⟩ ∧
        Q (.ok a) ⟨d, w₁.audit.record (w₁.db.at t) q⟩ ∧
        ∀ e, Q (.error (.error e)) ⟨d, w₁.audit.record (w₁.db.at t) q⟩)
    (hfails : ∀ w₁, rely w w₁ → inv w₁ → guar w₁ w₁ ∧ ∀ e, Q (.error (.error e)) w₁) :
    (sql q).Safe (rules platform rely guar inv) Q w := by
  refine Async.Safe.await fun w₁ hr hi a w₂ he => ?_
  cases he with
  | sql _ t a d h =>
    obtain ⟨h1, h2, h3, -⟩ := hok w₁ hr hi t a d h
    exact ⟨h1, h2, h3⟩
  | fails _ e =>
    obtain ⟨h1, h2⟩ := hfails w₁ hr hi
    exact ⟨hi, h1, h2 e⟩
  | lost _ t a d e h =>
    obtain ⟨h1, h2, -, h3⟩ := hok w₁ hr hi t a d h
    exact ⟨h1, h2, h3 e⟩

/-- One draw. -/
theorem randomUUID_safe {Q : Except ServerError Uuid → World → Prop}
    (h : ∀ w₁, rely w w₁ → inv w₁ → guar w₁ w₁ ∧ ∀ id, Q (.ok id) w₁) :
    randomUUID.Safe (rules platform rely guar inv) Q w := by
  refine Async.Safe.await fun w₁ hr hi a w₂ he => ?_
  cases he with
  | randomUUID id => exact ⟨hi, (h w₁ hr hi).1, (h w₁ hr hi).2 id⟩

/-- Bytes are drawn. -/
theorem randomBytes_safe {size : Nat} {Q : Except ServerError {l : Bytes // l.length = size} → World → Prop}
    (h : ∀ w₁, rely w w₁ → inv w₁ → guar w₁ w₁ ∧ ∀ l, Q (.ok l) w₁) :
    (randomBytes size).Safe (rules platform rely guar inv) Q w := by
  refine Async.Safe.await fun w₁ hr hi a w₂ he => ?_
  cases he with
  | randomBytes _ l => exact ⟨hi, (h w₁ hr hi).1, (h w₁ hr hi).2 l⟩

/-- One notification. -/
theorem notify_safe {n : Notification} {Q : Except ServerError Unit → World → Prop}
    (h : ∀ w₁, rely w w₁ → inv w₁ → inv { w₁ with audit.notified := n :: w₁.audit.notified } ∧
      guar w₁ { w₁ with audit.notified := n :: w₁.audit.notified } ∧
      Q (.ok ()) { w₁ with audit.notified := n :: w₁.audit.notified }) :
    (notify n).Safe (rules platform rely guar inv) Q w := by
  refine Async.Safe.await fun w₁ hr hi a w₂ he => ?_
  cases he with
  | notify => exact h w₁ hr hi

/-- A body is parsed, or the issues are thrown. -/
theorem parse_safe {α : Type} {s : Schema α} {j : Option Json} {R : Async.Rules Op Ans ServerError World}
    {Q : Except ServerError α → World → Prop} (hok : ∀ a, s j = .ok a → Q (.ok a) w)
    (herr : ∀ issues, Q (.error (.zod issues)) w) : (parse s j).Safe R Q w := by
  unfold parse
  cases hs : s j with
  | ok a => exact hok a hs
  | error issues => exact herr issues

end Safe

end Server

end Chhaya
